import EnvoyWebBotAuth.Lib.SingleFlight
import EnvoyWebBotAuth.Lib.Threads
import EnvoyWebBotAuth.Resolver.Controls
/-!
# The shared state

What the tasks of the resolver share: the clocks, the two caches, the work
controls and the semaphore of the handlers. `Op` has the calls a task makes,
`exec` says what each does. Answers of DNS and of the origin come from outside.
A task may be dropped at any call; what it held is given back.
-/
open EnvoyWebBotAuth.Lib EnvoyWebBotAuth.Protocol

namespace EnvoyWebBotAuth.Resolver

/-- `ResolverService`, with what its loader has and the crates it uses. -/
structure ResolverService (P L : Type) where
  crates : CacheCrates P
  governor : Governor L
  destinationPolicy : DestinationPolicy
  limits : Limits
  allowTestKeys : Bool
  valid : limits.validate = .ok ()

inductive Op (P : Type) where
  /-- `SystemTime::now()` -/
  | systemNow
  /-- `Instant::now()` -/
  | instantNow
  | acquireHandler
  /-- Starting `tokio::time::timeout`. -/
  | startTimeout
  /-- The future of the timeout is done and the handler's permit is dropped. -/
  | endTimeout
  | representationsGet (key : ResourceKey)
  | representationsInsert (key : ResourceKey) (representation : Representation P)
  | representationsInvalidate (key : ResourceKey)
  | refreshesGet (key : ResourceKey)
  | refreshesInvalidate (key : ResourceKey)
  /-- `refreshes.get_with`, up to where it waits or computes the value. -/
  | getWith (key : ResourceKey)
  | awaitWith (key : ResourceKey)
  /-- The leader of `get_with` has computed the value. -/
  | initDone (key : ResourceKey) (outcome : RefreshOutcome P)
  | checkCircuit (key : ResourceKey)
  | success (key : ResourceKey)
  | failureBackoff (key : ResourceKey) (retryAfter : Option Duration)
  | circuitRemaining (key : ResourceKey)
  | beginFetch (origin : String)
  | dropPermit
  | checkIp (ip : IpAddr)
  /-- `dns.resolve` -/
  | resolveHost (host : String) (port : UInt16)
  /-- `http.fetch` -/
  | fetch (request : FetchRequest)

/-- What a call answers. -/
@[reducible] def Ans {P : Type} : Op P → Type
  | .systemNow => SystemTime
  | .instantNow => Instant
  | .acquireHandler => Except FetchError Unit
  | .startTimeout => Unit
  | .endTimeout => Unit
  | .representationsGet _ => Option (Representation P)
  | .representationsInsert _ _ => Unit
  | .representationsInvalidate _ => Unit
  | .refreshesGet _ => Option (RefreshOutcome P)
  | .refreshesInvalidate _ => Unit
  | .getWith _ => SingleFlight.Reply (RefreshOutcome P)
  | .awaitWith _ => Option (RefreshOutcome P)
  | .initDone _ _ => Unit
  | .checkCircuit _ => Except FetchError Unit
  | .success _ => Option CircuitTransition
  | .failureBackoff _ _ => Duration × Option CircuitTransition
  | .circuitRemaining _ => Duration
  | .beginFetch _ => Except FetchError Unit
  | .dropPermit => Unit
  | .checkIp _ => Except FetchError Unit
  | .resolveHost _ _ => Except FetchError (List IpAddr)
  | .fetch _ => Except FetchError FetchResponse

structure World (P L : Type) where
  wall : SystemTime
  instant : Instant
  /-- The threads that have a permit of `handlers`. -/
  handlers : List Nat
  /-- When the timeout of a thread elapses. -/
  deadlines : Nat → Option Instant
  representations : ResourceKey → Option (Representation P)
  refreshes : SingleFlight ResourceKey (RefreshOutcome P)
  controls : WorkControls L

/-- What comes from outside. -/
inductive Outside where
  | silent
  | addresses (answer : Except FetchError (List IpAddr))
  | response (answer : Except FetchError FetchResponse)

/-- What happens without a thread. -/
inductive Env where
  /-- Time passes; the wall clock may be set to any time. -/
  | clock (wall : SystemTime) (instant : Instant)
  | park (t : Nat)
  | evictRepresentation (key : ResourceKey)
  | evictRefresh (key : ResourceKey)
  | evictCircuit (key : ResourceKey)
  | evictOrigin (origin : String)
  | evictIp (ip : IpAddr)

variable {P L : Type}

/-- `ResolverService::new` -/
def World.start (s : ResolverService P L) (wall : SystemTime) (instant : Instant) : World P L where
  wall := wall
  instant := instant
  handlers := []
  deadlines _ := none
  representations _ := none
  refreshes := .empty
  controls := .new s.governor s.limits

namespace World

def withControls {α : Type} (w : World P L) (r : α × WorkControls L) : Option (α × World P L) :=
  some (r.1, { w with controls := r.2 })

/-- A call of thread `t`; none if it is not answered yet. -/
def exec (s : ResolverService P L) (t : Nat) : (o : Op P) → Outside → World P L → Option (Ans o × World P L)
  | .systemNow, _, w => some (w.wall, w)
  | .instantNow, _, w => some (w.instant, w)
  | .acquireHandler, _, w =>
    if s.limits.activeHandlers ≤ w.handlers.length then some (.error (.new .overloaded), w)
    else some (.ok (), { w with handlers := t :: w.handlers })
  | .startTimeout, _, w =>
    some ((), { w with deadlines := Function.update w.deadlines t (some (w.instant + s.limits.resolutionTimeout)) })
  | .endTimeout, _, w =>
    some ((), { w with deadlines := Function.update w.deadlines t none, handlers := w.handlers.erase t })
  | .representationsGet key, _, w => some (w.representations key, w)
  | .representationsInsert key r, _, w =>
    some ((), { w with representations := Function.update w.representations key (some r) })
  | .representationsInvalidate key, _, w =>
    some ((), { w with representations := Function.update w.representations key none })
  | .refreshesGet key, _, w => some (w.refreshes.entries key, w)
  | .refreshesInvalidate key, _, w => some ((), { w with refreshes := w.refreshes.forget key })
  | .getWith key, _, w => some ((w.refreshes.enter t key).1, { w with refreshes := (w.refreshes.enter t key).2 })
  | .awaitWith key, _, w => (w.refreshes.await t key).map fun r => (r.1, { w with refreshes := r.2 })
  | .initDone key outcome, _, w => some ((), { w with refreshes := w.refreshes.land key outcome })
  | .checkCircuit key, _, w => w.withControls (w.controls.checkCircuit key w.instant)
  | .success key, _, w => w.withControls (w.controls.success key)
  | .failureBackoff key retryAfter, _, w => w.withControls (w.controls.failureBackoff key retryAfter w.instant)
  | .circuitRemaining key, _, w => w.withControls (w.controls.circuitRemaining key w.instant)
  | .beginFetch origin, _, w => w.withControls (w.controls.beginFetch s.governor s.limits t origin w.instant)
  | .dropPermit, _, w => some ((), { w with controls := w.controls.dropPermit t })
  | .checkIp ip, _, w => w.withControls (w.controls.checkIp s.governor s.limits ip w.instant)
  | .resolveHost _ _, .addresses answer, w => some (answer, w)
  | .resolveHost _ _, _, _ => none
  | .fetch _, .response answer, w => some (answer, w)
  | .fetch _, _, _ => none

/-- Dropping a thread drops its permits and the value it was computing. -/
def release (t : Nat) (w : World P L) : World P L :=
  { w with
    handlers := w.handlers.erase t
    deadlines := Function.update w.deadlines t none
    refreshes := w.refreshes.leave t
    controls := w.controls.dropPermit t }

def env : Env → World P L → Option (World P L)
  | .clock wall instant, w => if w.instant ≤ instant then some { w with wall := wall, instant := instant } else none
  | .park t, w => (w.refreshes.park t).map fun refreshes => { w with refreshes := refreshes }
  | .evictRepresentation key, w => some { w with representations := Function.update w.representations key none }
  | .evictRefresh key, w => some { w with refreshes := w.refreshes.forget key }
  | .evictCircuit key, w =>
    some { w with controls := { w.controls with circuits := Function.update w.controls.circuits key none } }
  | .evictOrigin origin, w =>
    some { w with controls := { w.controls with origins := Function.update w.controls.origins origin none } }
  | .evictIp ip, w => some { w with controls := { w.controls with ips := Function.update w.controls.ips ip none } }

end World

end EnvoyWebBotAuth.Resolver
