import EnvoyWebBotAuth.Resolver.Cache
import Mathlib.Logic.Function.Basic
/-!
# Work controls

Limits, circuits, rate limiters and the admission of fetches (`controls.rs`).
Each function is given the clock's reading. The rate limiter of the `governor`
crate is a parameter. A `moka` cache is the map of its entries; entries it
drops are steps of the machine.
-/
open EnvoyWebBotAuth.Lib EnvoyWebBotAuth.Protocol

namespace EnvoyWebBotAuth.Resolver

def minFailureBackoff : Duration := fromSecs 5
def maxFailureBackoff : Duration := fromSecs (5 * 60)
def coalescedFailureTtl : Duration := fromMillis 50
def resolutionDeadline : Duration := fromMillis 1800

structure Limits where
  inboundBodyBytes : Nat
  activeHandlers : Nat
  outboundFetches : Nat
  globalFetchRate : Nat
  globalFetchBurst : Nat
  originFetchRate : Nat
  originFetchBurst : Nat
  ipFetchRate : Nat
  ipFetchBurst : Nat
  newOriginsPerMinute : Nat
  stateEntries : Nat
  maxKeys : Nat
  resolutionTimeout : Duration

/-- `Limits::default` -/
def Limits.standard : Limits where
  inboundBodyBytes := 8 * 1024
  activeHandlers := 64
  outboundFetches := 32
  globalFetchRate := 16
  globalFetchBurst := 32
  originFetchRate := 2
  originFetchBurst := 4
  ipFetchRate := 8
  ipFetchBurst := 16
  newOriginsPerMinute := 256
  stateEntries := 1024
  maxKeys := 32
  resolutionTimeout := resolutionDeadline

/-- The loop of `validate` over the three limiters. -/
def validateRate (name : String) (rate burst : Nat) : Except String Unit :=
  ensure (1 ≤ rate ∧ rate ≤ 1000000 ∧ 1 ≤ burst ∧ burst ≤ 1000000 ∧ rate ≤ burst)
    (name ++ " fetch rate and burst must be between 1 and 1000000, with burst at least rate")

def Limits.validate (limits : Limits) : Except String Unit := do
  ensure (1 ≤ limits.inboundBodyBytes ∧ limits.inboundBodyBytes ≤ 65536)
    "inbound_body_bytes must be between 1 and 65536"
  ensure (1 ≤ limits.activeHandlers ∧ limits.activeHandlers ≤ 4096) "active_handlers must be between 1 and 4096"
  ensure (1 ≤ limits.outboundFetches ∧ limits.outboundFetches ≤ 1024) "outbound_fetches must be between 1 and 1024"
  validateRate "global" limits.globalFetchRate limits.globalFetchBurst
  validateRate "origin" limits.originFetchRate limits.originFetchBurst
  validateRate "ip" limits.ipFetchRate limits.ipFetchBurst
  ensure (1 ≤ limits.newOriginsPerMinute ∧ limits.newOriginsPerMinute ≤ 100000)
    "new_origins_per_minute must be between 1 and 100000"
  ensure (1 ≤ limits.stateEntries ∧ limits.stateEntries ≤ 100000) "state_entries must be between 1 and 100000"
  ensure (limits.newOriginsPerMinute ≤ limits.stateEntries) "new_origins_per_minute must not exceed state_entries"
  ensure (1 ≤ limits.maxKeys ∧ limits.maxKeys ≤ 1024) "max_keys must be between 1 and 1024"
  ensure (limits.resolutionTimeout ≠ 0 ∧ limits.resolutionTimeout ≤ resolutionDeadline)
    "resolution_timeout must be between 1 and 1800 milliseconds"

/-- The default limits pass their own checks. -/
example : Limits.standard.validate.isOk = true := by decide

/-! ## Circuits -/

structure CircuitState where
  consecutiveFailures : Nat := 0
  openCount : Nat := 0
  openUntil : Option Instant := none
  deriving DecidableEq, Repr

inductive CircuitTransition where
  | opened
  | closed
  deriving DecidableEq, Repr

/-- `u32::saturating_add` -/
def saturatingAddU32 (a b : Nat) : Nat := min (a + b) (2 ^ 32 - 1)

/-- How long failures back off, with what the origin asked for. -/
def backoffFor (consecutiveFailures : Nat) (retryAfter : Option Duration) : Duration :=
  let exponent := min (consecutiveFailures - 1) 6
  max (min (minFailureBackoff * 2 ^ exponent) maxFailureBackoff) (min (retryAfter.getD 0) maxFailureBackoff)

def openFor (openCount : Nat) : Duration := min (fromSecs 30 * 2 ^ min openCount 4) maxFailureBackoff

namespace CircuitState

def isOpen (state : CircuitState) (now : Instant) : Bool := state.openUntil.any (now < ·)

def success (state : CircuitState) : Option CircuitTransition × CircuitState :=
  (if 0 < state.consecutiveFailures ∨ state.openUntil.isSome then some .closed else none, {})

def failure (state : CircuitState) (retryAfter : Option Duration) (now : Instant) :
    (Duration × Option CircuitTransition) × CircuitState :=
  let failures := saturatingAddU32 state.consecutiveFailures 1
  let backoff := backoffFor failures retryAfter
  if 3 ≤ failures then
    ((backoff, some .opened),
      { consecutiveFailures := failures
        openCount := saturatingAddU32 state.openCount 1
        openUntil := some (now + openFor state.openCount) })
  else ((backoff, none), { state with consecutiveFailures := failures })

/-- `checked_duration_since` is none if the time has passed. -/
def remaining (state : CircuitState) (now : Instant) : Duration :=
  (state.openUntil.bind (fun u => if now ≤ u then some (u - now) else none)).getD coalescedFailureTtl

end CircuitState

/-! ## The controls -/

/-- `RateLimiter::direct` and `check`, which is true if the call may go on. -/
structure Governor (L : Type) where
  direct : (rate burst : Nat) → L
  check : L → Instant → Bool × L

/-- A permit of `outbound` is the thread that has it. -/
structure WorkControls (L : Type) where
  outbound : List Nat
  global : L
  origins : String → Option L
  ips : IpAddr → Option L
  newOrigins : List (String × Instant)
  circuits : ResourceKey → Option CircuitState

namespace WorkControls

variable {L : Type} (g : Governor L) (limits : Limits)

def new : WorkControls L where
  outbound := []
  global := g.direct limits.globalFetchRate limits.globalFetchBurst
  origins _ := none
  ips _ := none
  newOrigins := []
  circuits _ := none

def circuit (w : WorkControls L) (key : ResourceKey) : CircuitState := (w.circuits key).getD {}

def setCircuit (w : WorkControls L) (key : ResourceKey) (state : CircuitState) : WorkControls L :=
  { w with circuits := Function.update w.circuits key (some state) }

def checkCircuit (w : WorkControls L) (key : ResourceKey) (now : Instant) :
    Except FetchError Unit × WorkControls L :=
  (if (w.circuit key).isOpen now then .error (.new .circuitOpen) else .ok (), w.setCircuit key (w.circuit key))

def success (w : WorkControls L) (key : ResourceKey) : Option CircuitTransition × WorkControls L :=
  ((w.circuit key).success.1, w.setCircuit key (w.circuit key).success.2)

def failureBackoff (w : WorkControls L) (key : ResourceKey) (retryAfter : Option Duration) (now : Instant) :
    (Duration × Option CircuitTransition) × WorkControls L :=
  (((w.circuit key).failure retryAfter now).1, w.setCircuit key ((w.circuit key).failure retryAfter now).2)

def circuitRemaining (w : WorkControls L) (key : ResourceKey) (now : Instant) : Duration × WorkControls L :=
  ((w.circuit key).remaining now, w.setCircuit key (w.circuit key))

def originWindow : Duration := fromSecs 60

/-- Whether an origin may be fetched from, as a known or as a new one. -/
def admitOrigin (w : WorkControls L) (origin : String) (now : Instant) : Bool × WorkControls L :=
  if (w.origins origin).isSome then (true, w)
  else
    let recent := w.newOrigins.filter (fun seen => now - seen.2 < originWindow)
    if recent.all (fun seen => seen.1 ≠ origin) ∧
        (limits.newOriginsPerMinute ≤ recent.length ∨ limits.stateEntries ≤ recent.length) then
      (false, { w with newOrigins := recent })
    else (true, { w with newOrigins := (origin, now) :: recent.filter (fun seen => seen.1 ≠ origin) })

def checkOrigin (w : WorkControls L) (origin : String) (now : Instant) : Bool × WorkControls L :=
  let limiter := (w.origins origin).getD (g.direct limits.originFetchRate limits.originFetchBurst)
  ((g.check limiter now).1, { w with origins := Function.update w.origins origin (some (g.check limiter now).2) })

/-- The permit is dropped on every error. -/
def beginFetch (w : WorkControls L) (t : Nat) (origin : String) (now : Instant) :
    Except FetchError Unit × WorkControls L :=
  if limits.outboundFetches ≤ w.outbound.length then (.error (.new .overloaded), w)
  else
    let (allowed, limiter) := g.check w.global now
    let w := { w with global := limiter }
    if !allowed then (.error (.new .rateLimited), w)
    else
      let (admitted, w) := admitOrigin limits w origin now
      if !admitted then (.error (.new .rateLimited), w)
      else
        let (allowed, w) := checkOrigin g limits w origin now
        if !allowed then (.error (.new .rateLimited), w)
        else (.ok (), { w with outbound := t :: w.outbound })

def checkIp (w : WorkControls L) (ip : IpAddr) (now : Instant) : Except FetchError Unit × WorkControls L :=
  let limiter := (w.ips ip).getD (g.direct limits.ipFetchRate limits.ipFetchBurst)
  let (allowed, limiter) := g.check limiter now
  (if allowed then .ok () else .error (.new .rateLimited),
    { w with ips := Function.update w.ips ip (some limiter) })

/-- Thread `t` drops its permit. -/
def dropPermit (w : WorkControls L) (t : Nat) : WorkControls L := { w with outbound := w.outbound.erase t }

end WorkControls

/-! ## What the definitions say -/

section Circuits

variable {failures openCount : Nat} {retryAfter : Option Duration} {state : CircuitState} {now : Instant}

theorem minFailureBackoff_le : minFailureBackoff ≤ maxFailureBackoff := by decide

theorem backoffFor_ge : minFailureBackoff ≤ backoffFor failures retryAfter := by
  unfold backoffFor
  apply le_max_of_le_left
  refine Nat.le_min.2 ⟨?_, minFailureBackoff_le⟩
  exact Nat.le_mul_of_pos_right _ (Nat.two_pow_pos _)

theorem backoffFor_le : backoffFor failures retryAfter ≤ maxFailureBackoff :=
  Nat.max_le.2 ⟨Nat.min_le_right _ _, Nat.min_le_right _ _⟩

theorem backoffFor_retryAfter : min (retryAfter.getD 0) maxFailureBackoff ≤ backoffFor failures retryAfter :=
  Nat.le_max_right _ _

theorem openFor_pos : 0 < openFor openCount := by
  unfold openFor
  refine Nat.lt_min.2 ⟨?_, by decide⟩
  exact Nat.mul_pos (by decide) (Nat.two_pow_pos _)

theorem openFor_le : openFor openCount ≤ maxFailureBackoff := Nat.min_le_right _ _

/-- A failure is counted, whether it opens the circuit or not. -/
theorem failure_consecutive :
    (state.failure retryAfter now).2.consecutiveFailures = saturatingAddU32 state.consecutiveFailures 1 := by
  unfold CircuitState.failure
  dsimp only
  split <;> rfl

theorem failure_backoff :
    (state.failure retryAfter now).1.1 = backoffFor (saturatingAddU32 state.consecutiveFailures 1) retryAfter := by
  unfold CircuitState.failure
  dsimp only
  split <;> rfl

theorem three_le_saturatingAdd (h : 2 ≤ failures) : 3 ≤ saturatingAddU32 failures 1 := by
  unfold saturatingAddU32
  omega

/-- The third failure in a row opens the circuit. -/
theorem failure_opens (h : 2 ≤ state.consecutiveFailures) : (state.failure retryAfter now).2.isOpen now = true := by
  unfold CircuitState.failure
  dsimp only
  rw [if_pos (three_le_saturatingAdd h)]
  simp only [CircuitState.isOpen, Option.any_some, decide_eq_true_eq]
  exact Nat.lt_add_of_pos_right openFor_pos

end Circuits

namespace WorkControls

variable {L : Type} {w : WorkControls L} {key : ResourceKey} {state : CircuitState}

@[simp] theorem setCircuit_circuit : (w.setCircuit key state).circuit key = state := by
  simp [setCircuit, circuit]

@[simp] theorem dropPermit_circuit (t : Nat) : (w.dropPermit t).circuit key = w.circuit key := rfl

end WorkControls

end EnvoyWebBotAuth.Resolver
