import EnvoyWebBotAuth.Resolver.State
/-!
# Loading a resource

`CacheStore::load` (`cache.rs`) and `ResourceLoader::refresh` (`loader.rs`) as
programs over the shared state.
-/
open EnvoyWebBotAuth.Lib EnvoyWebBotAuth.Protocol

namespace EnvoyWebBotAuth.Resolver

abbrev Calls (P : Type) := Prog (Op P) Ans
abbrev Fallible (P : Type) := ExceptT FetchError (Calls P)

variable {P L : Type}

abbrev call (o : Op P) : Calls P (Ans o) := Prog.call o

/-- A call that does not fail. -/
abbrev ask (o : Op P) : Fallible P (Ans o) := Prog.ask o

abbrev check {α : Type} (r : Except FetchError α) : Fallible P α := Prog.check r

variable (s : ResolverService P L)

/-! ## Refreshing -/

def publish (key : ResourceKey) (representation : Representation P) : Fallible P Unit :=
  if s.crates.policy.isStorable representation.policy then ask (.representationsInsert key representation)
  else ask (.representationsInvalidate key)

/-- `refresh_inner` from the answer of the fetch on. -/
def settleFetch (key : ResourceKey) (request : Request) (previous : Option (Representation P))
    (response : Except FetchError FetchResponse) : Fallible P (Representation P) := do
  let response ← check response
  let now ← ask .systemNow
  let representation ← check
    (representationFromResponse s.crates key request previous response s.limits.maxKeys now)
  publish s key representation
  return representation

def requestHeaders (request : Request) : Option (Representation P) → Fallible P Headers
  | some old => do
    let now ← ask .systemNow
    match s.crates.policy.beforeRequest old.policy request now with
    | .stale headers => return headers
    | .fresh headers => return headers
  | none => return request.headers

/-- `refresh_inner` while it holds the permit. -/
def refreshPermitted (key : ResourceKey) (previous : Option (Representation P)) (host : String) (port : UInt16) :
    Fallible P (Representation P) := do
  let addresses ← ExceptT.mk (call (.resolveHost host port))
  let addresses ← check ((validateAllAddresses addresses).mapError (fun _ => .new .unsafeAddress))
  let selectedIp := addresses.val.head addresses.property
  ExceptT.mk (call (.checkIp selectedIp))
  let request ← check (cacheRequest s.crates key)
  let headers ← requestHeaders s request previous
  let response ← ask (.fetch ⟨key.url, key.kind, headers, selectedIp⟩)
  settleFetch s key request previous response

def refreshInner (key : ResourceKey) (previous : Option (Representation P)) : Fallible P (Representation P) := do
  ExceptT.mk (call (.checkCircuit key))
  check ((s.destinationPolicy.validateUrl s.crates.resource.url key.url).mapError (fun _ => .new .unsafeAddress))
  let host ← check (okOr invalidResource key.url.host)
  let port ← check (okOr invalidResource (s.crates.resource.url.portOrKnownDefault key.url))
  ExceptT.mk (call (.beginFetch (s.crates.resource.url.originAscii key.url)))
  -- the permit is dropped on every way out
  ExceptT.mk do
    let result ← (refreshPermitted s key previous host port).run
    call .dropPermit
    return result

/-- How long the outcome of a refresh is good for. -/
def validFor (key : ResourceKey) : Except FetchError (Representation P) → Calls P Duration
  | .ok representation => do
    let _ ← call (.success key)
    return if s.crates.policy.isStorable representation.policy then fromMillis 50 else 0
  | .error error =>
    match error.class with
    | .transient => do
      let (backoff, _) ← call (.failureBackoff key error.retryAfter)
      return backoff
    | .circuitOpen => call (.circuitRemaining key)
    | .permanent | .loadShed => return coalescedFailureTtl

/-- `refresh` from the result of `refresh_inner` on. -/
def refreshOutcome (key : ResourceKey) (result : Except FetchError (Representation P)) :
    Calls P (RefreshOutcome P) := do
  let validFor ← validFor s key result
  let now ← call .instantNow
  return ⟨result, now + validFor⟩

def refresh (key : ResourceKey) (previous : Option (Representation P)) : Calls P (RefreshOutcome P) := do
  let result ← (refreshInner s key previous).run
  refreshOutcome s key result

/-! ## Loading -/

/-- What the leader of `get_with` does. -/
def leadWith (key : ResourceKey) (init : Calls P (RefreshOutcome P)) : Calls P (RefreshOutcome P) := do
  let outcome ← init
  call (.initDone key outcome)
  return outcome

/-- `refreshes.get_with` -/
def getWith (key : ResourceKey) (init : Calls P (RefreshOutcome P)) : Calls P (RefreshOutcome P) := do
  match ← call (.getWith key) with
  | .value outcome => return outcome
  | .lead => leadWith key init
  | .wait =>
    match ← call (.awaitWith key) with
    | some outcome => return outcome
    | none => leadWith key init

def coalesced (key : ResourceKey) (previous : Option (Representation P)) (now : SystemTime) :
    Calls P (Except FetchError (Representation P)) := do
  let outcome ← getWith key (refresh s key previous)
  return resultOrStale outcome.result previous now

/-- `load` where there is nothing fresh. -/
def loadStale (key : ResourceKey) (previous : Option (Representation P)) (now : SystemTime) :
    Calls P (Except FetchError (Representation P)) := do
  match ← call (.refreshesGet key) with
  | some outcome =>
    let instant ← call .instantNow
    if instant < outcome.validUntil then
      return resultOrStale outcome.result previous now
    else
      call (.refreshesInvalidate key)
      coalesced s key previous now
  | none => coalesced s key previous now

def load (key : ResourceKey) : Fallible P (Representation P) := do
  let request ← check (cacheRequest s.crates key)
  let now ← ask .systemNow
  let previous ← ask (.representationsGet key)
  match previous.filter (fun old => (old.freshRequest s.crates.policy request now).isSome) with
  | some old => return old
  | none => ExceptT.mk (loadStale s key previous now)

end EnvoyWebBotAuth.Resolver
