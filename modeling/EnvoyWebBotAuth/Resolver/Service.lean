import EnvoyWebBotAuth.Resolver.Loader
/-!
# Resolving a key

Admission, the walk over the documents and the selection of the key
(`service.rs`), and the machine that runs any number of resolve calls and
loads.
-/
open EnvoyWebBotAuth.Lib EnvoyWebBotAuth.Protocol

namespace EnvoyWebBotAuth.Resolver

def testKeyThumbprints : List String := ["poqkLGiymh_W0uP6PZFw-dvez3QJT5SolqXBCW38r0U"]

def knownTestKey (keyId : String) : Bool := keyId ∈ testKeyThumbprints

/-- A key labelled so, or else one with that thumbprint. -/
def selectKey (d : Digest) (keys : List ResourceKeyEntry) (keyId : String) : Option Ed25519Jwk :=
  ((keys.find? (fun key => key.kid = some keyId)).or
    (keys.find? (fun key => key.jwk.b64Thumbprint d = keyId))).map ResourceKeyEntry.jwk

def validateRequest (c : UrlCrate) (request : ResolveRequest) : Except FetchError DiscoveryTarget :=
  if request.apiVersion ≠ .v1 ∨ request.keyId = "" ∨ maxKeyIdBytes < request.keyId.utf8ByteSize ∨
      maxAgentUrlBytes < request.agentUrl.utf8ByteSize then
    .error (.new .badRequest)
  else (parseDiscoveryTarget c request.agentUrl request.discovery).mapError (fun _ => .new .badRequest)

theorem validateRequest_target {c : UrlCrate} {request : ResolveRequest} {target : DiscoveryTarget}
    (h : validateRequest c request = .ok target) :
    parseDiscoveryTarget c request.agentUrl request.discovery = .ok target := by
  unfold validateRequest at h
  split at h
  · cases h
  · cases htarget : parseDiscoveryTarget c request.agentUrl request.discovery with
    | error error =>
      rw [htarget] at h
      cases h
    | ok found =>
      rw [htarget] at h
      exact congrArg Except.ok (Except.ok.inj h)

variable {P L : Type} (s : ResolverService P L)

def jwksOf (representation : Representation P) : Except FetchError (List ResourceKeyEntry) :=
  match representation.resource with
  | .jwks keys => .ok keys
  | .cimd _ => .error invalidResource

def cimdOf (metadata : Representation P) : Except FetchError CimdResource :=
  match metadata.resource with
  | .cimd cimd => .ok cimd
  | .jwks _ => .error invalidResource

def cimdKeys (cimd : CimdResource) : Fallible P (List ResourceKeyEntry) :=
  match cimd.inlineJwks with
  | some keys => return keys
  | none => do
    let jwksUrl ← check (okOr invalidResource cimd.jwksUri)
    let jwks ← load s ⟨jwksUrl, .jwks⟩
    check (jwksOf jwks)

def loadKeys (discovery : DiscoveryMechanism) (fetchUrl : Url) : Fallible P (List ResourceKeyEntry) :=
  match discovery with
  | .directory | .jwksUri => do
    let representation ← load s ⟨fetchUrl, .jwks⟩
    check (jwksOf representation)
  | .cimd => do
    let metadata ← load s ⟨fetchUrl, .cimd⟩
    let cimd ← check (cimdOf metadata)
    cimdKeys s cimd

/-- The response to a request whose keys are loaded. -/
def respond (request : ResolveRequest) (target : DiscoveryTarget) (keys : List ResourceKeyEntry) :
    ResolveResponse :=
  match selectKey s.crates.resource.digest keys request.keyId with
  | some jwk => .resolved target.normalizedIdentifier jwk
  | none => .keyNotFound target.normalizedIdentifier

def resolveInner (request : ResolveRequest) : Fallible P ResolveResponse := do
  let target ← check (validateRequest s.crates.resource.url request)
  if !s.allowTestKeys && knownTestKey request.keyId then
    return .keyNotFound target.normalizedIdentifier
  else
    let keys ← loadKeys s request.discovery target.fetchUrl
    return respond s request target keys

/-- `resolve_timed`; an elapsed timeout is a step of the machine. -/
def resolve (request : ResolveRequest) : Fallible P ResolveResponse := do
  ExceptT.mk (call .acquireHandler)
  ExceptT.mk do
    call .startTimeout
    let result ← (resolveInner s request).run
    call .endTimeout
    return result

/-! ## The machine -/

/-- A call of `ResolverService::resolve`, or of `ResourceLoader::load`. -/
inductive Task where
  | resolve (request : ResolveRequest)
  | load (key : ResourceKey)

inductive Answer (P : Type) where
  | response (result : Except FetchError ResolveResponse)
  | representation (result : Except FetchError (Representation P))

def Task.body : Task → Calls P (Answer P)
  | .resolve request => do
    let result ← (Resolver.resolve s request).run
    return .response result
  | .load key => do
    let result ← (Resolver.load s key).run
    return .representation result

/-- A timeout elapses unless its future is done. -/
def Task.due (t : Nat) : Task → Op P → World P L → Option (Answer P)
  | .resolve _, .endTimeout, _ => none
  | .resolve _, _, w =>
    if (w.deadlines t).any (· ≤ w.instant) then some (.response (.error (.new .timeout))) else none
  | .load _, _, _ => none

def ResolverService.system : System (Op P) Ans Task Outside Env (World P L) (Answer P) where
  body := Task.body s
  exec := World.exec s
  due := Task.due
  release := World.release
  env := World.env

abbrev Log (P : Type) := List (Entry (Op P) Ans Task (Answer P))
abbrev ResolverState (P L : Type) := Machine (Op P) Ans Task (World P L) (Answer P)

/-- The states of a resolver that was started at some time. -/
def Reached (state : ResolverState P L) : Prop :=
  ∃ wall instant, s.system.Reachable (World.start s wall instant) state

variable {s} {state state' : ResolverState P L}

theorem Reached.step (h : Reached s state) {act : Action Task Outside Env} (hs : s.system.step state act = some state') :
    Reached s state' := by
  obtain ⟨wall, instant, hreach⟩ := h
  exact ⟨wall, instant, hreach.step act hs⟩

theorem Reached.run (h : Reached s state) {actions : List (Action Task Outside Env)}
    (hr : s.system.run state actions = some state') : Reached s state' := by
  obtain ⟨wall, instant, hreach⟩ := h
  exact ⟨wall, instant, hreach.run _ actions hr⟩

end EnvoyWebBotAuth.Resolver
