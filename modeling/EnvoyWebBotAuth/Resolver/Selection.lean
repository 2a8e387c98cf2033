import EnvoyWebBotAuth.Resolver.Rotation
/-!
# The selected key

`select_key` looks for a label first and for a thumbprint only if no key has
that label. Labels are the origin's; only in a directory each is the thumbprint
of its key (`directory_labels`). So a key is found under another name, a known
test key also, although its thumbprint is refused as a key id.
-/
open EnvoyWebBotAuth.Lib EnvoyWebBotAuth.Protocol

namespace EnvoyWebBotAuth.Resolver

variable (d : Digest)

/-- The first key with this label. -/
def labelled (keys : List ResourceKeyEntry) (keyId : String) : Option ResourceKeyEntry :=
  keys.find? (fun key => key.kid = some keyId)

/-- The first key labelled so, if there is one, has that thumbprint. -/
def LabelledByThumbprint (keys : List ResourceKeyEntry) (keyId : String) : Prop :=
  ∀ key, labelled keys keyId = some key → key.jwk.b64Thumbprint d = keyId

/-- The first key labelled so is a known test key. -/
def LabelsTestKey (keys : List ResourceKeyEntry) (keyId : String) : Prop :=
  ∃ key, labelled keys keyId = some key ∧ knownTestKey (key.jwk.b64Thumbprint d) = true

def handsOutTestKey : ResolveResponse → Bool
  | .resolved _ jwk => knownTestKey (jwk.b64Thumbprint d)
  | .keyNotFound _ => false

variable {d}

theorem selectKey_labelled {keys : List ResourceKeyEntry} {keyId : String} {key : ResourceKeyEntry}
    (h : labelled keys keyId = some key) : selectKey d keys keyId = some key.jwk := by
  unfold labelled at h
  rw [selectKey, h]
  rfl

/-- Without a label the key is selected by its thumbprint. -/
theorem selectKey_unlabelled {keys : List ResourceKeyEntry} {keyId : String} (h : labelled keys keyId = none) :
    (selectKey d keys keyId = none ∧ ∀ key ∈ keys, key.jwk.b64Thumbprint d ≠ keyId) ∨
      ∃ jwk, selectKey d keys keyId = some jwk ∧ jwk.b64Thumbprint d = keyId := by
  unfold labelled at h
  rw [selectKey, h, Option.none_or]
  cases hf : keys.find? (fun key => key.jwk.b64Thumbprint d = keyId) with
  | none =>
    refine .inl ⟨rfl, fun key hk => ?_⟩
    simpa using List.find?_eq_none.1 hf key hk
  | some key => exact .inr ⟨key.jwk, rfl, by simpa using List.find?_some hf⟩

/-- The selected key is one of the list. -/
theorem selectKey_mem {keys : List ResourceKeyEntry} {keyId : String} {jwk : Ed25519Jwk}
    (h : selectKey d keys keyId = some jwk) : ∃ key ∈ keys, key.jwk = jwk := by
  obtain ⟨key, hk, he⟩ := Option.map_eq_some_iff.1 h
  refine ⟨key, ?_, he⟩
  rcases Option.or_eq_some_iff.1 hk with hk | ⟨-, hk⟩
  · exact List.mem_of_find?_eq_some hk
  · exact List.mem_of_find?_eq_some hk

/-- A key list of a directory has no other labels. -/
theorem directory_labels {c : ResourceCrates} {url : Url} {body : Bytes} {maxKeys : Nat} {keys : List ResourceKeyEntry}
    (hdir : isDirectoryUrl url = true) (h : parseResource c .jwks url body maxKeys = .ok (.jwks keys)) (keyId : String) :
    LabelledByThumbprint c.digest keys keyId := by
  intro key hk
  have hlabel : key.kid = some keyId := by simpa using List.find?_some hk
  simp only [parseResource, bind_ok] at h
  obtain ⟨jwks, -, keys', hkeys, he⟩ := h
  obtain rfl : keys' = keys := by simpa using he
  simp only [hdir, parseKeys, bind_ok] at hkeys
  obtain ⟨_, -, hkeys⟩ := hkeys
  obtain ⟨fetchedKey, -, hp⟩ := mapM_ok hkeys (List.mem_of_find?_eq_some hk)
  simp only [parseKey, bind_ok, okOr_ok, ensure_ok] at hp
  obtain ⟨x, -, _, -, _, hkid, hp⟩ := hp
  obtain rfl := Except.ok.inj hp
  simp only at hlabel
  rw [hlabel] at hkid
  by_contra hne
  exact hkid ⟨trivial, by simpa using fun h => hne h.symm⟩

variable {P L : Type} {s : ResolverService P L}

/-- With a key id that is no test key's thumbprint, a test key is given out just
when the first key labelled with it is one. -/
theorem respond_testKey_iff {request : ResolveRequest} (hid : knownTestKey request.keyId = false)
    (target : DiscoveryTarget) (keys : List ResourceKeyEntry) :
    handsOutTestKey s.crates.resource.digest (respond s request target keys) = true ↔
      LabelsTestKey s.crates.resource.digest keys request.keyId := by
  unfold respond
  cases hl : labelled keys request.keyId with
  | some key =>
    rw [selectKey_labelled hl]
    constructor
    · exact fun h => ⟨key, hl, h⟩
    · rintro ⟨key', hk, h⟩
      obtain rfl := Option.some.inj (hl.symm.trans hk)
      exact h
  | none =>
    have hno : ¬ LabelsTestKey s.crates.resource.digest keys request.keyId := by
      rintro ⟨key, hk, -⟩
      rw [hl] at hk
      cases hk
    rcases selectKey_unlabelled (d := s.crates.resource.digest) hl with ⟨hnone, -⟩ | ⟨jwk, hsome, hthumb⟩
    · rw [hnone]
      exact ⟨nofun, fun h => absurd h hno⟩
    · rw [hsome]
      simp only [handsOutTestKey, hthumb, hid]
      exact ⟨nofun, fun h => absurd h hno⟩

/-- A key list that was parsed from documents fetched for the request. -/
def FetchedKeys (s : ResolverService P L) (log : Log P) (request : ResolveRequest) (target : DiscoveryTarget)
    (keys : List ResourceKeyEntry) : Prop :=
  KeysFrom (fun key (r : Representation P) => Sourced s log key r.resource) request target keys

/-- What a resolve call without test keys answers. -/
theorem Reached.resolve_fetched {state : ResolverState P L} (h : Reached s state) (hoff : s.allowTestKeys = false)
    {t : Nat} {request : ResolveRequest} {response : ResolveResponse} {older : Log P}
    (hl : (.returned t (.resolve request) (.response (.ok response)) :: older) <:+ state.log) :
    ∃ target, validateRequest s.crates.resource.url request = .ok target ∧
      ((knownTestKey request.keyId = true ∧ response = .keyNotFound target.normalizedIdentifier) ∨
        (knownTestKey request.keyId = false ∧ ∃ keys, FetchedKeys s older request target keys ∧
          response = respond s request target keys)) := by
  have hg : ∃ newer, state.log = newer ++ .returned t (.resolve request) (.response (.ok response)) :: older :=
    hl.imp fun _ h => h.symm
  obtain ⟨newer, hlog⟩ := hg
  obtain ⟨hresponded, hwithheld⟩ : Concludes s t older request (.ok response) := h.holds.met.returned hlog
  obtain ⟨target, hv, ⟨-, htest, hr⟩ | ⟨keys, hkeys, hr⟩⟩ := hresponded
  · exact ⟨target, hv, .inl ⟨htest, hr⟩⟩
  · refine ⟨target, hv, ?_⟩
    cases htest : knownTestKey request.keyId with
    | true =>
      obtain ⟨identifier, rfl⟩ := hwithheld ⟨hoff, htest⟩
      refine .inl ⟨rfl, ?_⟩
      unfold respond at hr
      split at hr
      · cases hr
      · exact hr
    | false =>
      refine .inr ⟨rfl, keys, hkeys.imp ?_, hr⟩
      rintro key r ⟨start, log, ho, -, -, hgives⟩
      exact hgives.held.sourced.mono ho

/-! ## The test key under another label -/

/-- A public key with its bytes, the digest of its canonical form and its thumbprint. -/
structure SampleKey where
  jwk : Ed25519Jwk
  bytes : Bytes
  digest : Bytes
  thumbprint : String

/-- The known test key. -/
def testKey : SampleKey where
  jwk := ⟨"JrQLj5P_89iXES9-vFgrIy29clF9CC_oPPsw3c5D0bs"⟩
  bytes := [38, 180, 11, 143, 147, 255, 243, 216, 151, 17, 47, 126, 188, 88, 43, 35, 45, 189, 114, 81, 125, 8, 47, 232, 60,
    251, 48, 221, 206, 67, 209, 187]
  digest := [166, 138, 164, 44, 104, 178, 154, 31, 214, 210, 227, 250, 61, 145, 112, 249, 219, 222, 207, 116, 9, 79, 148,
    168, 150, 165, 193, 9, 109, 252, 175, 69]
  thumbprint := "poqkLGiymh_W0uP6PZFw-dvez3QJT5SolqXBCW38r0U"

def otherKey : SampleKey where
  jwk := ⟨"11qYAYKxCrfVS_7TyWQHOg7hcvPapiMlrwIaaPcHURo"⟩
  bytes := [215, 90, 152, 1, 130, 177, 10, 183, 213, 75, 254, 211, 201, 100, 7, 58, 14, 225, 114, 243, 218, 166, 35, 37,
    175, 2, 26, 104, 247, 7, 81, 26]
  digest := [144, 250, 202, 254, 169, 177, 85, 102, 152, 84, 15, 112, 192, 17, 122, 34, 234, 55, 189, 92, 243, 237, 60, 71,
    9, 60, 23, 7, 40, 43, 75, 137]
  thumbprint := "kPrK_qmxVWaYVA9wwBF6Iuo3vVzz7TxHCTwXBygrS4k"

def sampleKeys : List SampleKey := [testKey, otherKey]

/-- SHA-256 and base64url at the sample keys. -/
def digestAtSampleKeys : Digest where
  sha256 bytes := ((sampleKeys.find? (fun key => bytes = headerValue
    ("\x7b\"crv\":\"Ed25519\",\"kty\":\"OKP\",\"x\":\"" ++ key.jwk.x ++ "\"\x7d"))).map SampleKey.digest).getD []
  encode bytes := ((sampleKeys.find? (fun key => bytes = key.digest)).map SampleKey.thumbprint).getD ""
  decode text := (sampleKeys.find? (fun key => text = key.jwk.x)).map SampleKey.bytes

/-- Each sample key has its thumbprint. -/
example : ∀ key ∈ sampleKeys, key.jwk.b64Thumbprint digestAtSampleKeys = key.thumbprint := by decide +kernel

/-- A key set with the test key under the label `other`. -/
def labelledBody : Bytes :=
  headerValue ("\x7b\"keys\":[\x7b\"kty\":\"OKP\",\"crv\":\"Ed25519\",\"kid\":\"other\",\"x\":\"" ++ testKey.jwk.x ++
    "\"\x7d]\x7d")

/-- The sample resolver, before an origin that labels the test key. -/
def testKeyService : ResolverService SamplePolicy Unit where
  crates :=
    { sampleService.crates with
      resource :=
        { sampleService.crates.resource with
          digest := digestAtSampleKeys
          jwksFromSlice := fun body =>
            if body = labelledBody then some ⟨[⟨"OKP", some "Ed25519", some "other", some testKey.jwk.x⟩]⟩
            else none } }
  governor := sampleService.governor
  destinationPolicy := sampleService.destinationPolicy
  limits := sampleService.limits
  allowTestKeys := false
  valid := sampleService.valid

/-- A key set with the test key, and another key under the label `other`. -/
def besideBody : Bytes :=
  headerValue ("\x7b\"keys\":[\x7b\"kty\":\"OKP\",\"crv\":\"Ed25519\",\"kid\":\"test\",\"x\":\"" ++ testKey.jwk.x ++
    "\"\x7d,\x7b\"kty\":\"OKP\",\"crv\":\"Ed25519\",\"kid\":\"other\",\"x\":\"" ++ otherKey.jwk.x ++ "\"\x7d]\x7d")

def besideJwks : FetchedJwks :=
  ⟨[⟨"OKP", some "Ed25519", some "test", some testKey.jwk.x⟩, ⟨"OKP", some "Ed25519", some "other", some otherKey.jwk.x⟩]⟩

def besideKeys : List ResourceKeyEntry := [⟨testKey.jwk, some "test"⟩, ⟨otherKey.jwk, some "other"⟩]

/-- The sample resolver, before an origin with both keys. -/
def besideService : ResolverService SamplePolicy Unit :=
  { testKeyService with
    crates :=
      { testKeyService.crates with
        resource :=
          { testKeyService.crates.resource with
            jwksFromSlice := fun body => if body = besideBody then some besideJwks else none } } }

def sampleResolveRequest : ResolveRequest := ⟨.v1, .jwksUri, "https://agent.example/k", "other"⟩

/-- Thread 1 resolves the sample request, and its fetch is answered so. -/
def resolveAnswered (response : FetchResponse) : List SampleAction :=
  .call 1 (.resolve sampleResolveRequest) :: turns 1 8 ++ [.turn 1 (.addresses (.ok [.v4 0x08080808#32]))] ++
    turns 1 1 ++ [.turn 1 (.response (.ok response))] ++ turns 1 7 ++ [.finish 1]

/-- The response a result is of, if it is one. -/
def respondedOf : Entry (Op P) Ans Task (Answer P) → Option (Nat × ResolveRequest × ResolveResponse)
  | .returned t (.resolve request) (.response (.ok response)) => some (t, request, response)
  | _ => none

theorem respondedOf_eq {e : Entry (Op P) Ans Task (Answer P)} {t : Nat} {request : ResolveRequest}
    {response : ResolveResponse} (h : respondedOf e = some (t, request, response)) :
    e = .returned t (.resolve request) (.response (.ok response)) := by
  unfold respondedOf at h
  split at h
  · cases h
    rfl
  · cases h

/-- A run that ends with a response. -/
theorem run_responded (service : ResolverService SamplePolicy Unit) {actions : List SampleAction} {t : Nat}
    {request : ResolveRequest} {response : ResolveResponse}
    (h : (service.system.run (System.start (World.start service 0 0)) actions).bind
      (fun state => state.log.head?.bind respondedOf) = some (t, request, response)) :
    ∃ state older, Reached service state ∧
      state.log = .returned t (.resolve request) (.response (.ok response)) :: older := by
  obtain ⟨state, e, older, hrun, hl, hf⟩ := service.system.run_head h
  obtain rfl := respondedOf_eq hf
  exact ⟨state, older, ⟨0, 0, System.Reachable.start.run _ actions hrun⟩, hl⟩

/-- The only document of its origin has both keys, but not as a directory. -/
theorem beside_fetchedKeys {log : Log SamplePolicy} {target : DiscoveryTarget} {keys : List ResourceKeyEntry}
    (h : FetchedKeys besideService log sampleResolveRequest target keys) : keys = besideKeys := by
  cases h with
  | jwks r _ hr hk =>
    obtain ⟨_, _, response, -, -, -, -, hp⟩ := hr
    have hresource : r.resource = .jwks keys := by
      unfold jwksOf at hk
      split at hk
      · rename_i keys' hkeys
        rw [hkeys, Except.ok.inj hk]
      · cases hk
    rw [hresource] at hp
    simp only [parseResource, bind_ok, okOr_ok] at hp
    obtain ⟨jwks, hjwks, keys', hkeys, he⟩ := hp
    obtain rfl : keys' = keys := by simpa using he
    simp only [besideService] at hjwks
    split at hjwks
    · obtain rfl := Option.some.inj hjwks
      have hset : parseKeys besideService.crates.resource besideJwks besideService.limits.maxKeys false = .ok besideKeys := by
        decide +kernel
      have hdirectory : parseKeys besideService.crates.resource besideJwks besideService.limits.maxKeys true =
          .error invalidResource := by decide +kernel
      cases hdir : isDirectoryUrl target.fetchUrl with
      | false =>
        rw [hdir, hset] at hkeys
        exact (Except.ok.inj hkeys).symm
      | true =>
        rw [hdir, hdirectory] at hkeys
        cases hkeys
    · cases hjwks
  | inline metadata cimd hd => cases hd
  | named metadata cimd second r hd => cases hd

/-- A resolve call hands out a test key only if the documents fetched for it have
a key list in which the requested key id is the label of one; and the list a
call answers from makes it do so. -/
theorem test_keys_handed_out {state : ResolverState P L} (h : Reached s state) (hoff : s.allowTestKeys = false) :
    (∀ t request response older, (.returned t (.resolve request) (.response (.ok response)) :: older) <:+ state.log →
      (∀ target keys, FetchedKeys s older request target keys →
        ¬ LabelsTestKey s.crates.resource.digest keys request.keyId) →
      handsOutTestKey s.crates.resource.digest response = false) ∧
    ∀ t request response older, (.returned t (.resolve request) (.response (.ok response)) :: older) <:+ state.log →
      (knownTestKey request.keyId = true ∧ handsOutTestKey s.crates.resource.digest response = false) ∨
        ∃ target keys, FetchedKeys s older request target keys ∧ response = respond s request target keys ∧
          (handsOutTestKey s.crates.resource.digest response = true ↔
            LabelsTestKey s.crates.resource.digest keys request.keyId) := by
  constructor
  · intro t request response older hl hdocuments
    obtain ⟨target, -, ⟨-, rfl⟩ | ⟨hid, keys, hkeys, rfl⟩⟩ := h.resolve_fetched hoff hl
    · rfl
    · rw [← Bool.not_eq_true, respond_testKey_iff hid]
      exact hdocuments target keys hkeys
  · intro t request response older hl
    obtain ⟨target, -, ⟨htest, rfl⟩ | ⟨hid, keys, hkeys, rfl⟩⟩ := h.resolve_fetched hoff hl
    · exact .inl ⟨htest, rfl⟩
    · exact .inr ⟨target, keys, hkeys, rfl, respond_testKey_iff hid target keys⟩

theorem test_keys_handed_out_sample : ∃ (state : ResolverState SamplePolicy Unit) (older : Log SamplePolicy),
    state.log = .returned 1 (.resolve sampleResolveRequest)
        (.response (.ok (.resolved "https://agent.example/k" otherKey.jwk))) :: older ∧
      handsOutTestKey besideService.crates.resource.digest (.resolved "https://agent.example/k" otherKey.jwk) = false := by
  obtain ⟨state, older, hreached, hlog⟩ := run_responded besideService (show
    (besideService.system.run (System.start (World.start besideService 0 0))
        (resolveAnswered { sampleResponse 200 "max-age=60" with body := besideBody })).bind
          (fun state => state.log.head?.bind respondedOf) =
      some (1, sampleResolveRequest, .resolved "https://agent.example/k" otherKey.jwk) by decide +kernel)
  refine ⟨state, older, hlog,
    (test_keys_handed_out hreached rfl).1 1 sampleResolveRequest _ older ⟨[], hlog.symm⟩ ?_⟩
  rintro target keys hkeys ⟨key, hk, htest⟩
  rw [beside_fetchedKeys hkeys] at hk
  obtain rfl : ⟨otherKey.jwk, some "other"⟩ = key := Option.some.inj hk
  revert htest
  decide +kernel

/-- An origin gets its resolver to give out the test key by labelling it. -/
theorem test_key_under_label : ∃ (state : ResolverState SamplePolicy Unit) (older : Log SamplePolicy),
    Reached testKeyService state ∧ testKeyService.allowTestKeys = false ∧
      state.log = .returned 1 (.resolve sampleResolveRequest)
        (.response (.ok (.resolved "https://agent.example/k" testKey.jwk))) :: older ∧
      testKey.jwk.b64Thumbprint testKeyService.crates.resource.digest ∈ testKeyThumbprints := by
  obtain ⟨state, older, hreached, hlog⟩ := run_responded testKeyService (show
    (testKeyService.system.run (System.start (World.start testKeyService 0 0))
        (resolveAnswered { sampleResponse 200 "max-age=60" with body := labelledBody })).bind
          (fun state => state.log.head?.bind respondedOf) =
      some (1, sampleResolveRequest, .resolved "https://agent.example/k" testKey.jwk) by decide +kernel)
  exact ⟨state, older, hreached, rfl, hlog, by decide +kernel⟩

end EnvoyWebBotAuth.Resolver
