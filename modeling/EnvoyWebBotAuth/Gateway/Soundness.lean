import EnvoyWebBotAuth.Gateway.Assertion
/-!
# What a verified result rests on

`Evidence` lists what was checked of one request and of one resolver response.
`verified_sound` says that a filter that applies a verified result has all of
it, whatever the outside answered.
-/
open EnvoyWebBotAuth.Lib EnvoyWebBotAuth.Protocol

namespace EnvoyWebBotAuth.Gateway

variable {Verifier KeyRing : Type}

/-- `b64_thumbprint` of an Ed25519 key is its RFC 7638 thumbprint. -/
def WebBotAuth.Rfc7638 (wba : WebBotAuth Verifier KeyRing) (d : Digest) : Prop :=
  ∀ x, wba.b64Thumbprint ⟨"Ed25519", x⟩ = Ed25519Jwk.b64Thumbprint d ⟨x⟩

/-- The inner lists of all lines that carry the profile tag. -/
def taggedLists (sfv : Sfv) (lines : List String) : List (String × ListEntry) :=
  lines.flatMap fun line => ((sfv.parseDictionary line).map (·.entries.filter (fun e => carriesProfileTag e.2))).getD []

theorem taggedLists_labels {sfv : Sfv} {lines labels : List String} (h : profileLabels sfv lines = .ok labels) :
    (taggedLists sfv lines).map Prod.fst = labels := by
  induction lines generalizing labels with
  | nil => cases h; rfl
  | cons line lines ih =>
    simp only [profileLabels, bind_ok, okOr_ok] at h
    obtain ⟨dictionary, hd, rest, hr, h⟩ := h
    cases h
    have ih := ih hr
    simp only [taggedLists, List.flatMap_cons, List.map_append] at ih ⊢
    rw [ih, hd]
    rfl

variable (sfv : Sfv) (wba : WebBotAuth Verifier KeyRing) (c : UrlCrate) (wire : WireJson) (host : Host)
  (d : Digest)

/-- What `id` rests on: the request, its one tagged signature, the agent it
covers, and the key in the resolver's response. -/
structure Evidence (settings : Settings) (headers : HeaderMap Bytes) (endOfStream : Bool) (done : CalloutDone)
    (id : VerifiedIdentity) (request : RequestComponents) (verifier : Verifier) (label : ParsedLabel)
    (agentKey : Option String) (agent : SelectedAgent) (jwk : Ed25519Jwk) : Prop where
  ended : endOfStream = true
  present : ∀ name ∈ [headerSignature, headerSignatureInput, headerSignatureAgent], headers.getAll name ≠ []
  captured : RequestComponents.tryFromEnvoy headers = .ok request
  parsed : wba.parse (request.lookupComponent sfv) = some verifier ∧ wba.getParsedLabel verifier = label
  oneTagged : ∃ list, taggedLists sfv request.signatureInput = [(label.label, list)]
  algorithm : label.base.parameters.raw.get "alg" = none ∨
    label.base.parameters.raw.get "alg" = some (.string "ed25519")
  fresh : validateFreshness label.base.parameters.details.created label.base.parameters.details.expires
    (unixTime host) settings.maxSignatureLifetimeSeconds settings.clockSkewSeconds = .ok ()
  authority : .derived (.authority false) ∈ label.base.components.keys ∨
    .derived (.targetUri false) ∈ label.base.components.keys
  selected : selectAgent sfv request.signatureAgent agentKey settings.acceptLegacySignatureAgent = .ok agent
  agentCovered : AgentCovered label.base.components.keys agentKey agent.form
  required : ∀ name ∈ settings.requiredComponents,
    ∃ component ∈ label.base.components.keys, coverageName component = some name
  keyId : id.keyId ≠ "" ∧ id.keyId.utf8ByteSize ≤ 512
  signedKeyId : label.base.parameters.details.keyid = some id.keyId
  response : resolverResponse wire done = .ok (.resolved id.identifier jwk)
  thumbprint : id.keyId = jwk.b64Thumbprint d
  signature : ∃ keyring, wba.tryImportJwk ⟨"Ed25519", jwk.x⟩ = some keyring ∧ wba.verify verifier keyring = true
  identifier : ∃ url mechanism target, parseAgent agent.item = .ok (url, mechanism) ∧
    parseDiscoveryTarget c url mechanism = .ok target ∧ id.identifier = target.normalizedIdentifier

theorem getAll_sanitized (headers : HeaderMap Bytes) {name : String} (h : name ∉ assertionHeaders) :
    (headers.without assertionHeaders).getAll name = headers.getAll name :=
  HeaderMap.getAll_without_of_not_mem headers h

/-- Capturing reads none of the assertion headers. -/
theorem tryFromEnvoy_sanitized (headers : HeaderMap Bytes) :
    RequestComponents.tryFromEnvoy (headers.without assertionHeaders) = RequestComponents.tryFromEnvoy headers := by
  have h : ∀ name ∈ [pseudoHeaderMethod, pseudoHeaderAuthority, pseudoHeaderScheme, pseudoHeaderPath,
      headerSignature, headerSignatureInput, headerSignatureAgent],
      (headers.without assertionHeaders).getAll name = headers.getAll name :=
    fun name hn => getAll_sanitized headers (by revert name; decide)
  simp only [List.forall_mem_cons] at h
  simp only [RequestComponents.tryFromEnvoy, pseudoHeader, signatureField, HeaderMap.getFirst, h]

/-- The evidence behind a result that the response of `done` verified. -/
theorem evidence_of_verified (hthumb : wba.Rfc7638 d) {filter : WebBotAuthFilter Verifier}
    {headers : HeaderMap Bytes} {endOfStream : Bool} {request : RequestComponents}
    {candidate : VerificationCandidate Verifier} {done : CalloutDone} {id : VerifiedIdentity}
    (hready : Ready sfv wba c host filter (headers.without assertionHeaders) endOfStream request candidate)
    (hver : verifyResolverResponse wba candidate (resolverResponse wire done) = .verified id) :
    ∃ label agentKey agent jwk, Evidence sfv wba c wire host d filter.settings headers endOfStream done id request
      candidate.verifier label agentKey agent jwk := by
  obtain ⟨rfl, jwk, hresponse, hkey, hsig⟩ := verify_verified wba hver
  obtain ⟨agentKey, agent, h⟩ := parse_ok sfv wba c hready.parsed
  obtain ⟨target, htarget, hid⟩ := h.target
  obtain ⟨hauthority, hagent, hrequired⟩ := validateCoverage_ok.1 h.coverage
  have htagged := taggedLists_labels h.tagged
  obtain ⟨⟨label, list⟩, hlist, hlabel⟩ := List.map_eq_singleton_iff.1 htagged
  refine ⟨_, agentKey, agent, jwk, {
    ended := hready.ended
    present := ?_
    captured := (tryFromEnvoy_sanitized headers).symm.trans hready.captured
    parsed := ⟨h.parsed, rfl⟩
    oneTagged := ⟨list, by rw [hlist, ← hlabel]⟩
    algorithm := supportedAlgorithm_iff.1 h.algorithm
    fresh := h.fresh
    authority := hauthority
    selected := h.selected
    agentCovered := hagent
    required := hrequired
    keyId := ⟨h.keyId_ne, h.keyId_size⟩
    signedKeyId := h.keyId
    response := hresponse
    thumbprint := by rw [← hkey, hthumb]
    signature := hsig
    identifier := ⟨_, _, target, h.agentItem, htarget, hid.symm⟩ }⟩
  intro name hn
  have hname : name ∉ assertionHeaders := by revert name; decide
  rw [← getAll_sanitized headers hname]
  exact hready.present name hn

/-- An applied verified result has its evidence in the request the filter saw
and in the response the first callback brought. -/
theorem verified_sound (hthumb : wba.Rfc7638 d) (settings : Settings)
    (outcomeCounter durationHistogram : Option Nat) (headers : HeaderMap Bytes) (endOfStream : Bool)
    (callouts : List CalloutDone) (id : VerifiedIdentity)
    (h : .applyResult (.verified id) ∈ ((WebBotAuthFilter.new settings outcomeCounter durationHistogram).run
      sfv wba c wire host headers endOfStream callouts).envoy.calls) :
    ∃ done rest request verifier label agentKey agent jwk, callouts = done :: rest ∧
      Evidence sfv wba c wire host d settings headers endOfStream done id request verifier label agentKey agent
        jwk := by
  have happlied := mem_applied h
  rcases run_cases sfv wba c wire host (.new settings outcomeCounter durationHistogram) rfl headers
      endOfStream callouts with
    ⟨result, hr⟩ | ⟨request, candidate, hready, ⟨-, hr⟩ | ⟨done, rest, result, rfl, hr, hver⟩⟩
  · rw [hr.applied, List.mem_singleton] at happlied
    exact absurd happlied.symm (hr.result_ne id)
  · rw [hr.applied] at happlied
    cases happlied
  · rw [hr.applied, List.mem_singleton] at happlied
    obtain ⟨label, agentKey, agent, jwk, hev⟩ :=
      evidence_of_verified sfv wba c wire host d hthumb hready (hver id happlied.symm)
    exact ⟨done, rest, request, candidate.verifier, label, agentKey, agent, jwk, rfl, hev⟩

theorem verified_sound_sample :
    ∃ done rest request verifier label agentKey agent jwk, [sampleDone] = done :: rest ∧
      Evidence sampleSfv sampleWba sampleUrls publishedWire sampleHost sampleDigest sampleSettings sampleHeaders true
        done ⟨sampleCandidate.normalizedIdentifier, sampleKeyId⟩ request verifier label agentKey agent jwk :=
  verified_sound sampleSfv sampleWba sampleUrls publishedWire sampleHost sampleDigest (fun _ => rfl) sampleSettings
    none none sampleHeaders true [sampleDone] _ (by decide +kernel)

end EnvoyWebBotAuth.Gateway
