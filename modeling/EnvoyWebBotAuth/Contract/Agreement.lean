import EnvoyWebBotAuth.Gateway.Agent
import EnvoyWebBotAuth.Gateway.Filter
import EnvoyWebBotAuth.Protocol.WireText
import EnvoyWebBotAuth.Resolver.Rotation
/-!
# Module and resolver agree

What the module asks for a candidate fits into a body, is read back as it was
written, and passes the resolver's checks; both compute one identifier. Trusted:
of the structured fields, that their strings are printable ASCII; of `serde`,
what `WireJson.Exact` says.
-/
open EnvoyWebBotAuth.Lib EnvoyWebBotAuth.Protocol EnvoyWebBotAuth.Gateway EnvoyWebBotAuth.Resolver

namespace EnvoyWebBotAuth.Contract

variable {Verifier KeyRing : Type} {sfv : Sfv} {wba : WebBotAuth Verifier KeyRing} {c : UrlCrate} {wire : WireJson}

/-- The strings of structured fields are printable ASCII. -/
structure PrintableStrings (sfv : Sfv) (wba : WebBotAuth Verifier KeyRing) : Prop where
  member : ∀ line d key item text, sfv.parseDictionary line = some d → d.get key = some (.item item) →
    item.bareItem = .string text → printableText text = true
  item : ∀ line item text, sfv.parseItem line = some item → item.bareItem = .string text → printableText text = true
  keyId : ∀ message verifier id, wba.parse message = some verifier →
    (wba.getParsedLabel verifier).base.parameters.details.keyid = some id → printableText id = true

/-- What the module asks the resolver. -/
def resolveRequest (candidate : VerificationCandidate Verifier) : ResolveRequest where
  apiVersion := .v1
  discovery := candidate.discovery
  agentUrl := candidate.signedUrl
  keyId := candidate.keyId

/-! ## What a candidate has -/

theorem selectAgent_printable (hp : PrintableStrings sfv wba) {values : List String} {agentKey : Option String}
    {acceptLegacy : Bool} {agent : SelectedAgent} {text : String}
    (h : selectAgent sfv values agentKey acceptLegacy = .ok agent) (ht : agent.item.bareItem = .string text) :
    printableText text = true := by
  cases agentKey with
  | some key =>
    obtain ⟨d, item, hm, hg, rfl⟩ := selectAgent_key.1 h
    obtain ⟨line, parsed, hline, hk⟩ := merged_from hm hg
    exact hp.member line parsed key item text hline hk ht
  | none =>
    obtain ⟨-, line, item, -, hitem, rfl⟩ := selectAgent_legacy h
    exact hp.item line item text hitem ht

/-- The strings of a candidate are printable and of limited size, and its URL is
a discovery target. -/
structure Askable (c : UrlCrate) (candidate : VerificationCandidate Verifier) : Prop where
  url : printableText candidate.signedUrl = true
  keyId : printableText candidate.keyId = true
  keyId_ne : candidate.keyId ≠ ""
  keyId_size : candidate.keyId.utf8ByteSize ≤ maxKeyIdBytes
  url_size : candidate.signedUrl.utf8ByteSize ≤ maxAgentUrlBytes
  target : ∃ target, parseDiscoveryTarget c candidate.signedUrl candidate.discovery = .ok target ∧
    target.normalizedIdentifier = candidate.normalizedIdentifier

theorem parseDiscoveryTarget_size {value : String} {discovery : DiscoveryMechanism} {target : DiscoveryTarget}
    (h : parseDiscoveryTarget c value discovery = .ok target) : value.utf8ByteSize ≤ maxAgentUrlBytes := by
  unfold parseDiscoveryTarget at h
  split at h
  · cases h
  · rename_i hle
    exact Nat.le_of_not_lt hle

theorem askable_of_parse (hp : PrintableStrings sfv wba) {request : RequestComponents} {acceptLegacy : Bool}
    {required : List String} {now : Int64} {maxLifetime clockSkew : UInt64} {candidate : VerificationCandidate Verifier}
    (h : VerificationCandidate.parse sfv wba c request acceptLegacy required now maxLifetime clockSkew = .ok candidate) :
    Askable c candidate := by
  obtain ⟨agentKey, agent, hchecked⟩ := parse_ok sfv wba c h
  obtain ⟨target, htarget, hid⟩ := hchecked.target
  constructor
  · exact selectAgent_printable hp hchecked.selected (parseAgent_string hchecked.agentItem)
  · exact hp.keyId _ _ _ hchecked.parsed hchecked.keyId
  · exact hchecked.keyId_ne
  · exact hchecked.keyId_size
  · exact parseDiscoveryTarget_size htarget
  · exact ⟨target, htarget, hid⟩

/-! ## The request -/

/-- The body, which is neither too large for the module nor for the resolver. -/
theorem Askable.body {candidate : VerificationCandidate Verifier} (h : Askable c candidate) (hw : wire.Exact) :
    ∃ body, wire.requestToVec (resolveRequest candidate) = some body ∧ body.length ≤ maxResolveBodyBytes ∧
      body.length ≤ Limits.standard.inboundBodyBytes ∧
      wire.requestFromSlice body = some (resolveRequest candidate) := by
  obtain ⟨body, hbody, hlength, hread⟩ := hw.round_trip (resolveRequest candidate) h.url h.keyId
  have hfits : body.length ≤ 8 * 1024 := by
    have hurl : candidate.signedUrl.utf8ByteSize ≤ 2048 := h.url_size
    have hid : candidate.keyId.utf8ByteSize ≤ 512 := h.keyId_size
    simp only [resolveRequest] at hlength
    omega
  exact ⟨body, hbody, hfits, hfits, hread rfl⟩

/-- The resolver accepts the request and computes the module's identifier. -/
theorem Askable.validated {candidate : VerificationCandidate Verifier} (h : Askable c candidate) :
    ∃ target, validateRequest c (resolveRequest candidate) = .ok target ∧
      target.normalizedIdentifier = candidate.normalizedIdentifier := by
  obtain ⟨target, htarget, hid⟩ := h.target
  refine ⟨target, ?_, hid⟩
  have hrefused : ¬((resolveRequest candidate).apiVersion ≠ .v1 ∨ (resolveRequest candidate).keyId = "" ∨
      maxKeyIdBytes < (resolveRequest candidate).keyId.utf8ByteSize ∨
      maxAgentUrlBytes < (resolveRequest candidate).agentUrl.utf8ByteSize) := by
    rintro (hv | hk | hk | hu)
    · exact hv rfl
    · exact h.keyId_ne hk
    · exact Nat.not_lt.2 h.keyId_size hk
    · exact Nat.not_lt.2 h.url_size hu
  rw [validateRequest, if_neg hrefused]
  simp only [resolveRequest, htarget]
  rfl

theorem mem_calls_recordDuration (host : Host) {envoy : Envoy} {call : EnvoyCall} (h : call ∈ envoy.calls)
    (histogram : Option Nat) (phase result : String) (startedAt : Nat) :
    call ∈ (recordDuration host envoy histogram phase result startedAt).calls := by
  unfold recordDuration
  cases histogram with
  | none => exact h
  | some histogram => exact List.mem_append_left _ h

theorem mem_calls_finish (filter : WebBotAuthFilter Verifier) {envoy : Envoy} {call : EnvoyCall} (h : call ∈ envoy.calls)
    (result : VerificationResult) : call ∈ (filter.finish envoy result).2.2.calls := by
  have hrecord : call ∈ (recordOutcome filter.outcomeCounter result (envoy.call (.applyResult result))).calls := by
    unfold recordOutcome
    cases filter.outcomeCounter <;> cases result.identity <;> simp [Envoy.call, h]
  have hforward : call ∈ (forwardIdentity filter.settings result
      (recordOutcome filter.outcomeCounter result (envoy.call (.applyResult result)))).calls := by
    unfold forwardIdentity
    cases filter.settings.forwardIdentityHeaders <;> cases result.identity <;> exact hrecord
  rw [finish_eq, WebBotAuthFilter.applyResult]
  cases admission filter.settings.mode result with
  | allow => exact hforward
  | reject status challenge => exact List.mem_append_left _ hforward

/-- The callout with the body is made. -/
theorem sendResolve_sends (host : Host) (filter : WebBotAuthFilter Verifier) (envoy : Envoy)
    {candidate : VerificationCandidate Verifier} {body : Bytes}
    (hbody : wire.requestToVec (resolveRequest candidate) = some body) (hfits : body.length ≤ maxResolveBodyBytes) :
    .sendHttpCallout filter.settings.resolver.cluster calloutHeaders body filter.settings.resolver.timeoutMs ∈
      (filter.sendResolve wire host envoy candidate).2.2.calls := by
  unfold WebBotAuthFilter.sendResolve
  simp only [resolveRequest] at hbody
  simp only [hbody]
  rw [if_neg (Nat.not_lt.2 hfits)]
  have hcall : ∀ e : Envoy, EnvoyCall.sendHttpCallout filter.settings.resolver.cluster calloutHeaders body
      filter.settings.resolver.timeoutMs ∈ (e.call (.sendHttpCallout filter.settings.resolver.cluster calloutHeaders body
        filter.settings.resolver.timeoutMs)).calls := fun e => List.mem_append_right _ (List.mem_singleton_self _)
  split
  · apply mem_calls_finish
    apply mem_calls_recordDuration
    apply mem_calls_recordDuration
    exact hcall _
  · apply mem_calls_recordDuration
    exact hcall _

/-! ## The answer -/

theorem joinResponseBody_eq {chunks : List Bytes} {body : Bytes} (h : joinResponseBody chunks = some body) :
    body = chunks.flatten := by
  simp only [joinResponseBody, Option.bind_eq_bind, Option.bind_eq_some_iff] at h
  obtain ⟨length, -, h⟩ := h
  split at h
  · cases h
  · exact (Option.some.inj h).symm

/-- What the module reads in the body of a response is the response. -/
theorem resolverResponse_of_written (hw : wire.Exact) {done : CalloutDone} {response read : ResolveResponse} {body : Bytes}
    (hdone : done.responseBody.map List.flatten = some body) (hbody : wire.responseToVec response = some body)
    (h : resolverResponse wire done = .ok read) : read = response := by
  unfold resolverResponse at h
  split at h
  · cases h
  · rw [okOr_ok, Option.bind_eq_some_iff] at h
    obtain ⟨joined, hjoin, hread⟩ := h
    obtain ⟨chunks, hchunks, hjoin⟩ := Option.bind_eq_some_iff.1 hjoin
    rw [hchunks] at hdone
    obtain rfl := Option.some.inj hdone
    rw [joinResponseBody_eq hjoin, hw.response response _ hbody] at hread
    exact (Option.some.inj hread).symm

/-- The identifier of a response. -/
def identifierOf : ResolveResponse → String
  | .resolved identifier _ => identifier
  | .keyNotFound identifier => identifier

theorem verify_identifier {candidate : VerificationCandidate Verifier} {response : ResolveResponse}
    (h : identifierOf response = candidate.normalizedIdentifier) :
    verifyResolverResponse wba candidate (.ok response) ≠ .unverified .unavailable .resolverIdentifier := by
  unfold verifyResolverResponse
  cases response with
  | keyNotFound identifier =>
    obtain rfl : identifier = _ := h
    simp
  | resolved identifier jwk =>
    obtain rfl : identifier = _ := h
    simp only [ne_eq, not_true_eq_false, if_false]
    split
    · simp
    · split
      · simp
      · split <;> simp

/-- Each answer of a resolver has the identifier of its target. -/
theorem respondedBy_identifier {P L : Type} {s : ResolverService P L} {given : ResourceKey → Representation P → Prop}
    {request : ResolveRequest} {response : ResolveResponse} {target : DiscoveryTarget}
    (hv : validateRequest s.crates.resource.url request = .ok target) (h : RespondedBy s given request response) :
    identifierOf response = target.normalizedIdentifier := by
  obtain ⟨target', hv', ⟨-, -, rfl⟩ | ⟨keys, -, rfl⟩⟩ := h
  · obtain rfl := Except.ok.inj (hv.symm.trans hv')
    rfl
  · obtain rfl := Except.ok.inj (hv.symm.trans hv')
    unfold respond
    split <;> rfl

/-- What the module asks for a candidate is sent, fits, is read as it was
written and passes the resolver's checks; and no answer of a resolver is turned
down for its identifier. -/
theorem module_and_resolver_agree (hp : PrintableStrings sfv wba) (hw : wire.Exact) {request : RequestComponents}
    {acceptLegacy : Bool} {required : List String} {now : Int64} {maxLifetime clockSkew : UInt64}
    {candidate : VerificationCandidate Verifier}
    (h : VerificationCandidate.parse sfv wba c request acceptLegacy required now maxLifetime clockSkew = .ok candidate) :
    (∃ body, wire.requestToVec (resolveRequest candidate) = some body ∧ body.length ≤ maxResolveBodyBytes ∧
      body.length ≤ Limits.standard.inboundBodyBytes ∧
      wire.requestFromSlice body = some (resolveRequest candidate) ∧
      ∀ (host : Host) (filter : WebBotAuthFilter Verifier) (envoy : Envoy),
        .sendHttpCallout filter.settings.resolver.cluster calloutHeaders body filter.settings.resolver.timeoutMs ∈
          (filter.sendResolve wire host envoy candidate).2.2.calls) ∧
    (∃ target, validateRequest c (resolveRequest candidate) = .ok target ∧
      target.normalizedIdentifier = candidate.normalizedIdentifier) ∧
    ∀ (P L : Type) (s : ResolverService P L) (state : ResolverState P L), s.crates.resource.url = c → Reached s state →
      ∀ t response older done body,
        (.returned t (.resolve (resolveRequest candidate)) (.response (.ok response)) :: older) <:+ state.log →
        wire.responseToVec response = some body → done.responseBody.map List.flatten = some body →
        verifyResolverResponse wba candidate (resolverResponse wire done) ≠
          .unverified .unavailable .resolverIdentifier := by
  have hask := askable_of_parse hp h
  obtain ⟨body, hbody, hfits, hadmits, hread⟩ := hask.body hw
  obtain ⟨target, hv, hid⟩ := hask.validated
  refine ⟨⟨body, hbody, hfits, hadmits, hread, fun host filter envoy => sendResolve_sends host filter envoy hbody hfits⟩,
    ⟨target, hv, hid⟩, ?_⟩
  rintro P L s state rfl hreached t response older done body hl hwritten hdone
  cases hr : resolverResponse wire done with
  | error reason =>
    intro he
    obtain rfl : reason = .resolverIdentifier := by simpa [verifyResolverResponse] using he
    unfold resolverResponse at hr
    split at hr
    · cases hr
    · cases hb : (done.responseBody.bind joinResponseBody).bind wire.responseFromSlice with
      | none =>
        rw [hb] at hr
        cases hr
      | some read =>
        rw [hb] at hr
        cases hr
  | ok read =>
    obtain rfl := resolverResponse_of_written hw hdone hwritten hr
    exact verify_identifier ((respondedBy_identifier hv (hreached.resolve_gives hl)).trans hid)

theorem sample_printableStrings : PrintableStrings sampleSfv sampleWba where
  member line d key item text hd hg hs := by
    obtain rfl := sampleSfv_lawful.wellFormed line d key item hd hg
    obtain rfl := BareItem.string.inj hs
    decide
  item line item text hi hs := by
    simp only [sampleSfv] at hi
    split at hi
    · obtain rfl := Option.some.inj hi
      obtain rfl := BareItem.string.inj hs
      decide
    · cases hi
  keyId message verifier id hparse hid := by
    obtain ⟨authority, agent, -, -, rfl⟩ := sampleWba_parse hparse
    obtain rfl := Option.some.inj hid
    decide

theorem module_and_resolver_agree_sample :
    (∃ body, Protocol.sampleWire.requestToVec (resolveRequest sampleCandidate) = some body ∧ body.length ≤ maxResolveBodyBytes ∧
      Protocol.sampleWire.requestFromSlice body = some (resolveRequest sampleCandidate)) ∧
    ∃ target, validateRequest sampleUrls (resolveRequest sampleCandidate) = .ok target ∧
      target.normalizedIdentifier = sampleCandidate.normalizedIdentifier := by
  obtain ⟨⟨body, hbody, hfits, -, hread, -⟩, htarget, -⟩ :=
    module_and_resolver_agree sample_printableStrings sampleWire_exact sampleRequest_parse
  exact ⟨⟨body, hbody, hfits, hread⟩, htarget⟩

end EnvoyWebBotAuth.Contract
