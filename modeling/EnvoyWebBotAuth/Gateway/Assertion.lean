import EnvoyWebBotAuth.Gateway.Agent
import EnvoyWebBotAuth.Gateway.Decision
import EnvoyWebBotAuth.Protocol.WireText
/-!
# Assertion headers

The three headers the filter asserts an identity with. It drops what a client
put there before it reads anything, so two requests that differ only there are
one request to it; and only a verified result writes an identity upstream.
-/
open EnvoyWebBotAuth.Lib EnvoyWebBotAuth.Protocol

namespace EnvoyWebBotAuth.Gateway

variable {Verifier KeyRing : Type}

/-- Neither identity header is there, or both have the verified values. -/
def IdentityAsserted (headers : HeaderMap Bytes) (applied : List VerificationResult) : Prop :=
  (headers.getAll headerIdentity = [] ∧ headers.getAll headerKeyId = []) ∨
  ∃ id, applied = [.verified id] ∧ headers.getAll headerIdentity = [id.identifier.toUTF8.toList] ∧
    headers.getAll headerKeyId = [id.keyId.toUTF8.toList]

theorem sanitized_identity (headers : HeaderMap Bytes) (applied : List VerificationResult) :
    IdentityAsserted (headers.without assertionHeaders) applied :=
  .inl ⟨HeaderMap.getAll_without_of_mem headers (by decide), HeaderMap.getAll_without_of_mem headers (by decide)⟩

theorem asserted_identity (settings : Settings) (result : VerificationResult) (headers : HeaderMap Bytes) :
    IdentityAsserted (assertedHeaders settings result (headers.without assertionHeaders)) [result] := by
  have hi : (headers.without assertionHeaders).getAll headerIdentity = [] :=
    HeaderMap.getAll_without_of_mem headers (by decide)
  have hk : (headers.without assertionHeaders).getAll headerKeyId = [] :=
    HeaderMap.getAll_without_of_mem headers (by decide)
  unfold assertedHeaders forwardIdentity
  cases settings.forwardIdentityHeaders with
  | false => exact .inl ⟨hi, hk⟩
  | true =>
    simp only [if_true, Envoy.setRequestHeader]
    cases hid : result.identity with
    | none =>
      refine .inl ⟨?_, ?_⟩
      · rw [HeaderMap.getAll_set_ne _ _ (by decide), hi]
      · rw [HeaderMap.getAll_set_ne _ _ (by decide), hk]
    | some id =>
      refine .inr ⟨id, by rw [VerificationResult.identity_eq_some.1 hid], ?_, ?_⟩
      · rw [HeaderMap.getAll_set_ne _ _ (by decide), HeaderMap.getAll_set_self]
      · rw [HeaderMap.getAll_set_self]

variable (sfv : Sfv) (wba : WebBotAuth Verifier KeyRing) (c : UrlCrate) (wire : WireJson) (host : Host)

theorem onRequestHeaders_sanitized (filter : WebBotAuthFilter Verifier) {headers headers' : HeaderMap Bytes}
    (h : headers.without assertionHeaders = headers'.without assertionHeaders) (endOfStream : Bool) :
    filter.onRequestHeaders sfv wba c wire host ⟨headers, [], 0⟩ endOfStream =
      filter.onRequestHeaders sfv wba c wire host ⟨headers', [], 0⟩ endOfStream := by
  unfold WebBotAuthFilter.onRequestHeaders
  simp only [sanitize_eq, h]

/-! ## A sample run -/

def sampleHeaders : HeaderMap Bytes :=
  [(":method", "GET"), (":authority", "example.test"), (":scheme", "https"), (":path", "/"),
   ("signature", sampleSignatureLine), ("signature-input", sampleInputLine), ("signature-agent", sampleMemberLine)].map
    fun line => (line.1, line.2.toUTF8.toList)

def sampleJwk : Ed25519Jwk := ⟨"JrQLj5P_89iXES9-vFgrIy29clF9CC_oPPsw3c5D0bs"⟩

def publishedResponse : ResolveResponse := .resolved sampleCandidate.normalizedIdentifier sampleJwk

def publishedBody : Bytes :=
  asciiBytes ("\x7b\"result\":\"resolved\",\"normalized_identifier\":\"" ++ sampleCandidate.normalizedIdentifier ++
    "\",\"jwk\":\x7b\"kty\":\"OKP\",\"crv\":\"Ed25519\",\"x\":\"" ++ sampleJwk.x ++ "\"\x7d\x7d").toList

/-- The sample codec, with the response the sample candidate is verified by. -/
def publishedWire : WireJson :=
  { sampleWire with
    responseToVec := fun response => if response = publishedResponse then some publishedBody else none
    responseFromSlice := fun body => if body = publishedBody then some publishedResponse else none }

def sampleHost : Host where
  systemTime := 1735690000
  instant n := 1000 * n
  sendHttpCallout _ _ _ _ := (.success, 7)

def sampleDone : CalloutDone where
  calloutId := 7
  result := .success
  responseHeaders := some [(":status".toUTF8.toList, "200".toUTF8.toList)]
  responseBody := some [publishedBody]

def sampleSettings : Settings := { requiredComponents := ["@authority"] }

/-! ## Two requests -/

/-- Two requests that differ only in the assertion headers have the same run:
the same status, state, calls and upstream headers. Upstream an identity is the
one that was verified. -/
theorem assertion_headers_ignored (settings : Settings) (outcomeCounter durationHistogram : Option Nat)
    (headers : HeaderMap Bytes) (endOfStream : Bool) (callouts : List CalloutDone) :
    let filter : WebBotAuthFilter Verifier := .new settings outcomeCounter durationHistogram
    let out := filter.run sfv wba c wire host headers endOfStream callouts
    (∀ headers' : HeaderMap Bytes, headers.without assertionHeaders = headers'.without assertionHeaders →
      out = filter.run sfv wba c wire host headers' endOfStream callouts) ∧
    IdentityAsserted out.envoy.headers out.envoy.applied := by
  intro filter out
  refine ⟨?_, ?_⟩
  · intro headers' h
    simp only [out, WebBotAuthFilter.run, onRequestHeaders_sanitized sfv wba c wire host filter h]
  · rcases run_cases sfv wba c wire host filter rfl headers endOfStream callouts with
      ⟨result, hr⟩ | ⟨-, -, -, ⟨-, hr⟩ | ⟨_, _, result, -, hr, -⟩⟩
    · rw [hr.applied, hr.upstream]
      exact asserted_identity settings result headers
    · rw [hr.upstream]
      exact sanitized_identity headers _
    · rw [hr.applied, hr.upstream]
      exact asserted_identity settings result headers

theorem assertion_headers_ignored_sample :
    let filter : WebBotAuthFilter ParsedLabel := .new sampleSettings none none
    filter.run sampleSfv sampleWba sampleUrls publishedWire sampleHost sampleHeaders true [sampleDone] =
      filter.run sampleSfv sampleWba sampleUrls publishedWire sampleHost
        (sampleHeaders ++ [(headerIdentity, [109]), (headerKeyId, [110]), (headerKeyId, [])]) true [sampleDone] :=
  (assertion_headers_ignored sampleSfv sampleWba sampleUrls publishedWire sampleHost sampleSettings none none
    sampleHeaders true [sampleDone]).1 _ (by decide +kernel)

end EnvoyWebBotAuth.Gateway
