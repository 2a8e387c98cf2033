import EnvoyWebBotAuth.Contract.KeySelection
import EnvoyWebBotAuth.Gateway.Soundness
import EnvoyWebBotAuth.Resolver.Destination
import EnvoyWebBotAuth.Resolver.Keys
import EnvoyWebBotAuth.Resolver.Provenance
import EnvoyWebBotAuth.Resolver.Server
/-!
# The module with its resolver

A filter whose callouts are served by a resolver in a run. `verified_key_was_published`
follows a verified identity back to where its key was published: through the
answer the filter read, the resolve call it is of, and the fetches of that run.
`resolution_decides` says what the filter makes of each way a resolve call ends.
-/
open EnvoyWebBotAuth.Lib EnvoyWebBotAuth.Protocol EnvoyWebBotAuth.Gateway EnvoyWebBotAuth.Resolver

namespace EnvoyWebBotAuth.Contract

variable {Verifier KeyRing P L : Type}

/-! ## Callouts -/

/-- The HTTP request Envoy makes of a callout. -/
def calloutRequest (headers : List (String × String)) (body : Bytes) : HttpRequest where
  method :=
    match headers.lookup ":method" with
    | some "GET" => .get
    | some "HEAD" => .head
    | some "POST" => .post
    | _ => .other
  path := (headers.lookup ":path").getD ""
  contentType := headers.lookup "content-type"
  body := body

/-- A callback brings a response as it was sent. -/
structure Carries (response : HttpResponse) (done : CalloutDone) : Prop where
  status : (responseStatus done.responseHeaders).map UInt32.toNat = some response.status
  body : done.responseBody.map List.flatten = some response.body

/-- A callback that brings a response brings what the resolver serves for the
callout that was made. -/
def Served (json : JsonBody) (wire : WireJson) (s : ResolverService P L) (log : Log P) (asked : Envoy)
    (done : CalloutDone) : Prop :=
  done.result = .success → ∀ cluster headers body timeoutMs,
    .sendHttpCallout cluster headers body timeoutMs ∈ asked.calls →
    ∃ response, Serves json wire s log (calloutRequest headers body) response ∧ Carries response done

theorem calloutRequest_routed {json : JsonBody} {wire : WireJson} (hj : json.Lawful wire) (s : ResolverService P L)
    {body : Bytes} {request : ResolveRequest} (hlimit : body.length ≤ s.limits.inboundBodyBytes)
    (hread : wire.requestFromSlice body = some request) :
    router json s (calloutRequest calloutHeaders body) = .resolve request := by
  have hextract : json.extract s.limits.inboundBodyBytes (calloutRequest calloutHeaders body) = .ok request :=
    hj.accepts _ _ _ rfl hlimit hread
  have hmethod : (calloutRequest calloutHeaders body).method = .post := rfl
  have hpath : (calloutRequest calloutHeaders body).path = "/v1/resolve" := rfl
  simp only [router, if_pos hpath, hmethod, hextract]

section Filter

variable {sfv : Sfv} {wba : WebBotAuth Verifier KeyRing} {c : UrlCrate} {wire : WireJson} {host : Host}
  {filter : WebBotAuthFilter Verifier} {headers : HeaderMap Bytes} {endOfStream : Bool} {request : RequestComponents}
  {candidate : VerificationCandidate Verifier}

/-- A request with a candidate gets as far as the callout. -/
theorem onRequestHeaders_ready
    (h : Ready sfv wba c host filter (headers.without assertionHeaders) endOfStream request candidate) :
    ∃ e, filter.onRequestHeaders sfv wba c wire host ⟨headers, [], 0⟩ endOfStream =
      filter.sendResolve wire host e candidate := by
  have hfirst : ∀ name ∈ [headerSignature, headerSignatureInput, headerSignatureAgent],
      ((headers.without assertionHeaders).getFirst name).isSome := fun name hn =>
    HeaderMap.getFirst_isSome_iff.2 (h.present name hn)
  simp only [List.forall_mem_cons] at hfirst
  obtain ⟨hs, hi, ha, -⟩ := hfirst
  unfold WebBotAuthFilter.onRequestHeaders
  simp only [sanitize_eq, hs, hi, ha, classifySignatureHeaders, h.ended, Bool.not_true, Bool.false_eq_true, if_false]
  unfold WebBotAuthFilter.onCandidate
  simp only [Envoy.now, h.captured, h.parsed]
  exact ⟨_, rfl⟩

/-- The callout for a candidate is made. -/
theorem callout_made (hp : PrintableStrings sfv wba) (hw : wire.Exact)
    (h : Ready sfv wba c host filter (headers.without assertionHeaders) endOfStream request candidate) :
    ∃ body, wire.requestFromSlice body = some (resolveRequest candidate) ∧ body.length ≤ maxResolveBodyBytes ∧
      .sendHttpCallout filter.settings.resolver.cluster calloutHeaders body filter.settings.resolver.timeoutMs ∈
        (filter.run sfv wba c wire host headers endOfStream []).envoy.calls := by
  obtain ⟨body, hbody, hfits, -, hread⟩ := (askable_of_parse hp h.parsed).body hw
  refine ⟨body, hread, hfits, ?_⟩
  have hsends : ∃ e, filter.onRequestHeaders sfv wba c wire host ⟨headers, [], 0⟩ endOfStream =
      filter.sendResolve wire host e candidate := onRequestHeaders_ready h
  obtain ⟨e, he⟩ := hsends
  unfold WebBotAuthFilter.run
  simp only [he, onCallouts, List.foldl_nil]
  exact sendResolve_sends host filter e hbody hfits

/-- With a candidate pending, only its response is verified. -/
theorem verified_callback {settings : Settings} {outcomeCounter durationHistogram : Option Nat}
    {callouts : List CalloutDone} {id : VerifiedIdentity}
    (h : .applyResult (.verified id) ∈ ((WebBotAuthFilter.new settings outcomeCounter durationHistogram).run
      sfv wba c wire host headers endOfStream callouts).envoy.calls) :
    ∃ done rest request candidate, callouts = done :: rest ∧
      Ready sfv wba c host (.new settings outcomeCounter durationHistogram) (headers.without assertionHeaders)
        endOfStream request candidate ∧
      verifyResolverResponse wba candidate (resolverResponse wire done) = .verified id := by
  have happlied := mem_applied h
  rcases run_cases sfv wba c wire host (.new settings outcomeCounter durationHistogram) rfl headers endOfStream
      callouts with ⟨result, hr⟩ | ⟨request, candidate, hready, ⟨-, hr⟩ | ⟨done, rest, result, rfl, hr, hver⟩⟩
  · rw [hr.applied, List.mem_singleton] at happlied
    exact absurd happlied.symm (hr.result_ne id)
  · rw [hr.applied] at happlied
    cases happlied
  · rw [hr.applied, List.mem_singleton] at happlied
    exact ⟨done, rest, request, candidate, rfl, hready, hver id happlied.symm⟩

end Filter

/-! ## What an answer is to the filter -/

/-- The sum of the chunks is checked, but nothing so long is a body. -/
theorem foldlM_checkedAdd (chunks : List Bytes) (n : Nat) :
    chunks.foldlM (fun length chunk => checkedAddUsize length chunk.length) n =
      if chunks = [] ∨ n + chunks.flatten.length < 2 ^ 64 then some (n + chunks.flatten.length) else none := by
  induction chunks generalizing n with
  | nil => rfl
  | cons chunk chunks ih =>
    rw [List.foldlM_cons, checkedAddUsize, List.flatten_cons, List.length_append]
    split
    · rename_i hlt
      simp only [Option.bind_eq_bind, Option.bind_some, ih, reduceCtorEq, false_or]
      cases chunks with
      | nil => simpa using hlt
      | cons next chunks => simp [Nat.add_assoc]
    · rename_i hge
      simp only [Option.bind_eq_bind, Option.bind_none, reduceCtorEq, false_or]
      rw [if_neg (by omega)]

theorem joinResponseBody_eq_ite (chunks : List Bytes) :
    joinResponseBody chunks = if maxResolveBodyBytes < chunks.flatten.length then none else some chunks.flatten := by
  have hmax : maxResolveBodyBytes < 2 ^ 64 := by decide
  unfold joinResponseBody
  rw [foldlM_checkedAdd, Nat.zero_add]
  split
  · rfl
  · rename_i hlong
    rw [not_or] at hlong
    simp only [Option.bind_eq_bind, Option.bind_none]
    rw [if_pos (by omega)]

/-- What a filter makes of the end of the resolve call for its candidate. -/
def resultOf (wba : WebBotAuth Verifier KeyRing) (wire : WireJson) (candidate : VerificationCandidate Verifier) :
    Except FetchError ResolveResponse → VerificationResult
  | .error _ => .unverified .unavailable .resolverUnavailable
  | .ok response =>
    match wire.responseToVec response with
    | none => .unverified .unavailable .resolverUnavailable
    | some body =>
      if maxResolveBodyBytes < body.length then .unverified .unavailable .resolverResponse
      else verifyResolverResponse wba candidate (.ok response)

/-- The response to a call, read by the module. -/
theorem verify_resolutionResponse (wba : WebBotAuth Verifier KeyRing) {wire : WireJson} (hw : wire.Exact)
    (candidate : VerificationCandidate Verifier) (result : Except FetchError ResolveResponse) {done : CalloutDone}
    (hok : done.result = .success) (hc : Carries (resolutionResponse wire result) done) :
    verifyResolverResponse wba candidate (resolverResponse wire done) = resultOf wba wire candidate result := by
  -- a status other than 200 is no response
  have hfailed : (resolutionResponse wire result).status ≠ 200 →
      resolverResponse wire done = .error .resolverUnavailable := by
    intro hne
    unfold resolverResponse
    rw [if_pos]
    right
    intro hs
    have hstatus := hc.status
    rw [hs] at hstatus
    exact hne (Option.some.inj hstatus).symm
  cases result with
  | error error =>
    have hstatus : (resolutionResponse wire (.error error)).status ≠ 200 := by
      simp only [resolutionResponse]
      split <;> simp
    rw [hfailed hstatus]
    rfl
  | ok response =>
    cases hbody : wire.responseToVec response with
    | none =>
      have hstatus : (resolutionResponse wire (.ok response)).status ≠ 200 := by
        simp only [resolutionResponse, hbody]
        decide
      simp only [hfailed hstatus, resultOf, hbody]
      rfl
    | some body =>
      have hresponse : resolutionResponse wire (.ok response) = ⟨200, body⟩ := by
        simp only [resolutionResponse, hbody]
      rw [hresponse] at hc
      have hstatus : responseStatus done.responseHeaders = some 200 := by
        obtain ⟨status, hs, hn⟩ := Option.map_eq_some_iff.1 hc.status
        rw [hs, ← UInt32.toNat_inj.1 (show status.toNat = (200 : UInt32).toNat from hn)]
      obtain ⟨chunks, hchunks, hflat⟩ := Option.map_eq_some_iff.1 hc.body
      simp only at hflat
      unfold resolverResponse
      rw [if_neg (by simp [hok, hstatus]), hchunks, Option.bind_some, joinResponseBody_eq_ite, hflat]
      simp only [resultOf, hbody]
      split
      · rfl
      · rw [Option.bind_some, hw.response response body hbody]
        rfl

/-- A callback that answers the callout applies what its response verifies to. -/
theorem onHttpCalloutDone_matched (wba : WebBotAuth Verifier KeyRing) (wire : WireJson) (host : Host)
    (filter : WebBotAuthFilter Verifier) {pending : PendingVerification Verifier} (h : filter.pending = some pending)
    (e : Envoy) {done : CalloutDone} (hid : done.calloutId = pending.calloutId) :
    ∃ e', Quiet e e' ∧ filter.onHttpCalloutDone wba wire host e done =
      ({ filter with pending := none }, { filter with pending := none : WebBotAuthFilter Verifier }.resume e'
        (verifyResolverResponse wba pending.candidate (resolverResponse wire done))) := by
  have hrec := quiet_recordDuration host e filter.durationHistogram "resolver_callout"
  unfold WebBotAuthFilter.onHttpCalloutDone
  simp only [h, hid, ne_eq, not_true_eq_false, if_false]
  exact ⟨_, ((hrec _ _).trans (quiet_now host _)).trans (quiet_recordDuration ..), rfl⟩

/-- A filter that waits has decided nothing, and waits for its candidate. -/
theorem waiting_ready (sfv : Sfv) (wba : WebBotAuth Verifier KeyRing) (c : UrlCrate) (wire : WireJson) (host : Host)
    (filter : WebBotAuthFilter Verifier) (hnone : filter.pending = none) {headers : HeaderMap Bytes} {endOfStream : Bool}
    {pending : PendingVerification Verifier}
    (h : (filter.run sfv wba c wire host headers endOfStream []).filter.pending = some pending) :
    (filter.run sfv wba c wire host headers endOfStream []).filter = { filter with pending := some pending } ∧
    (filter.run sfv wba c wire host headers endOfStream []).envoy.decisions = [] ∧
    ∃ request, Ready sfv wba c host filter (headers.without assertionHeaders) endOfStream request pending.candidate := by
  have hcases := onRequestHeaders_cases sfv wba c wire host filter ⟨headers, [], 0⟩ endOfStream
  unfold WebBotAuthFilter.run at h ⊢
  rw [sanitize_eq] at hcases
  rcases hcases with ⟨result, e', -, -, heq⟩ | ⟨request, candidate, hready, id, started, e', ⟨-, hd⟩, heq⟩
  · rw [finish_eq] at heq
    simp only [heq, onCallouts, List.foldl_nil, hnone, reduceCtorEq] at h
  · simp only [heq, onCallouts, List.foldl_nil, Option.some.injEq] at h ⊢
    subst h
    exact ⟨rfl, hd, request, hready⟩

/-! ## A sample deployment -/

theorem publishedWire_exact : publishedWire.Exact where
  writes := sampleWire_exact.writes
  reads := sampleWire_exact.reads
  response response body h := by
    simp only [publishedWire] at h ⊢
    split at h
    · rename_i hr
      obtain rfl := Option.some.inj h
      rw [if_pos rfl, hr]
    · cases h

theorem sampleKeys_printableStrings : PrintableStrings sampleSfv wbaAtSampleKeys where
  member := sample_printableStrings.member
  item := sample_printableStrings.item
  keyId := sample_printableStrings.keyId

theorem publishedResponse_written : resolutionResponse publishedWire (.ok publishedResponse) = ⟨200, publishedBody⟩ := by
  simp only [resolutionResponse, publishedWire, if_pos]

def publishedDone : CalloutDone where
  calloutId := 7
  result := .success
  responseHeaders := some [(":status".toUTF8.toList, "200".toUTF8.toList)]
  responseBody := some [publishedBody.take 20, publishedBody.drop 20]

/-- The call asks about the sample candidate, if it is a callout. -/
def asksSample : EnvoyCall → Bool
  | .sendHttpCallout _ headers body _ => headers = calloutHeaders ∧ body.length ≤ 8 * 1024 ∧
      publishedWire.requestFromSlice body = some (resolveRequest sampleCandidate)
  | _ => true

/-- The sample request, after the header callback. -/
def sampleFirst : Outcome ParsedLabel :=
  (WebBotAuthFilter.new sampleSettings none none).run sampleSfv wbaAtSampleKeys sampleUrls publishedWire sampleHost
    sampleHeaders true []

theorem sampleFirst_waits :
    sampleFirst.filter.pending.map (fun pending => (pending.calloutId, pending.candidate)) = some (7, sampleCandidate) ∧
      sampleFirst.envoy.calls.all asksSample = true := by
  have h : (fun out : Outcome ParsedLabel => (out.filter.pending.map (fun pending => (pending.calloutId, pending.candidate)),
      out.envoy.calls.all asksSample)) sampleFirst = (some (7, sampleCandidate), true) := by decide +kernel
  exact Prod.mk.inj h

theorem publishedDone_carries : Carries ⟨200, publishedBody⟩ publishedDone where
  status := by decide +kernel
  body := by simp [publishedDone]

/-- The sample run, whose response the sample callback brings. -/
theorem publishing_serves : ∃ (state : ResolverState SamplePolicy Unit), Reached publishingService state ∧
    ByClient (fun _ => none) state.log ∧
    Served (sampleJson publishedWire) publishedWire publishingService state.log sampleFirst.envoy publishedDone := by
  have hrun : (publishingService.system.run (System.start (World.start publishingService 0 0)) publishing).map
      (fun state => (state.log.all bySampleClient, state.log.head?.bind respondedOf)) =
        some (true, some (1, resolveRequest sampleCandidate, publishedResponse)) := by decide +kernel
  obtain ⟨state, hrun, hstate⟩ := Option.map_eq_some_iff.1 hrun
  obtain ⟨hall, hhead⟩ := Prod.mk.inj hstate
  obtain ⟨e, hfirst, he⟩ := Option.bind_eq_some_iff.1 hhead
  obtain rfl := respondedOf_eq he
  obtain ⟨older, hl⟩ := List.head?_eq_some_iff.1 hfirst
  refine ⟨state, ⟨0, 0, System.Reachable.start.run _ publishing hrun⟩, byClient_of_all hall, ?_⟩
  intro _ cluster headers body timeoutMs hcall
  have hasks := List.all_eq_true.1 sampleFirst_waits.2 _ hcall
  simp only [asksSample, decide_eq_true_eq] at hasks
  obtain ⟨rfl, hfits, hread⟩ := hasks
  refine ⟨⟨200, publishedBody⟩, ?_, publishedDone_carries⟩
  rw [← publishedResponse_written]
  exact .resolved _ _ (calloutRequest_routed (sampleJson_lawful publishedWire) publishingService hfits hread)
    ⟨1, .inl ⟨older, hl ▸ List.suffix_refl _⟩⟩

theorem sampleFirst_pending : ∃ pending, sampleFirst.filter.pending = some pending ∧ pending.calloutId = 7 ∧
    pending.candidate = sampleCandidate := by
  obtain ⟨pending, hpending, he⟩ := Option.map_eq_some_iff.1 sampleFirst_waits.1
  exact ⟨pending, hpending, Prod.mk.inj he⟩

/-- The sample callback verifies the sample candidate. -/
theorem publishedDone_verified :
    .applyResult (.verified ⟨sampleCandidate.normalizedIdentifier, sampleKeyId⟩) ∈
      ((WebBotAuthFilter.new sampleSettings none none).run sampleSfv wbaAtSampleKeys sampleUrls publishedWire sampleHost
        sampleHeaders true [publishedDone]).envoy.calls := by
  obtain ⟨pending, hpending, hid, hcandidate⟩ := sampleFirst_pending
  obtain ⟨e', -, hdone⟩ := onHttpCalloutDone_matched wbaAtSampleKeys publishedWire sampleHost _ hpending sampleFirst.envoy
    (show publishedDone.calloutId = pending.calloutId from hid.symm)
  have hresult : resultOf wbaAtSampleKeys publishedWire sampleCandidate (.ok publishedResponse) =
      .verified ⟨sampleCandidate.normalizedIdentifier, sampleKeyId⟩ := by decide +kernel
  rw [run_eq sampleSfv wbaAtSampleKeys sampleUrls publishedWire sampleHost sampleFirst rfl, onCallouts_cons, hdone,
    hcandidate, verify_resolutionResponse wbaAtSampleKeys publishedWire_exact sampleCandidate (.ok publishedResponse) rfl
      (publishedResponse_written ▸ publishedDone_carries), hresult]
  apply List.mem_of_mem_filter
  show _ ∈ Envoy.decisions _
  rw [resume_decisions]
  exact List.mem_append_right _ List.mem_cons_self

/-! ## Back to the origin -/

/-- A resource that a checked fetch brought. -/
def Fetched (s : ResolverService P L) (log : Log P) (key : ResourceKey) (resource : ParsedResource) : Prop :=
  ∃ t fetch response older, (.did t (.fetch fetch) (.ok response) :: older) <:+ log ∧ fetch.url = key.url ∧
    fetch.kind = key.kind ∧ response.status = 200 ∧ CheckedFetch s t fetch older ∧
    parseResource s.crates.resource key.kind key.url response.body s.limits.maxKeys = .ok resource

/-- The key of an identity is one the agent of a candidate publishes: it is in a
key set the resolver got to from the URL that was signed, by fetches it checked. -/
structure PublishedFor (s : ResolverService P L) (log : Log P) (candidate : VerificationCandidate Verifier)
    (id : VerifiedIdentity) (jwk : Ed25519Jwk) : Prop where
  keys : ∃ target keys, parseDiscoveryTarget s.crates.resource.url candidate.signedUrl candidate.discovery = .ok target ∧
    id.identifier = target.normalizedIdentifier ∧
    KeysFrom (fun key (r : Representation P) => Fetched s log key r.resource) (resolveRequest candidate) target keys ∧
    ∃ entry ∈ keys, entry.jwk = jwk
  thumbprint : id.keyId = jwk.b64Thumbprint s.crates.resource.digest
  notTest : s.allowTestKeys = false → knownTestKey id.keyId = false

theorem fetched_of_provenance {s : ResolverService P L} {state : ResolverState P L} (h : Reached s state) {log : Log P}
    (hl : log <:+ state.log) {key : ResourceKey} {resource : ParsedResource} (hp : Provenance s log key resource) :
    Fetched s log key resource := by
  obtain ⟨t, fetch, response, hm, hu, hk, hok, hparse, -⟩ := hp.parsed
  obtain ⟨newer, older, rfl⟩ := List.append_of_mem hm
  have hf : (.did t (.fetch fetch) (.ok response) :: older) <:+ newer ++ .did t (.fetch fetch) (.ok response) :: older :=
    List.suffix_append _ _
  obtain ⟨later, hlater⟩ := hf.trans hl
  obtain ⟨⟨k, key', request, previous, now, hfetching⟩, -, -⟩ := h.holds.good.did hlater.symm
  exact ⟨t, fetch, response, older, hf, hu, hk, hok, hfetching.checked, hparse⟩

section Served

variable {sfv : Sfv} {wba : WebBotAuth Verifier KeyRing} {wire : WireJson} {host : Host} {json : JsonBody}
  {s : ResolverService P L} {state : ResolverState P L} {filter : WebBotAuthFilter Verifier} {headers : HeaderMap Bytes}
  {endOfStream : Bool} {request : RequestComponents} {candidate : VerificationCandidate Verifier} {done : CalloutDone}

/-- What a filter reads in an answer is what a resolve call returned for its
candidate. -/
theorem read_was_returned (hp : PrintableStrings sfv wba) (hw : wire.Exact) (hj : json.Lawful wire)
    (h : Reached s state)
    (hready : Ready sfv wba s.crates.resource.url host filter (headers.without assertionHeaders) endOfStream request
      candidate)
    (hserved : Served json wire s state.log
      (filter.run sfv wba s.crates.resource.url wire host headers endOfStream []).envoy done)
    {read : ResolveResponse} (hread : resolverResponse wire done = .ok read) :
    ∃ t older, (.returned t (.resolve (resolveRequest candidate)) (.response (.ok read)) :: older) <:+ state.log := by
  obtain ⟨body, hsent, -, hcall⟩ := callout_made hp hw hready
  have hok : done.result = .success ∧ responseStatus done.responseHeaders = some 200 := by
    unfold resolverResponse at hread
    split at hread
    · cases hread
    · rename_i hn
      simpa only [not_or, not_not] using hn
  obtain ⟨response, hserves, hcarried⟩ := hserved hok.1 _ _ _ _ hcall
  have hstatus : response.status = 200 := by
    have hs := hcarried.status
    rw [hok.2] at hs
    exact (Option.some.inj hs).symm
  obtain ⟨value, answer, t, older, hvalue, hwritten, hl⟩ := hserves.success hj h hstatus
  obtain rfl : value = resolveRequest candidate := Option.some.inj (hvalue.symm.trans hsent)
  obtain rfl := resolverResponse_of_written hw hcarried.body hwritten hread
  exact ⟨t, older, hl⟩

/-- A key that was returned was published. -/
theorem published_of_returned {httpDate : List Char → Option SystemTime} (h : Reached s state)
    (hc : ByClient httpDate state.log) {t : Nat} {older : Log P} {id : VerifiedIdentity} {jwk : Ed25519Jwk}
    (hkey : id.keyId = candidate.keyId) (hthumb : id.keyId = jwk.b64Thumbprint s.crates.resource.digest)
    (hl : (.returned t (.resolve (resolveRequest candidate)) (.response (.ok (.resolved id.identifier jwk))) :: older) <:+
      state.log) : PublishedFor s older candidate id jwk := by
  have hsuffix : older <:+ state.log := (List.suffix_cons _ older).trans hl
  have hresponded : RespondedBy s (fun key r => Provenance s older key r.resource) (resolveRequest candidate)
      (.resolved id.identifier jwk) := by
    refine (h.resolve_gives hl).imp ?_
    rintro key r ⟨log, ho, hgives⟩
    exact (hgives.held.sourced.mono ho).provenance (hc.suffix hsuffix)
  obtain ⟨target, hv, ⟨-, -, hresp⟩ | ⟨keys, hkeys, hresp⟩⟩ := hresponded
  · cases hresp
  have hfound : id.identifier = target.normalizedIdentifier ∧ ∃ entry ∈ keys, entry.jwk = jwk := by
    unfold respond at hresp
    split at hresp
    · rename_i found hfound
      obtain ⟨hid, rfl⟩ := ResolveResponse.resolved.inj hresp
      exact ⟨hid, selectKey_mem hfound⟩
    · cases hresp
  refine ⟨⟨target, keys, validateRequest_target hv, hfound.1, ?_, hfound.2⟩, hthumb, ?_⟩
  · exact hkeys.imp (fun _ _ hr => fetched_of_provenance h hsuffix hr)
  · intro hoff
    obtain ⟨newer, hl⟩ := hl
    by_contra htest
    have hwithheld : Withheld s (resolveRequest candidate) := by
      refine ⟨hoff, ?_⟩
      rw [resolveRequest, ← hkey]
      exact Bool.eq_true_of_not_eq_false htest
    obtain ⟨identifier, he⟩ := (h.holds.met.returned hl.symm).2 hwithheld
    cases he

end Served

/-- A verified identity is the one of a candidate of the request, signed with a
key that the candidate's agent publishes: a resolve call of the run found it in a
key set that fetches of the run brought. -/
theorem verified_key_was_published {sfv : Sfv} {wba : WebBotAuth Verifier KeyRing} {wire : WireJson} {json : JsonBody}
    {s : ResolverService P L} (hp : PrintableStrings sfv wba) (hw : wire.Exact) (hj : json.Lawful wire)
    (hd : wba.Rfc7638 s.crates.resource.digest) {httpDate : List Char → Option SystemTime} {state : ResolverState P L}
    (h : Reached s state) (hc : ByClient httpDate state.log) (host : Host) (settings : Settings)
    (outcomeCounter durationHistogram : Option Nat) (headers : HeaderMap Bytes) (endOfStream : Bool) (done : CalloutDone)
    (rest : List CalloutDone) (id : VerifiedIdentity)
    (hserved : Served json wire s state.log ((WebBotAuthFilter.new settings outcomeCounter durationHistogram).run
      sfv wba s.crates.resource.url wire host headers endOfStream []).envoy done)
    (hver : .applyResult (.verified id) ∈ ((WebBotAuthFilter.new settings outcomeCounter durationHistogram).run
      sfv wba s.crates.resource.url wire host headers endOfStream (done :: rest)).envoy.calls) :
    ∃ request candidate jwk t older,
      Ready sfv wba s.crates.resource.url host (.new settings outcomeCounter durationHistogram)
        (headers.without assertionHeaders) endOfStream request candidate ∧
      id = ⟨candidate.normalizedIdentifier, candidate.keyId⟩ ∧
      (∃ keyring, wba.tryImportJwk ⟨"Ed25519", jwk.x⟩ = some keyring ∧ wba.verify candidate.verifier keyring = true) ∧
      (.returned t (.resolve (resolveRequest candidate)) (.response (.ok (.resolved id.identifier jwk))) :: older) <:+
        state.log ∧
      PublishedFor s older candidate id jwk := by
  obtain ⟨done', rest', request, candidate, hcallouts, hready, hresult⟩ := verified_callback hver
  obtain ⟨rfl, rfl⟩ := List.cons.inj hcallouts
  obtain ⟨rfl, jwk, hread, hthumb, hsig⟩ := verify_verified wba hresult
  obtain ⟨t, older, hl⟩ := read_was_returned hp hw hj h hready hserved hread
  have hkey : candidate.keyId = jwk.b64Thumbprint s.crates.resource.digest := by rw [← hthumb, hd]
  exact ⟨request, candidate, jwk, t, older, hready, rfl, hsig, hl, published_of_returned h hc rfl hkey hl⟩

theorem verified_key_was_published_sample : ∃ (state : ResolverState SamplePolicy Unit)
    (candidate : VerificationCandidate ParsedLabel) (jwk : Ed25519Jwk) (older : Log SamplePolicy),
    Reached publishingService state ∧ older <:+ state.log ∧
      PublishedFor publishingService older candidate ⟨sampleCandidate.normalizedIdentifier, sampleKeyId⟩ jwk := by
  obtain ⟨state, h, hc, hserved⟩ := publishing_serves
  obtain ⟨-, candidate, jwk, t, older, -, -, -, hl, hpub⟩ := verified_key_was_published sampleKeys_printableStrings
    publishedWire_exact (sampleJson_lawful publishedWire) (s := publishingService) (fun _ => rfl) h hc sampleHost
    sampleSettings none none sampleHeaders true publishedDone []
    ⟨sampleCandidate.normalizedIdentifier, sampleKeyId⟩ hserved publishedDone_verified
  exact ⟨state, candidate, jwk, older, h, (List.suffix_cons _ older).trans hl, hpub⟩

/-! ## What a resolve call decides -/

/-- An answered callout decides the request as the resolve call for its
candidate ended; an identifier is never the reason to turn an answer down. -/
theorem resolution_decides {sfv : Sfv} {wba : WebBotAuth Verifier KeyRing} {wire : WireJson} {json : JsonBody}
    {s : ResolverService P L} (hp : PrintableStrings sfv wba) (hw : wire.Exact) (hj : json.Lawful wire)
    (hlimit : Limits.standard.inboundBodyBytes ≤ s.limits.inboundBodyBytes) {state : ResolverState P L}
    (h : Reached s state) (host : Host) (settings : Settings) (outcomeCounter durationHistogram : Option Nat)
    (headers : HeaderMap Bytes) (endOfStream : Bool) (pending : PendingVerification Verifier)
    (hpending : ((WebBotAuthFilter.new settings outcomeCounter durationHistogram).run
      sfv wba s.crates.resource.url wire host headers endOfStream []).filter.pending = some pending)
    (done : CalloutDone) (rest : List CalloutDone) (hid : done.calloutId = pending.calloutId)
    (hok : done.result = .success)
    (hserved : Served json wire s state.log ((WebBotAuthFilter.new settings outcomeCounter durationHistogram).run
      sfv wba s.crates.resource.url wire host headers endOfStream []).envoy done) :
    ∃ result, Ended state.log (resolveRequest pending.candidate) result ∧
      ((WebBotAuthFilter.new settings outcomeCounter durationHistogram).run sfv wba s.crates.resource.url wire host
        headers endOfStream (done :: rest)).envoy.decisions =
          .applyResult (resultOf wba wire pending.candidate result) ::
            resumption (admission settings.mode (resultOf wba wire pending.candidate result)) ∧
      resultOf wba wire pending.candidate result ≠ .unverified .unavailable .resolverIdentifier := by
  obtain ⟨hfilter, hnone, request, hready⟩ :=
    waiting_ready sfv wba s.crates.resource.url wire host (.new settings outcomeCounter durationHistogram) rfl hpending
  have hask := askable_of_parse hp hready.parsed
  obtain ⟨body, hread, hfits, hcall⟩ := callout_made hp hw hready
  obtain ⟨response, hserves, hcarried⟩ := hserved hok _ _ _ _ hcall
  have hroute := calloutRequest_routed hj s (Nat.le_trans hfits hlimit) hread
  obtain ⟨result, hended, rfl⟩ :
      ∃ result, Ended state.log (resolveRequest pending.candidate) result ∧ resolutionResponse wire result = response := by
    cases hserves with
    | resolved value result hr hended =>
      obtain rfl := Routed.resolve.inj (hr.symm.trans hroute)
      exact ⟨result, hended, rfl⟩
    | answered _ hr => cases hr.symm.trans hroute
  refine ⟨result, hended, ?_, ?_⟩
  · obtain ⟨e', ⟨-, hd⟩, hdone⟩ := onHttpCalloutDone_matched wba wire host _ hpending
      ((WebBotAuthFilter.new settings outcomeCounter durationHistogram).run sfv wba s.crates.resource.url wire host
        headers endOfStream []).envoy hid
    rw [run_eq sfv wba s.crates.resource.url wire host _ rfl, onCallouts_cons, hdone, resume_decisions, hd, hnone,
      verify_resolutionResponse wba hw _ _ hok hcarried, hfilter]
    rfl
  · obtain ⟨target, hv, hsame⟩ := hask.validated
    cases result with
    | error error => exact nofun
    | ok response =>
      unfold resultOf
      simp only
      split
      · exact nofun
      · split
        · exact nofun
        · obtain ⟨t, ⟨older, hl⟩ | hd⟩ := hended
          · exact verify_identifier ((respondedBy_identifier hv (h.resolve_gives hl)).trans hsame)
          · cases timed_out h hd

theorem resolution_decides_sample : ∃ (state : ResolverState SamplePolicy Unit)
    (result : Except FetchError ResolveResponse), Reached publishingService state ∧
      Ended state.log (resolveRequest sampleCandidate) result ∧
      resultOf wbaAtSampleKeys publishedWire sampleCandidate result ≠ .unverified .unavailable .resolverIdentifier := by
  obtain ⟨state, h, -, hserved⟩ := publishing_serves
  obtain ⟨pending, hpending, hid, hcandidate⟩ := sampleFirst_pending
  obtain ⟨result, hended, -, hne⟩ := resolution_decides sampleKeys_printableStrings publishedWire_exact
    (sampleJson_lawful publishedWire) (s := publishingService) (Nat.le_refl _) h sampleHost sampleSettings none none
    sampleHeaders true pending hpending publishedDone [] hid.symm rfl hserved
  rw [hcandidate] at hended hne
  exact ⟨state, result, h, hended, hne⟩

end EnvoyWebBotAuth.Contract
