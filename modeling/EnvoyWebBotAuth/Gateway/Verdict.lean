import EnvoyWebBotAuth.Gateway.Assertion
/-!
# Verdicts

What the filter makes of a request, apart from what it does about it. A verdict
depends on the settings a request is verified by, never on the mode, the metrics
or the readings of the clock that time the phases; `run_calls` has a run make all
its calls from its verdict.
-/
open EnvoyWebBotAuth.Lib EnvoyWebBotAuth.Protocol

namespace EnvoyWebBotAuth.Gateway

variable {Verifier KeyRing : Type}

/-! ## The verdict of a request -/

/-- The settings a request is verified by. -/
structure VerificationSettings where
  resolver : ResolverSettings
  maxSignatureLifetimeSeconds : UInt64
  clockSkewSeconds : UInt64
  requiredComponents : List String
  acceptLegacySignatureAgent : Bool
  deriving DecidableEq

def Settings.verification (settings : Settings) : VerificationSettings where
  resolver := settings.resolver
  maxSignatureLifetimeSeconds := settings.maxSignatureLifetimeSeconds
  clockSkewSeconds := settings.clockSkewSeconds
  requiredComponents := settings.requiredComponents
  acceptLegacySignatureAgent := settings.acceptLegacySignatureAgent

inductive Verdict (Verifier : Type) where
  | decided (result : VerificationResult)
  | asked (calloutId : UInt64) (candidate : VerificationCandidate Verifier)

/-- A verdict, and the callout that was tried for it. -/
structure Judgement (Verifier : Type) where
  sent : List EnvoyCall := []
  verdict : Verdict Verifier

section

variable (sfv : Sfv) (wba : WebBotAuth Verifier KeyRing) (c : UrlCrate) (wire : WireJson) (host : Host)
  (v : VerificationSettings)

/-- The callout for a candidate. -/
def judgeCandidate (resolver : ResolverSettings) (candidate : VerificationCandidate Verifier) : Judgement Verifier :=
  match wire.requestToVec ⟨.v1, candidate.discovery, candidate.signedUrl, candidate.keyId⟩ with
  | none => { verdict := .decided (.unverified .unavailable .resolverEncoding) }
  | some body =>
    if body.length > maxResolveBodyBytes then { verdict := .decided (.invalid .malformed .profileFieldTooLarge) }
    else
      { sent := [.sendHttpCallout resolver.cluster calloutHeaders body resolver.timeoutMs]
        verdict :=
          match host.sendHttpCallout resolver.cluster calloutHeaders body resolver.timeoutMs with
          | (.success, calloutId) => .asked calloutId candidate
          | (.failure, _) => .decided (.unverified .unavailable .resolverUnavailable) }

/-- The candidate of sanitised headers. -/
def judgeHeaders (headers : HeaderMap Bytes) (endOfStream : Bool) : Judgement Verifier :=
  match classifySignatureHeaders (headers.getFirst headerSignature).isSome (headers.getFirst headerSignatureInput).isSome
    (headers.getFirst headerSignatureAgent).isSome with
  | .unsigned => { verdict := .decided (.notPresent .unsigned) }
  | .incomplete => { verdict := .decided (.invalid .malformed .incompleteFields) }
  | .candidate =>
    if !endOfStream then { verdict := .decided (.unverified .unsupported .requestBodyUnsupported) }
    else match RequestComponents.tryFromEnvoy headers with
      | .error _ => { verdict := .decided (.invalid .malformed .requestCapture) }
      | .ok request =>
        match VerificationCandidate.parse sfv wba c request v.acceptLegacySignatureAgent v.requiredComponents
          (unixTime host) v.maxSignatureLifetimeSeconds v.clockSkewSeconds with
        | .error error => { verdict := .decided error.result }
        | .ok candidate => judgeCandidate wire host v.resolver candidate

/-- The result of a callback for the callout `calloutId`. -/
def judgeCallout (calloutId : UInt64) (candidate : VerificationCandidate Verifier) (done : CalloutDone) :
    VerificationResult :=
  if calloutId ≠ done.calloutId then .unverified .unavailable .resolverCalloutMismatch
  else verifyResolverResponse wba candidate (resolverResponse wire done)

/-- The results of a run: none while the callout is out. -/
def Verdict.results (verdict : Verdict Verifier) (callouts : List CalloutDone) : List VerificationResult :=
  match verdict with
  | .decided result => [result]
  | .asked calloutId candidate => (callouts.take 1).map (judgeCallout wba wire calloutId candidate)

end

/-! ## What the filter does about it -/

def EnvoyCall.callsOut : EnvoyCall → Bool
  | .sendHttpCallout _ _ _ _ => true
  | _ => false

/-- The phases whose durations are recorded. -/
def phases : List String :=
  ["candidate_capture", "candidate_parse", "resolver_send", "resolver_callout", "response_verify"]

/-- How a phase can end. -/
def phaseResults : List String := ["success", "error", "not-present", "invalid", "unverified", "verified"]

/-- The calls of the filter while it works on a request. -/
inductive Working (histogram : Option Nat) : EnvoyCall → Prop
  | duration {id : Nat} {phase result : String} {value : UInt64} (h : histogram = some id) (hp : phase ∈ phases)
      (hr : result ∈ phaseResults) : Working histogram (.recordHistogramValueVec id [phase, result] value)
  | callout {cluster : String} {headers : List (String × String)} {body : Bytes} {timeoutMs : UInt64} :
      Working histogram (.sendHttpCallout cluster headers body timeoutMs)
  | mismatch : Working histogram (.logError "web-bot-auth reason=resolver_callout_mismatch")

/-- The filter worked, and called out what was sent. -/
structure Worked (histogram : Option Nat) (sent : List EnvoyCall) (e e' : Envoy) : Prop where
  headers : e'.headers = e.headers
  calls : ∃ calls, e'.calls = e.calls ++ calls ∧ calls.filter EnvoyCall.callsOut = sent ∧
    ∀ call ∈ calls, Working histogram call

/-- The metadata and the counter of a result. -/
def outcomeReport (counter : Option Nat) (result : VerificationResult) : List EnvoyCall :=
  (recordOutcome counter result ⟨[], [], 0⟩).calls

/-- What the callback that decided does about a result. -/
def Verdict.ending (verdict : Verdict Verifier) (a : Admission) : List EnvoyCall :=
  match verdict with
  | .decided _ => denial a
  | .asked _ _ => resumption a

/-- All calls about a result. -/
def conclusion (filter : WebBotAuthFilter Verifier) (verdict : Verdict Verifier) (result : VerificationResult) :
    List EnvoyCall :=
  .applyResult result :: outcomeReport filter.outcomeCounter result ++
    verdict.ending (admission filter.settings.mode result)

section Worked

variable {histogram : Option Nat} {sent sent' : List EnvoyCall} {e e' e'' : Envoy}

theorem worked_refl (histogram : Option Nat) (e : Envoy) : Worked histogram [] e e :=
  ⟨rfl, [], (List.append_nil _).symm, rfl, nofun⟩

theorem Worked.trans (h : Worked histogram sent e e') (h' : Worked histogram sent' e' e'') :
    Worked histogram (sent ++ sent') e e'' := by
  obtain ⟨hh, calls, hc, hs, hw⟩ := h
  obtain ⟨hh', calls', hc', hs', hw'⟩ := h'
  refine ⟨hh'.trans hh, calls ++ calls', by rw [hc', hc, List.append_assoc], by rw [List.filter_append, hs, hs'], ?_⟩
  intro call hm
  rcases List.mem_append.1 hm with hm | hm
  · exact hw call hm
  · exact hw' call hm

theorem worked_now (histogram : Option Nat) (host : Host) (e : Envoy) : Worked histogram [] e (e.now host).2 :=
  ⟨rfl, [], (List.append_nil _).symm, rfl, nofun⟩

theorem worked_call {call : EnvoyCall} (e : Envoy) (h : Working histogram call) :
    Worked histogram (if call.callsOut then [call] else []) e (e.call call) := by
  refine ⟨rfl, [call], rfl, ?_, ?_⟩
  · rw [List.filter_singleton]
    cases call.callsOut <;> rfl
  · intro call' hm
    obtain rfl := List.mem_singleton.1 hm
    exact h

theorem worked_recordDuration (histogram : Option Nat) (host : Host) (e : Envoy) {phase result : String}
    (startedAt : Nat) (hp : phase ∈ phases) (hr : result ∈ phaseResults) :
    Worked histogram [] e (recordDuration host e histogram phase result startedAt) := by
  cases histogram with
  | none => exact worked_refl none e
  | some id => exact (worked_now (some id) host e).trans (worked_call _ (.duration rfl hp hr))

end Worked

theorem applyResult_calls (filter : WebBotAuthFilter Verifier) (e : Envoy) (result : VerificationResult) :
    (filter.applyResult e result).2.calls = e.calls ++ .applyResult result ::
      (outcomeReport filter.outcomeCounter result ++ denial (admission filter.settings.mode result)) := by
  have hreport : ∀ e : Envoy,
      (recordOutcome filter.outcomeCounter result e).calls = e.calls ++ outcomeReport filter.outcomeCounter result := by
    intro e
    unfold outcomeReport recordOutcome
    cases filter.outcomeCounter <;> cases result.identity <;> simp [Envoy.call]
  have hforward : ∀ e : Envoy, (forwardIdentity filter.settings result e).calls = e.calls := by
    intro e
    unfold forwardIdentity
    cases filter.settings.forwardIdentityHeaders <;> cases result.identity <;> rfl
  unfold WebBotAuthFilter.applyResult
  cases admission filter.settings.mode result with
  | allow => simp [hforward, hreport, Envoy.call, denial]
  | reject status challenge => simp [hforward, hreport, Envoy.call, denial]

theorem resume_calls (filter : WebBotAuthFilter Verifier) (e : Envoy) (result : VerificationResult) :
    (filter.resume e result).calls = e.calls ++ .applyResult result ::
      (outcomeReport filter.outcomeCounter result ++ resumption (admission filter.settings.mode result)) := by
  have hcalls := applyResult_calls filter e result
  obtain ⟨hdecision, -⟩ := applyResult_spec filter e result
  unfold WebBotAuthFilter.resume
  simp only [hdecision]
  cases ha : admission filter.settings.mode result with
  | allow => simp [hcalls, ha, Envoy.call, denial, resumption]
  | reject status challenge => simp [hcalls, ha, resumption]

theorem status_phaseResults (result : VerificationResult) : result.status ∈ phaseResults := by
  cases result <;> simp [VerificationResult.status, phaseResults]

/-! ## The callbacks -/

/-- A header callback came to a judgement. -/
def Comes (filter : WebBotAuthFilter Verifier) (j : Judgement Verifier) (e : Envoy)
    (out : HeadersStatus × WebBotAuthFilter Verifier × Envoy) : Prop :=
  ∃ e', Worked filter.durationHistogram j.sent e e' ∧
    match j.verdict with
    | .decided result => out = filter.finish e' result
    | .asked calloutId candidate => ∃ startedAt,
        out = (.stopAllIterationAndWatermark, { filter with pending := some ⟨calloutId, candidate, startedAt⟩ }, e')

theorem Comes.after {filter : WebBotAuthFilter Verifier} {j : Judgement Verifier} {e e' : Envoy}
    {out : HeadersStatus × WebBotAuthFilter Verifier × Envoy} (h : Comes filter j e' out)
    (hw : Worked filter.durationHistogram [] e e') : Comes filter j e out := by
  obtain ⟨e'', hw', hout⟩ := h
  exact ⟨e'', hw.trans hw', hout⟩

section Callbacks

variable (sfv : Sfv) (wba : WebBotAuth Verifier KeyRing) (c : UrlCrate) (wire : WireJson) (host : Host)

theorem sendResolve_comes (filter : WebBotAuthFilter Verifier) (e : Envoy)
    (candidate : VerificationCandidate Verifier) :
    Comes filter (judgeCandidate wire host filter.settings.resolver candidate) e
      (filter.sendResolve wire host e candidate) := by
  have hrec : ∀ (e : Envoy) {phase result : String} (startedAt : Nat), phase ∈ phases → result ∈ phaseResults →
      Worked filter.durationHistogram [] e (recordDuration host e filter.durationHistogram phase result startedAt) :=
    fun e => worked_recordDuration filter.durationHistogram host e
  have hnow := worked_now filter.durationHistogram host
  unfold WebBotAuthFilter.sendResolve judgeCandidate
  cases hbody : wire.requestToVec ⟨.v1, candidate.discovery, candidate.signedUrl, candidate.keyId⟩ with
  | none =>
    simp only [hbody]
    exact ⟨_, (hnow e).trans (hrec _ _ (by decide) (by decide)), rfl⟩
  | some body =>
    have hcall : Working filter.durationHistogram (.sendHttpCallout filter.settings.resolver.cluster calloutHeaders body
        filter.settings.resolver.timeoutMs) := .callout
    have hsent := ((hnow e).trans (hnow _)).trans (worked_call _ hcall)
    rcases hsend : host.sendHttpCallout filter.settings.resolver.cluster calloutHeaders body
      filter.settings.resolver.timeoutMs with ⟨_ | _, calloutId⟩
    all_goals
      simp only [hbody, hsend]
      by_cases hlong : body.length > maxResolveBodyBytes
      · rw [if_pos hlong, if_pos hlong]
        exact ⟨_, (hnow e).trans (hrec _ _ (by decide) (by decide)), rfl⟩
      rw [if_neg hlong, if_neg hlong]
    · exact ⟨_, hsent.trans (hrec _ _ (by decide) (by decide)), _, rfl⟩
    · exact ⟨_, (hsent.trans (hrec _ _ (by decide) (by decide))).trans (hrec _ _ (by decide) (by decide)), rfl⟩

/-- The header callback comes to the judgement of the sanitised headers. -/
theorem onRequestHeaders_comes (filter : WebBotAuthFilter Verifier) (e : Envoy) (endOfStream : Bool) :
    Comes filter
      (judgeHeaders sfv wba c wire host filter.settings.verification (e.headers.without assertionHeaders) endOfStream)
      (sanitizeAssertionHeaders e) (filter.onRequestHeaders sfv wba c wire host e endOfStream) := by
  have hnow := worked_now filter.durationHistogram host
  have hcapture : ∀ (e : Envoy) (startedAt : Nat), Worked filter.durationHistogram [] e
      (recordDuration host e filter.durationHistogram "candidate_capture" "success" startedAt) :=
    fun e startedAt => worked_recordDuration filter.durationHistogram host e startedAt (by decide) (by decide)
  unfold WebBotAuthFilter.onRequestHeaders judgeHeaders
  simp only [sanitize_eq]
  cases classifySignatureHeaders ((e.headers.without assertionHeaders).getFirst headerSignature).isSome
      ((e.headers.without assertionHeaders).getFirst headerSignatureInput).isSome
      ((e.headers.without assertionHeaders).getFirst headerSignatureAgent).isSome with
  | unsigned => exact ⟨_, worked_refl _ _, rfl⟩
  | incomplete => exact ⟨_, worked_refl _ _, rfl⟩
  | candidate =>
    cases endOfStream with
    | false => exact ⟨_, worked_refl _ _, rfl⟩
    | true =>
      simp only [Bool.not_true, Bool.false_eq_true, if_false, WebBotAuthFilter.onCandidate, Envoy.now]
      cases RequestComponents.tryFromEnvoy (e.headers.without assertionHeaders) with
      | error error =>
        exact ⟨_, (hnow _).trans (worked_recordDuration _ host _ _ (by decide) (by decide)), rfl⟩
      | ok request =>
        have hcaptured := (hnow { e with headers := e.headers.without assertionHeaders }).trans
          (hcapture _ (host.instant e.instants))
        simp only [Settings.verification]
        cases VerificationCandidate.parse sfv wba c request filter.settings.acceptLegacySignatureAgent
            filter.settings.requiredComponents (unixTime host) filter.settings.maxSignatureLifetimeSeconds
            filter.settings.clockSkewSeconds with
        | error error =>
          exact ⟨_, (hcaptured.trans (hnow _)).trans (worked_recordDuration _ host _ _ (by decide) (by decide)), rfl⟩
        | ok candidate =>
          exact (sendResolve_comes wire host filter _ candidate).after
            ((hcaptured.trans (hnow _)).trans (worked_recordDuration _ host _ _ (by decide) (by decide)))

/-- The first callout callback applies the result of the callout. -/
theorem onHttpCalloutDone_judged (filter : WebBotAuthFilter Verifier) {pending : PendingVerification Verifier}
    (h : filter.pending = some pending) (e : Envoy) (done : CalloutDone) :
    ∃ e', Worked filter.durationHistogram [] e e' ∧
      filter.onHttpCalloutDone wba wire host e done = ({ filter with pending := none },
        { filter with pending := none : WebBotAuthFilter Verifier }.resume e'
          (judgeCallout wba wire pending.calloutId pending.candidate done)) := by
  have hnow := worked_now filter.durationHistogram host
  unfold WebBotAuthFilter.onHttpCalloutDone judgeCallout
  simp only [h]
  by_cases hid : pending.calloutId ≠ done.calloutId
  · rw [if_pos hid, if_pos hid]
    exact ⟨_, (worked_recordDuration _ host _ _ (by decide) (by decide)).trans (worked_call _ .mismatch), rfl⟩
  · rw [if_neg hid, if_neg hid]
    have hresult : (if (resolverResponse wire done).isOk then "success" else "error") ∈ phaseResults := by
      split <;> decide
    exact ⟨_, ((worked_recordDuration _ host _ _ (by decide) hresult).trans (hnow _)).trans
      (worked_recordDuration _ host _ _ (by decide) (status_phaseResults _)), rfl⟩

/-! ## Runs -/

/-- What is still to come of a verdict with these results. -/
def Verdict.outstanding (verdict : Verdict Verifier) (results : List VerificationResult) :
    Option (UInt64 × VerificationCandidate Verifier) :=
  match verdict, results with
  | .asked calloutId candidate, [] => some (calloutId, candidate)
  | _, _ => none

/-- The status of the header callback. -/
def Verdict.status (mode : Mode) : Verdict Verifier → HeadersStatus
  | .decided result => (admission mode result).headersStatus
  | .asked _ _ => .stopAllIterationAndWatermark

/-- The filter works, then concludes with each result. -/
structure Follows (filter : WebBotAuthFilter Verifier) (j : Judgement Verifier) (results : List VerificationResult)
    (headers : HeaderMap Bytes) (out : Outcome Verifier) : Prop where
  status : out.status = j.verdict.status filter.settings.mode
  calls : ∃ work, out.envoy.calls = work ++ results.flatMap (conclusion filter j.verdict) ∧
    work.filter EnvoyCall.callsOut = j.sent ∧ ∀ call ∈ work, Working filter.durationHistogram call
  upstream : out.envoy.headers = results.foldr (assertedHeaders filter.settings) headers
  pending : out.filter.pending.map (fun pending => (pending.calloutId, pending.candidate)) =
    j.verdict.outstanding results

/-- A run follows the judgement of its sanitised headers. -/
theorem run_follows (filter : WebBotAuthFilter Verifier) (hnone : filter.pending = none) (headers : HeaderMap Bytes)
    (endOfStream : Bool) (callouts : List CalloutDone) :
    let j := judgeHeaders sfv wba c wire host filter.settings.verification (headers.without assertionHeaders) endOfStream
    Follows filter j (j.verdict.results wba wire callouts) (headers.without assertionHeaders)
      (filter.run sfv wba c wire host headers endOfStream callouts) := by
  intro j
  have hcomes : Comes filter j _ _ := onRequestHeaders_comes sfv wba c wire host filter ⟨headers, [], 0⟩ endOfStream
  obtain ⟨e, ⟨hheaders, work, hwork, hsent, hminor⟩, hout⟩ := hcomes
  rw [sanitize_eq] at hheaders hwork
  unfold WebBotAuthFilter.run
  cases hv : j.verdict with
  | decided result =>
    simp only [hv, finish_eq] at hout
    obtain ⟨-, hasserted, -⟩ := applyResult_spec filter e result
    simp only [hout, onCallouts_idle wba wire host hnone, Verdict.results]
    refine ⟨by rw [hv]; rfl, ⟨work, ?_, hsent, hminor⟩, ?_, ?_⟩
    · rw [applyResult_calls, hwork, hv, List.flatMap_singleton]
      rfl
    · rw [hasserted, hheaders]
      rfl
    · rw [hnone, hv]
      rfl
  | asked calloutId candidate =>
    simp only [hv] at hout
    obtain ⟨startedAt, hout⟩ := hout
    simp only [hout, Verdict.results]
    cases callouts with
    | nil =>
      simp only [onCallouts, List.foldl_nil, List.take_nil, List.map_nil]
      refine ⟨by rw [hv]; rfl, ⟨work, ?_, hsent, hminor⟩, hheaders, by rw [hv]; rfl⟩
      rw [hwork]
      simp
    | cons done rest =>
      obtain ⟨e', ⟨hheaders', work', hwork', hsent', hminor'⟩, hdone⟩ := onHttpCalloutDone_judged wba wire host
        { filter with pending := some ⟨calloutId, candidate, startedAt⟩ } rfl e done
      simp only [onCallouts_cons, hdone, List.take_succ_cons, List.take_zero, List.map_cons, List.map_nil]
      refine ⟨by rw [hv]; rfl, ⟨work ++ work', ?_, ?_, ?_⟩, ?_, by rw [hv]; rfl⟩
      · rw [resume_calls, hwork', hwork, hv, List.flatMap_singleton]
        simp [conclusion, Verdict.ending]
      · rw [List.filter_append, hsent, hsent', List.append_nil]
      · exact fun call hm => (List.mem_append.1 hm).elim (hminor call) (hminor' call)
      · rw [resume_headers, hheaders', hheaders]
        rfl

end Callbacks

end EnvoyWebBotAuth.Gateway
