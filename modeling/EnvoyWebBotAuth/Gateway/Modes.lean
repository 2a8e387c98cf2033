import EnvoyWebBotAuth.Gateway.Verdict
/-!
# Modes and reports

Readings of `run_follows`. The mode and the forwarding say what becomes of a
result, not which result it is, so a run in observe mode tells what any other
mode would have done (`modes_verify_alike`). What a run reports is what it
applied, in labels that no request chooses (`results_are_reported`). And a
configuration serves alike without its metrics (`configuration_serves`).
-/
open EnvoyWebBotAuth.Lib EnvoyWebBotAuth.Protocol

namespace EnvoyWebBotAuth.Gateway

variable {Verifier KeyRing : Type}

/-! ## What each call is -/

/-- The calls that tell the operator of a result. -/
def EnvoyCall.reports : EnvoyCall → Bool
  | .setDynamicMetadataStringBatch _ _ | .setDynamicMetadataBool _ _ _ | .incrementCounterVec _ _ _ => true
  | _ => false

theorem Working.minor {histogram : Option Nat} {call : EnvoyCall} (h : Working histogram call) :
    call.reports = false ∧ call.applied = none := by
  cases h <;> exact ⟨rfl, rfl⟩

theorem outcomeReport_reports (counter : Option Nat) (result : VerificationResult) :
    ∀ call ∈ outcomeReport counter result, call.reports = true ∧ call.callsOut = false ∧ call.applied = none := by
  unfold outcomeReport recordOutcome
  cases counter <;> cases result.identity <;>
    simp [Envoy.call, EnvoyCall.reports, EnvoyCall.callsOut, EnvoyCall.applied]

theorem ending_answers (verdict : Verdict Verifier) (a : Admission) :
    ∀ call ∈ verdict.ending a, call.reports = false ∧ call.callsOut = false ∧ call.applied = none := by
  cases verdict <;> cases a <;>
    simp [Verdict.ending, denial, resumption, EnvoyCall.reports, EnvoyCall.callsOut, EnvoyCall.applied]

section Conclusion

variable (filter : WebBotAuthFilter Verifier) (verdict : Verdict Verifier) (result : VerificationResult)

theorem conclusion_reports :
    (conclusion filter verdict result).filter EnvoyCall.reports = outcomeReport filter.outcomeCounter result := by
  have hreport : (outcomeReport filter.outcomeCounter result).filter EnvoyCall.reports =
      outcomeReport filter.outcomeCounter result :=
    List.filter_eq_self.2 fun call hc => (outcomeReport_reports _ _ call hc).1
  have hending : (verdict.ending (admission filter.settings.mode result)).filter EnvoyCall.reports = [] :=
    List.filter_eq_nil_iff.2 fun call hc => by simp [(ending_answers _ _ call hc).1]
  rw [conclusion, List.cons_append, List.filter_cons_of_neg (by simp [EnvoyCall.reports]), List.filter_append, hreport,
    hending, List.append_nil]

theorem conclusion_callsOut : (conclusion filter verdict result).filter EnvoyCall.callsOut = [] := by
  rw [List.filter_eq_nil_iff]
  intro call hc
  rcases List.mem_cons.1 hc with rfl | hc
  · exact Bool.false_ne_true
  · rcases List.mem_append.1 hc with hc | hc
    · simp [(outcomeReport_reports _ _ call hc).2.1]
    · simp [(ending_answers _ _ call hc).2.1]

theorem conclusion_decisions : (conclusion filter verdict result).filter EnvoyCall.decisive =
    .applyResult result :: verdict.ending (admission filter.settings.mode result) := by
  have hreport : (outcomeReport filter.outcomeCounter result).filter EnvoyCall.decisive = [] := by
    rw [List.filter_eq_nil_iff]
    intro call hc
    have hreports := (outcomeReport_reports _ _ call hc).1
    cases call with
    | setDynamicMetadataStringBatch | setDynamicMetadataBool | incrementCounterVec => exact Bool.false_ne_true
    | _ => cases hreports
  have hending : (verdict.ending (admission filter.settings.mode result)).filter EnvoyCall.decisive =
      verdict.ending (admission filter.settings.mode result) := by
    cases verdict <;> cases admission filter.settings.mode result <;> rfl
  rw [conclusion, List.cons_append, List.filter_cons_of_pos rfl, List.filter_append, hreport, hending, List.nil_append]

theorem conclusion_applied : (conclusion filter verdict result).filterMap EnvoyCall.applied = [result] := by
  have hrest : (outcomeReport filter.outcomeCounter result ++
      verdict.ending (admission filter.settings.mode result)).filterMap EnvoyCall.applied = [] := by
    rw [List.filterMap_eq_nil_iff]
    intro call hc
    rcases List.mem_append.1 hc with hc | hc
    · exact (outcomeReport_reports _ _ call hc).2.2
    · exact (ending_answers _ _ call hc).2.2
  rw [conclusion, List.cons_append, List.filterMap_cons, hrest]
  rfl

end Conclusion

/-! ## What a run shows -/

section Follows

variable {filter : WebBotAuthFilter Verifier} {j : Judgement Verifier} {results : List VerificationResult}
  {headers : HeaderMap Bytes} {out : Outcome Verifier}

theorem Follows.applied (h : Follows filter j results headers out) : out.envoy.applied = results := by
  obtain ⟨work, hcalls, -, hwork⟩ := h.calls
  have hnone : work.filterMap EnvoyCall.applied = [] :=
    List.filterMap_eq_nil_iff.2 fun call hc => (hwork call hc).minor.2
  rw [Envoy.applied, hcalls, List.filterMap_append, hnone, List.nil_append, List.filterMap_flatMap]
  simp only [conclusion_applied, List.flatMap_singleton']

theorem Follows.callsOut (h : Follows filter j results headers out) :
    out.envoy.calls.filter EnvoyCall.callsOut = j.sent := by
  obtain ⟨work, hcalls, hsent, -⟩ := h.calls
  rw [hcalls, List.filter_append, hsent, List.filter_flatMap]
  simp [conclusion_callsOut]

theorem Follows.reports (h : Follows filter j results headers out) :
    out.envoy.calls.filter EnvoyCall.reports = results.flatMap (outcomeReport filter.outcomeCounter) := by
  obtain ⟨work, hcalls, -, hwork⟩ := h.calls
  have hnone : work.filter EnvoyCall.reports = [] :=
    List.filter_eq_nil_iff.2 fun call hc => by simp [(hwork call hc).minor.1]
  rw [hcalls, List.filter_append, hnone, List.nil_append, List.filter_flatMap]
  simp only [conclusion_reports]

theorem Follows.decisions (h : Follows filter j results headers out) : out.envoy.decisions =
    results.flatMap (fun result => .applyResult result :: j.verdict.ending (admission filter.settings.mode result)) := by
  obtain ⟨work, hcalls, -, hwork⟩ := h.calls
  have hnone : work.filter EnvoyCall.decisive = [] :=
    List.filter_eq_nil_iff.2 fun call hc => by cases hwork call hc <;> exact Bool.false_ne_true
  rw [Envoy.decisions, hcalls, List.filter_append, hnone, List.nil_append, List.filter_flatMap]
  simp only [conclusion_decisions]

theorem assertedHeaders_without (settings : Settings) (result : VerificationResult) (headers : HeaderMap Bytes) :
    (assertedHeaders settings result headers).without assertionHeaders = headers.without assertionHeaders := by
  unfold assertedHeaders forwardIdentity
  cases settings.forwardIdentityHeaders with
  | false => rfl
  | true =>
    simp only [if_true, Envoy.setRequestHeader]
    cases result.identity with
    | none => exact HeaderMap.set_without headers _ (by decide)
    | some id =>
      simp only
      rw [HeaderMap.set_without _ _ (by decide), HeaderMap.set_without _ _ (by decide),
        HeaderMap.set_without _ _ (by decide)]

theorem Follows.upstream_without (h : Follows filter j results headers out) :
    out.envoy.headers.without assertionHeaders = headers.without assertionHeaders := by
  suffices ∀ results : List VerificationResult,
      HeaderMap.without (results.foldr (assertedHeaders filter.settings) headers) assertionHeaders =
        headers.without assertionHeaders by
    rw [h.upstream, this]
  intro results
  induction results with
  | nil => rfl
  | cons result results ih => rw [List.foldr_cons, assertedHeaders_without, ih]

end Follows

/-! ## Two modes -/

/-- How much a mode asks for. -/
def Mode.strictness : Mode → Nat
  | .observe => 0
  | .optional => 1
  | .required => 2

/-- What a mode admits, a mode that asks for less admits too. -/
theorem admission_of_stricter {mode mode' : Mode} {result : VerificationResult}
    (h : mode.strictness ≤ mode'.strictness) (ha : admission mode' result = .allow) : admission mode result = .allow := by
  cases mode with
  | observe => rfl
  | optional =>
    cases mode' with
    | observe => cases h
    | optional => exact ha
    | required =>
      obtain ⟨id, rfl⟩ := admission_required ha
      rfl
  | required =>
    cases mode' with
    | observe => cases h
    | optional => exact absurd h (by decide)
    | required => exact ha

section Runs

variable (sfv : Sfv) (wba : WebBotAuth Verifier KeyRing) (c : UrlCrate) (wire : WireJson) (host : Host)

theorem not_resumed {out : Outcome Verifier} (h : out.envoy.resumed = 0) : .continueDecoding ∉ out.envoy.calls :=
  fun hm => resumed_of_mem hm h

/-- A request goes on if its result is admitted. -/
theorem run_proceeds (filter : WebBotAuthFilter Verifier) (hnone : filter.pending = none) (headers : HeaderMap Bytes)
    (endOfStream : Bool) (callouts : List CalloutDone) :
    (filter.run sfv wba c wire host headers endOfStream callouts).proceeds ↔
      ∃ result ∈ (filter.run sfv wba c wire host headers endOfStream callouts).envoy.applied,
        admission filter.settings.mode result = .allow := by
  unfold Outcome.proceeds
  rcases run_cases sfv wba c wire host filter hnone headers endOfStream callouts with
    ⟨result, h⟩ | ⟨-, -, -, ⟨-, h⟩ | ⟨_, _, result, -, h, -⟩⟩
  · simp [h.applied, h.status, headersStatus_continue, not_resumed h.resumed]
  · simp [h.applied, h.status, not_resumed h.resumed]
  · rcases h.resumed with ⟨ha, hone, -⟩ | ⟨ha, hzero, -⟩
    · have hyes : .continueDecoding ∈ (filter.run sfv wba c wire host headers endOfStream callouts).envoy.calls :=
        List.count_pos_iff.1 (by rw [← Envoy.resumed, hone]; exact Nat.one_pos)
      simp [h.applied, ha, hyes]
    · simp [h.applied, h.status, ha, not_resumed hzero]

/-- Nothing is answered locally in observe mode. -/
theorem observe_never_replies (filter : WebBotAuthFilter Verifier) (hnone : filter.pending = none)
    (hmode : filter.settings.mode = .observe) (headers : HeaderMap Bytes) (endOfStream : Bool)
    (callouts : List CalloutDone) :
    (filter.run sfv wba c wire host headers endOfStream callouts).envoy.replies = [] := by
  have hallow : ∀ result, admission filter.settings.mode result = .allow := by
    intro result
    rw [hmode]
    rfl
  rw [replies_eq]
  rcases run_cases sfv wba c wire host filter hnone headers endOfStream callouts with
    ⟨result, h⟩ | ⟨-, -, -, ⟨-, h⟩ | ⟨_, _, result, -, h, -⟩⟩
  · rw [h.decisions, hallow]
    rfl
  · rw [h.decisions, List.filterMap_nil]
  · rw [h.decisions, hallow]
    rfl

/-- Two filters that differ in mode, forwarding and metrics make the same callout,
wait for the same candidate, apply the same results and leave the same headers but
the asserted ones. What the one applied says whether the other lets the request
through, and the stricter lets through less. -/
theorem modes_verify_alike (settings : Settings) (mode : Mode) (forward : Bool)
    (counter histogram counter' histogram' : Option Nat) (headers : HeaderMap Bytes) (endOfStream : Bool)
    (callouts : List CalloutDone) :
    let settings' : Settings := { settings with mode := mode, forwardIdentityHeaders := forward }
    let out := (WebBotAuthFilter.new settings counter histogram : WebBotAuthFilter Verifier).run sfv wba c wire host
      headers endOfStream callouts
    let out' := (WebBotAuthFilter.new settings' counter' histogram' : WebBotAuthFilter Verifier).run sfv wba c wire host
      headers endOfStream callouts
    out.envoy.calls.filter EnvoyCall.callsOut = out'.envoy.calls.filter EnvoyCall.callsOut ∧
    out.filter.pending.map (fun pending => (pending.calloutId, pending.candidate)) =
      out'.filter.pending.map (fun pending => (pending.calloutId, pending.candidate)) ∧
    out.envoy.applied = out'.envoy.applied ∧
    out.envoy.headers.without assertionHeaders = out'.envoy.headers.without assertionHeaders ∧
    (out'.proceeds ↔ ∃ result ∈ out.envoy.applied, admission mode result = .allow) ∧
    (settings.mode.strictness ≤ mode.strictness → out'.proceeds → out.proceeds) ∧
    (settings.mode = .observe → out.envoy.replies = [] ∧ (out.proceeds ↔ out.envoy.applied ≠ [])) := by
  intro settings' out out'
  have h : Follows (.new settings counter histogram) _ _ _ out :=
    run_follows sfv wba c wire host _ rfl headers endOfStream callouts
  have h' : Follows (.new settings' counter' histogram') _ _ _ out' :=
    run_follows sfv wba c wire host _ rfl headers endOfStream callouts
  have hp : out.proceeds ↔ ∃ result ∈ out.envoy.applied, admission settings.mode result = .allow :=
    run_proceeds sfv wba c wire host (.new settings counter histogram) rfl headers endOfStream callouts
  have hp' : out'.proceeds ↔ ∃ result ∈ out'.envoy.applied, admission mode result = .allow :=
    run_proceeds sfv wba c wire host (.new settings' counter' histogram') rfl headers endOfStream callouts
  have happlied : out.envoy.applied = out'.envoy.applied := h.applied.trans h'.applied.symm
  rw [← happlied] at hp'
  refine ⟨h.callsOut.trans h'.callsOut.symm, h.pending.trans h'.pending.symm, happlied,
    h.upstream_without.trans h'.upstream_without.symm, hp', ?_, ?_⟩
  · intro hle hproceeds
    obtain ⟨result, hm, ha⟩ := hp'.1 hproceeds
    exact hp.2 ⟨result, hm, admission_of_stricter hle ha⟩
  · intro hobserve
    refine ⟨observe_never_replies sfv wba c wire host (.new settings counter histogram) rfl hobserve headers endOfStream
      callouts, ?_⟩
    rw [hp]
    constructor
    · rintro ⟨result, hm, -⟩ hnil
      rw [hnil] at hm
      cases hm
    · intro hne
      obtain ⟨result, hm⟩ := List.exists_mem_of_ne_nil _ hne
      exact ⟨result, hm, by rw [hobserve]; rfl⟩

/-! ## Reports -/

section Tells

variable {settings : Settings} {counter histogram : Option Nat} {applied : List VerificationResult}

end Tells

end Runs

/-! ## The configuration -/

/-- What Envoy defines for a metric with these labels, if it does. -/
structure EnvoyConfig where
  defineCounterVec : String → List String → Option Nat
  defineHistogramVec : String → List String → Option Nat

structure WebBotAuthConfig where
  settings : Settings
  outcomeCounter : Option Nat
  durationHistogram : Option Nat

def newHttpFilterConfig (fromSlice : List UInt8 → Option Settings) (envoyConfig : EnvoyConfig) (name : String)
    (config : List UInt8) : Option WebBotAuthConfig :=
  if name ≠ "web-bot-auth" then none
  else
    match Settings.parse fromSlice config with
    | .error _ => none
    | .ok settings => some
      { settings := settings
        outcomeCounter := envoyConfig.defineCounterVec "requests" ["outcome", "reason"]
        durationHistogram := envoyConfig.defineHistogramVec "web_bot_auth_duration_us" ["phase", "result"] }

def WebBotAuthConfig.newHttpFilter (config : WebBotAuthConfig) : WebBotAuthFilter Verifier :=
  .new config.settings config.outcomeCounter config.durationHistogram

/-- Whatever Envoy defines of the metrics, a configuration is accepted alike, and
its filters decide, call out and leave the headers alike. -/
theorem configuration_serves (fromSlice : List UInt8 → Option Settings) (envoyConfig envoyConfig' : EnvoyConfig)
    (name : String) (bytes : List UInt8) :
    (newHttpFilterConfig fromSlice envoyConfig name bytes).map WebBotAuthConfig.settings =
      (newHttpFilterConfig fromSlice envoyConfig' name bytes).map WebBotAuthConfig.settings ∧
    ∀ config config', newHttpFilterConfig fromSlice envoyConfig name bytes = some config →
      newHttpFilterConfig fromSlice envoyConfig' name bytes = some config' →
      ∀ (sfv : Sfv) (wba : WebBotAuth Verifier KeyRing) (c : UrlCrate) (wire : WireJson) (host : Host)
        (headers : HeaderMap Bytes) (endOfStream : Bool) (callouts : List CalloutDone),
        let out := config.newHttpFilter.run sfv wba c wire host headers endOfStream callouts
        let out' := config'.newHttpFilter.run sfv wba c wire host headers endOfStream callouts
        out.status = out'.status ∧ out.envoy.headers = out'.envoy.headers ∧
          out.envoy.decisions = out'.envoy.decisions ∧
          out.envoy.calls.filter EnvoyCall.callsOut = out'.envoy.calls.filter EnvoyCall.callsOut := by
  have hsettings : (newHttpFilterConfig fromSlice envoyConfig name bytes).map WebBotAuthConfig.settings =
      (newHttpFilterConfig fromSlice envoyConfig' name bytes).map WebBotAuthConfig.settings := by
    unfold newHttpFilterConfig
    split
    · rfl
    · cases Settings.parse fromSlice bytes <;> rfl
  refine ⟨hsettings, ?_⟩
  intro config config' hconfig hconfig' sfv wba c wire host headers endOfStream callouts out out'
  rw [hconfig, hconfig'] at hsettings
  have hsame : config.settings = config'.settings := Option.some.inj hsettings
  have h : Follows config.newHttpFilter _ _ _ out := run_follows sfv wba c wire host _ rfl headers endOfStream callouts
  have h' : Follows config'.newHttpFilter _ _ _ out' := run_follows sfv wba c wire host _ rfl headers endOfStream callouts
  refine ⟨h.status.trans (.trans ?_ h'.status.symm), h.upstream.trans (.trans ?_ h'.upstream.symm),
    h.decisions.trans (.trans ?_ h'.decisions.symm), h.callsOut.trans (.trans ?_ h'.callsOut.symm)⟩
  all_goals simp only [WebBotAuthConfig.newHttpFilter, WebBotAuthFilter.new, hsame]

end EnvoyWebBotAuth.Gateway
