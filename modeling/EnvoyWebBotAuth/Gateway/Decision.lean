import EnvoyWebBotAuth.Gateway.Filter
/-!
# One decision for each request

`run_cases` leaves three shapes of a run. In each the calls that decide the
request are known in full and in order, so how often a result is applied, who
resumes the request and after which decision are read off them.
-/
open EnvoyWebBotAuth.Lib EnvoyWebBotAuth.Protocol

namespace EnvoyWebBotAuth.Gateway

def EnvoyCall.applied : EnvoyCall → Option VerificationResult
  | .applyResult result => some result
  | _ => none

def EnvoyCall.replied : EnvoyCall → Option UInt32
  | .sendResponse status _ _ _ => some status
  | _ => none

/-- The results applied so far. -/
def Envoy.applied (envoy : Envoy) : List VerificationResult := envoy.calls.filterMap EnvoyCall.applied

/-- The local replies sent so far. -/
def Envoy.replies (envoy : Envoy) : List UInt32 := envoy.calls.filterMap EnvoyCall.replied

/-- How often the request was resumed so far. -/
def Envoy.resumed (envoy : Envoy) : Nat := envoy.calls.count .continueDecoding

theorem filterMap_decisions {β : Type} {f : EnvoyCall → Option β}
    (hf : ∀ call, call.decisive = false → f call = none) (envoy : Envoy) :
    envoy.calls.filterMap f = envoy.decisions.filterMap f := by
  unfold Envoy.decisions
  rw [List.filterMap_filter]
  refine List.filterMap_congr fun call _ => ?_
  cases h : call.decisive with
  | true => simp
  | false => simp [hf call h]

theorem applied_eq (envoy : Envoy) : envoy.applied = envoy.decisions.filterMap EnvoyCall.applied :=
  filterMap_decisions (fun call h => by cases call <;> first | rfl | cases h) envoy

theorem replies_eq (envoy : Envoy) : envoy.replies = envoy.decisions.filterMap EnvoyCall.replied :=
  filterMap_decisions (fun call h => by cases call <;> first | rfl | cases h) envoy

theorem resumed_eq (envoy : Envoy) : envoy.resumed = envoy.decisions.count .continueDecoding :=
  (List.count_filter rfl).symm

theorem mem_applied {envoy : Envoy} {result : VerificationResult} (h : .applyResult result ∈ envoy.calls) :
    result ∈ envoy.applied :=
  List.mem_filterMap.2 ⟨_, h, rfl⟩

/-! ## The shapes of a run -/

theorem denial_count (a : Admission) : (denial a).count .continueDecoding = 0 := by
  cases a <;> rfl

theorem denial_applied (a : Admission) : (denial a).filterMap EnvoyCall.applied = [] := by
  cases a <;> rfl

theorem resumption_applied (a : Admission) : (resumption a).filterMap EnvoyCall.applied = [] := by
  cases a <;> rfl

variable {Verifier KeyRing : Type} {filter : WebBotAuthFilter Verifier} {headers : HeaderMap Bytes}
  {result : VerificationResult} {out : Outcome Verifier}

theorem Early.applied (h : Early filter headers result out) : out.envoy.applied = [result] := by
  rw [applied_eq, h.decisions]
  exact congrArg (result :: ·) (denial_applied _)

theorem Early.resumed (h : Early filter headers result out) : out.envoy.resumed = 0 := by
  rw [resumed_eq, h.decisions, List.count_cons_of_ne (by simp), denial_count]

theorem Waiting.applied (h : Waiting headers out) : out.envoy.applied = [] := by
  rw [applied_eq, h.decisions, List.filterMap_nil]

theorem Waiting.resumed (h : Waiting headers out) : out.envoy.resumed = 0 := by
  rw [resumed_eq, h.decisions, List.count_nil]

theorem Late.applied (h : Late filter headers result out) : out.envoy.applied = [result] := by
  rw [applied_eq, h.decisions]
  exact congrArg (result :: ·) (resumption_applied _)

/-- A callout callback resumes the request, or sends a reply. -/
theorem Late.resumed (h : Late filter headers result out) :
    (admission filter.settings.mode result = .allow ∧ out.envoy.resumed = 1 ∧ out.envoy.replies = []) ∨
    (admission filter.settings.mode result ≠ .allow ∧ out.envoy.resumed = 0 ∧ out.envoy.replies ≠ []) := by
  rw [resumed_eq, replies_eq, h.decisions]
  cases admission filter.settings.mode result with
  | allow => exact .inl ⟨rfl, rfl, rfl⟩
  | reject status challenge => exact .inr ⟨nofun, rfl, nofun⟩

/-! ## The decision -/

/-- The request goes on to the upstream. -/
def Outcome.proceeds (out : Outcome Verifier) : Prop :=
  out.status = .continue ∨ .continueDecoding ∈ out.envoy.calls

theorem resumed_of_mem (h : .continueDecoding ∈ out.envoy.calls) : out.envoy.resumed ≠ 0 :=
  Nat.pos_iff_ne_zero.1 (List.count_pos_iff.2 h)

theorem headersStatus_continue {a : Admission} : a.headersStatus = .continue ↔ a = .allow := by
  cases a <;> simp [Admission.headersStatus]

/-- The header callback applies a result, which is allowed or answered at once,
or waits. -/
inductive HeaderPhase (mode : Mode) (out : Outcome Verifier) : Prop where
  | decided (result : VerificationResult) (applied : out.envoy.applied = [result])
      (pending : out.filter.pending = none)
      (allow : out.status = .continue ↔ admission mode result = .allow)
      (reject : out.status = .stopIteration ↔ out.envoy.replies ≠ [])
      (status : out.status ≠ .stopAllIterationAndWatermark)
  | waits (applied : out.envoy.applied = []) (pending : out.filter.pending.isSome)
      (status : out.status = .stopAllIterationAndWatermark) (replies : out.envoy.replies = [])

theorem Early.headerPhase (h : Early filter headers result out) (hnone : filter.pending = none) :
    HeaderPhase filter.settings.mode out := by
  refine .decided result h.applied (by rw [h.restored, hnone]) (by rw [h.status, headersStatus_continue]) ?_ ?_
  · rw [h.status, replies_eq, h.decisions]
    cases admission filter.settings.mode result with
    | allow => exact ⟨nofun, fun hn => absurd rfl hn⟩
    | reject status challenge => exact ⟨fun _ => nofun, fun _ => rfl⟩
  · rw [h.status]
    cases admission filter.settings.mode result <;> exact nofun

theorem Waiting.headerPhase (h : Waiting headers out) (mode : Mode) : HeaderPhase mode out :=
  .waits h.applied h.pending h.status (by rw [replies_eq, h.decisions, List.filterMap_nil])

/-- What holds of a run's decision, however the run goes. -/
structure DecidedAtMostOnce (mode : Mode) (out : Outcome Verifier) : Prop where
  applied : out.envoy.applied.length ≤ 1
  resumed : out.envoy.resumed ≤ 1
  resumption : .continueDecoding ∈ out.envoy.calls → out.envoy.replies = [] ∧
    ∃ result, admission mode result = .allow ∧ out.envoy.decisions = [.applyResult result, .continueDecoding]
  required : out.proceeds → mode = .required → ∃ id, out.envoy.applied = [.verified id]
  optional : out.proceeds → mode = .optional →
    (∃ id, out.envoy.applied = [.verified id]) ∨ ∃ reason, out.envoy.applied = [.notPresent reason]

/-- One applied result, and what proceeds was allowed by it: the rest of
`DecidedAtMostOnce` follows. -/
theorem decidedAtMostOnce_of_applied {mode : Mode} (happlied : out.envoy.applied = [result])
    (hresumed : out.envoy.resumed ≤ 1) (hproceeds : out.proceeds → admission mode result = .allow)
    (hresumption : .continueDecoding ∈ out.envoy.calls → out.envoy.replies = [] ∧
      ∃ result, admission mode result = .allow ∧ out.envoy.decisions = [.applyResult result, .continueDecoding]) :
    DecidedAtMostOnce mode out where
  applied := by rw [happlied]; exact Nat.le_refl 1
  resumed := hresumed
  resumption := hresumption
  required hp hm := by
    subst hm
    obtain ⟨id, rfl⟩ := admission_required (hproceeds hp)
    exact ⟨id, happlied⟩
  optional hp hm := by
    subst hm
    obtain ⟨id, rfl⟩ | ⟨reason, rfl⟩ := admission_optional (hproceeds hp)
    · exact .inl ⟨id, happlied⟩
    · exact .inr ⟨reason, happlied⟩

theorem Early.decidedAtMostOnce (h : Early filter headers result out) :
    DecidedAtMostOnce filter.settings.mode out := by
  have hno : .continueDecoding ∉ out.envoy.calls := fun hm => absurd h.resumed (resumed_of_mem hm)
  refine decidedAtMostOnce_of_applied h.applied (by simp [h.resumed]) ?_ (fun hm => absurd hm hno)
  rintro (hs | hm)
  · rwa [h.status, headersStatus_continue] at hs
  · exact absurd hm hno

theorem Waiting.decidedAtMostOnce (h : Waiting headers out) (mode : Mode) : DecidedAtMostOnce mode out := by
  have hno : .continueDecoding ∉ out.envoy.calls := fun hm => absurd h.resumed (resumed_of_mem hm)
  have hstays : ¬ out.proceeds := by
    rintro (hs | hm)
    · rw [h.status] at hs; cases hs
    · exact hno hm
  exact ⟨by simp [h.applied], by simp [h.resumed], fun hm => absurd hm hno, fun hp => absurd hp hstays,
    fun hp => absurd hp hstays⟩

theorem Late.decidedAtMostOnce (h : Late filter headers result out) :
    DecidedAtMostOnce filter.settings.mode out := by
  have hallow : .continueDecoding ∈ out.envoy.calls → admission filter.settings.mode result = .allow ∧
      out.envoy.replies = [] := by
    intro hm
    rcases h.resumed with ⟨ha, -, hr⟩ | ⟨-, hz, -⟩
    · exact ⟨ha, hr⟩
    · exact absurd hz (resumed_of_mem hm)
  refine decidedAtMostOnce_of_applied h.applied ?_ ?_ ?_
  · rcases h.resumed with ⟨-, h1, -⟩ | ⟨-, h0, -⟩ <;> omega
  · rintro (hs | hm)
    · rw [h.status] at hs; cases hs
    · exact (hallow hm).1
  · intro hm
    refine ⟨(hallow hm).2, result, (hallow hm).1, ?_⟩
    rw [h.decisions, (hallow hm).1]
    rfl

variable (sfv : Sfv) (wba : WebBotAuth Verifier KeyRing) (c : UrlCrate) (wire : WireJson) (host : Host)

/-- A run is the header callback's run, then the callouts from where it ended. -/
theorem run_eq {filter : WebBotAuthFilter Verifier} {headers : HeaderMap Bytes} {endOfStream : Bool}
    (first : Outcome Verifier) (hfirst : filter.run sfv wba c wire host headers endOfStream [] = first)
    (callouts : List CalloutDone) :
    filter.run sfv wba c wire host headers endOfStream callouts =
      ⟨first.status, (onCallouts wba wire host first.filter first.envoy callouts).1,
        (onCallouts wba wire host first.filter first.envoy callouts).2⟩ := by
  subst hfirst; rfl

/-- A request is decided at most once: a result is applied by the header
callback, or by the first callout callback after it left the request pending.
Only that callback resumes the request, only if it is allowed, and never after
a local reply; later callbacks change nothing. What proceeds is verified, or in
optional mode unsigned. -/
theorem decided_once (settings : Settings) (outcomeCounter durationHistogram : Option Nat)
    (headers : HeaderMap Bytes) (endOfStream : Bool) (callouts : List CalloutDone) :
    let filter : WebBotAuthFilter Verifier := .new settings outcomeCounter durationHistogram
    let first := filter.run sfv wba c wire host headers endOfStream []
    let out := filter.run sfv wba c wire host headers endOfStream callouts
    HeaderPhase settings.mode first ∧ first.envoy.resumed = 0 ∧ out.status = first.status ∧
    DecidedAtMostOnce settings.mode out ∧
    (.continueDecoding ∈ out.envoy.calls → first.filter.pending.isSome ∧ callouts ≠ []) ∧
    (first.filter.pending = none → out = first) ∧
    ∀ done rest, callouts = done :: rest → out = filter.run sfv wba c wire host headers endOfStream [done] := by
  intro filter first out
  have hrun := run_eq sfv wba c wire host first rfl
  have hidle : first.filter.pending = none → out = first := by
    intro h
    exact (hrun callouts).trans (by rw [onCallouts_idle wba wire host h])
  have hfirst : HeaderPhase settings.mode first ∧ first.envoy.resumed = 0 := by
    rcases run_cases sfv wba c wire host filter rfl headers endOfStream [] with
      ⟨result, h⟩ | ⟨-, -, -, ⟨-, h⟩ | ⟨_, _, _, hnil, -⟩⟩
    · exact ⟨h.headerPhase rfl, h.resumed⟩
    · exact ⟨h.headerPhase _, h.resumed⟩
    · cases hnil
  have hnot : .continueDecoding ∉ first.envoy.calls := fun hm => absurd hfirst.2 (resumed_of_mem hm)
  refine ⟨hfirst.1, hfirst.2, rfl, ?_, fun hm => ⟨?_, ?_⟩, hidle, ?_⟩
  · rcases run_cases sfv wba c wire host filter rfl headers endOfStream callouts with
      ⟨result, h⟩ | ⟨-, -, -, ⟨-, h⟩ | ⟨_, _, result, -, h, -⟩⟩
    · exact h.decidedAtMostOnce
    · exact h.decidedAtMostOnce _
    · exact h.decidedAtMostOnce
  · by_contra hn
    rw [hidle (Option.not_isSome_iff_eq_none.1 hn)] at hm
    exact hnot hm
  · rintro rfl
    exact hnot hm
  · rintro done rest rfl
    rw [hrun [done], onCallouts_cons, ← onCallouts_cons wba wire host _ _ done rest]
    exact hrun (done :: rest)

end EnvoyWebBotAuth.Gateway
