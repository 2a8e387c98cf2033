import EnvoyWebBotAuth.Resolver.Refreshes
import EnvoyWebBotAuth.Resolver.Tasks
/-!
# Circuits and backoffs over whole runs

A run of refreshes has a streak, the transient failures since its last success.
The circuit is the one of the streak (`Counted`), and with that a refresh is
rejected, backs off and is good for as long as the streak says.
-/
open EnvoyWebBotAuth.Lib EnvoyWebBotAuth.Protocol

namespace EnvoyWebBotAuth.Resolver

variable {P L : Type}

/-! ## The history of a key -/

namespace Refresh

variable (r : Refresh P L)

def succeeded : Bool := r.outcome.result.isOk

/-- The transient error it ended with. -/
def transientError : Option FetchError :=
  match r.outcome.result with
  | .ok _ => none
  | .error error => if error.class = .transient then some error else none

def transient : Bool := r.transientError.isSome

/-- The failure it counted. -/
def failure : Option Failure := r.calls.findSome? failureOf

end Refresh

/-- What a refresh that failed counts as. -/
theorem Refresh.failed {r : Refresh P L} {error : FetchError} (h : r.outcome.result = .error error) :
    r.succeeded = false ∧ r.transientError = if error.class = .transient then some error else none := by
  rw [Refresh.succeeded, Refresh.transientError, h]
  exact ⟨rfl, rfl⟩

def sinceSuccess (rs : List (Refresh P L)) : List (Refresh P L) := rs.takeWhile (fun r => !r.succeeded)

/-- The transient failures since the last success. -/
def transientFailures (rs : List (Refresh P L)) : Nat := (sinceSuccess rs).countP Refresh.transient

/-- What they were answered. -/
def streak (rs : List (Refresh P L)) : List Failure := (sinceSuccess rs).filterMap Refresh.failure

theorem streak_succeeded {r : Refresh P L} (rs : List (Refresh P L)) (h : r.succeeded = true) :
    streak (r :: rs) = [] ∧ transientFailures (r :: rs) = 0 := by
  simp [streak, transientFailures, sinceSuccess, h]

theorem streak_failed {r : Refresh P L} (rs : List (Refresh P L)) (h : r.succeeded = false) :
    streak (r :: rs) = r.failure.toList ++ streak rs ∧
      transientFailures (r :: rs) = transientFailures rs + if r.transient then 1 else 0 := by
  simp only [streak, transientFailures, sinceSuccess, List.takeWhile_cons, h, Bool.not_false, if_true,
    List.filterMap_cons, List.countP_cons]
  cases r.failure <;> exact ⟨rfl, trivial⟩

/-! ## What holds of every refresh -/

/-- For how long an outcome is good. -/
def ValidFor (s : ResolverService P L) (key : ResourceKey) (r : Refresh P L) (period : Duration) : Prop :=
  match r.outcome.result with
  | .ok representation => period = if s.crates.policy.isStorable representation.policy then fromMillis 50 else 0
  | .error error =>
    match error.class with
    | .transient => r.failure.map Failure.backoff = some period
    | .circuitOpen => ∃ c ∈ r.calls, c.op = .circuitRemaining key ∧
        period = (c.before.controls.circuit key).remaining c.before.instant
    | .permanent | .loadShed => period = coalescedFailureTtl

/-- What is to hold of a refresh that came after `earlier`. -/
structure RefreshHolds (s : ResolverService P L) (key : ResourceKey) (earlier : List (Refresh P L)) (r : Refresh P L) :
    Prop where
  /-- It is rejected as the streak says, and then spends nothing. -/
  rejected : ∃ w rest, r.calls = asked key w :: rest ∧
    ((w.controls.checkCircuit key w.instant).1 = .error (.new .circuitOpen) ↔ Rejects (streak earlier) w.instant) ∧
    (Rejects (streak earlier) w.instant →
      r.outcome.result = .error (.new .circuitOpen) ∧ ∀ c ∈ r.calls, Spares key c)
  changed : r.after.controls.circuit key ≠ r.before.controls.circuit key → r.succeeded = true ∨ r.transient = true
  /-- It counts a failure if it ended with a transient error. -/
  counted : r.failure.map Failure.retryAfter = r.transientError.map FetchError.retryAfter
  /-- That opens the circuit if two were counted before. -/
  opened (f : Failure) : r.failure = some f → (f.transition = some .opened ↔ 2 ≤ transientFailures earlier)
  backoff (f : Failure) : r.failure = some f →
    fromSecs 5 ≤ f.backoff ∧ f.backoff ≤ fromSecs 300 ∧ min (f.retryAfter.getD 0) (fromSecs 300) ≤ f.backoff ∧
      ∀ e ∈ streak earlier, e.retryAfter = none → e.backoff ≤ f.backoff
  valid : ∃ period, r.outcome.validUntil = r.after.instant + period ∧ period ≤ fromSecs 300 ∧ ValidFor s key r period

/-- What is to hold of a circuit after refreshes of its key. -/
structure CircuitHolds (key : ResourceKey) (rs : List (Refresh P L)) (w : World P L) : Prop where
  failures : (w.controls.circuit key).consecutiveFailures = min (transientFailures rs) (2 ^ 32 - 1)
  counted : (streak rs).length = transientFailures rs
  /-- The openings are those that were reported. -/
  reported : (streak rs).countP (fun f => f.transition = some .opened) = openings (streak rs)
  rejects : (w.controls.checkCircuit key w.instant).1 = .error (.new .circuitOpen) ↔ Rejects (streak rs) w.instant

/-- The circuit is the one of the streak. -/
structure Counted (key : ResourceKey) (rs : List (Refresh P L)) (w : World P L) : Prop where
  circuit : w.controls.circuit key = circuitOf (streak rs)
  inOrder : Streak (streak rs)
  length : (streak rs).length = transientFailures rs
  past : ∀ f ∈ streak rs, f.now ≤ w.instant

section Counting

variable {s : ResolverService P L} {key : ResourceKey} {rs : List (Refresh P L)} {w w' : World P L}

theorem Counted.others (h : Counted key rs w) (ho : Others key w w') : Counted key rs w' where
  circuit := ho.circuit.trans h.circuit
  inOrder := h.inOrder
  length := h.length
  past := fun f hf => Nat.le_trans (h.past f hf) ho.instant

theorem Counted.rejects (h : Counted key rs w) :
    (w.controls.checkCircuit key w.instant).1 = .error (.new .circuitOpen) ↔ Rejects (streak rs) w.instant := by
  unfold WorkControls.checkCircuit
  rw [h.circuit, ← circuitOf_isOpen]
  cases ho : (circuitOf (streak rs)).isOpen w.instant <;> simp

theorem Counted.holds (h : Counted key rs w) : CircuitHolds key rs w where
  failures := by
    rw [h.circuit, ← h.length]
    rfl
  counted := h.length
  reported := h.inOrder.reported
  rejects := h.rejects

theorem Counted.start (wall : SystemTime) (instant : Instant) : Counted key [] (World.start s wall instant) where
  circuit := rfl
  inOrder := trivial
  length := rfl
  past := by
    rintro f ⟨⟩

variable {t : Nat} {r : Refresh P L} {w₁ : World P L} {first last : List (Performed (Op P) Ans (World P L))}
  {result : Except FetchError (Representation P)}

theorem asked_spares : Spares key (asked key w) := ⟨.inl rfl, _, rfl⟩

/-- A refresh is rejected as its streak says, and ends at once. -/
theorem Attempt.rejected_iff (a : Attempt s t key r w₁ w first last result) (h : Counted key rs r.before) :
    ∃ w rest, r.calls = asked key w :: rest ∧
      ((w.controls.checkCircuit key w.instant).1 = .error (.new .circuitOpen) ↔ Rejects (streak rs) w.instant) ∧
      (Rejects (streak rs) w.instant →
        r.outcome.result = .error (.new .circuitOpen) ∧ ∀ c ∈ r.calls, Spares key c) := by
  have hiff := (h.others a.checked).rejects
  refine ⟨w₁, first ++ last, a.calls, hiff, ?_⟩
  intro hrejects
  obtain ⟨hfirst, hresult⟩ := a.rejected (hiff.2 hrejects)
  have hsettled := a.settled
  rw [hresult] at hsettled
  obtain ⟨w₂, -, -, hlast, houtcome⟩ := open_run rfl hsettled
  refine ⟨by rw [houtcome], ?_⟩
  rw [a.calls, hfirst, hlast]
  intro c hc
  simp only [List.nil_append, List.mem_cons, List.not_mem_nil, or_false] at hc
  rcases hc with rfl | rfl | rfl
  · exact asked_spares
  · exact ⟨.inr (.inl rfl), _, rfl⟩
  · exact ⟨.inr (.inr rfl), _, rfl⟩

theorem Attempt.before (a : Attempt s t key r w₁ w first last result) : Others key r.before w := a.checked.trans a.began

theorem Attempt.failure_eq (a : Attempt s t key r w₁ w first last result) : r.failure = last.findSome? failureOf := by
  unfold Refresh.failure
  rw [a.calls, List.findSome?_cons]
  simp [asked, failureOf, List.findSome?_append, a.failure]

theorem Counted.after_success (hs : r.succeeded = true) (hc : r.after.controls.circuit key = {}) :
    Counted key (r :: rs) r.after := by
  obtain ⟨hstreak, hcount⟩ := streak_succeeded rs hs
  refine ⟨?_, ?_, ?_, ?_⟩ <;> rw [hstreak]
  · exact hc
  · trivial
  · rw [hcount]
    rfl
  · rintro f ⟨⟩

theorem Counted.after_failure (h : Counted key rs r.before) {f : Failure} (hs : r.succeeded = false)
    (ht : r.transient = true) (hf : r.failure = some f) (hnext : f = nextFailure (streak rs) f.retryAfter f.now)
    (hc : r.after.controls.circuit key = circuitOf (f :: streak rs)) (hnow : f.now ≤ r.after.instant)
    (hle : r.before.instant ≤ r.after.instant) : Counted key (r :: rs) r.after := by
  obtain ⟨hstreak, hcount⟩ := streak_failed rs hs
  rw [hf, Option.toList_some, List.singleton_append] at hstreak
  refine ⟨?_, ?_, ?_, ?_⟩ <;> rw [hstreak]
  · exact hc
  · exact ⟨hnext, h.inOrder⟩
  · rw [hcount, ht, List.length_cons, h.length]
    rfl
  · intro e he
    rcases List.mem_cons.1 he with rfl | he
    · exact hnow
    · exact Nat.le_trans (h.past e he) hle

/-- What counts nothing leaves the streak. -/
theorem Counted.after_other (h : Counted key rs r.before) (ho : Others key r.before r.after) (hs : r.succeeded = false)
    (ht : r.transientError = none) (hf : r.failure = none) : Counted key (r :: rs) r.after := by
  obtain ⟨hstreak, hcount⟩ := streak_failed rs hs
  have htransient : r.transient = false := by rw [Refresh.transient, ht, Option.isSome_none]
  have hafter := h.others ho
  rw [hf, Option.toList_none, List.nil_append] at hstreak
  rw [htransient] at hcount
  refine ⟨?_, ?_, ?_, ?_⟩ <;> rw [hstreak]
  · exact hafter.circuit
  · exact hafter.inOrder
  · exact hafter.length.trans hcount.symm
  · exact hafter.past

/-- A refresh that counts no failure. -/
theorem holds_uncounted (ht : r.transientError = none) (hf : r.failure = none)
    (a : Attempt s t key r w₁ w first last result) (h : Counted key rs r.before)
    (hchanged : r.after.controls.circuit key ≠ r.before.controls.circuit key → r.succeeded = true ∨ r.transient = true)
    (hv : ∃ period, r.outcome.validUntil = r.after.instant + period ∧ period ≤ fromSecs 300 ∧ ValidFor s key r period) :
    RefreshHolds s key rs r where
  rejected := a.rejected_iff h
  changed := hchanged
  counted := by rw [ht, hf]; rfl
  opened := by
    intro f hsome
    rw [hf] at hsome
    cases hsome
  backoff := by
    intro f hsome
    rw [hf] at hsome
    cases hsome
  valid := hv

theorem Attempt.success (a : Attempt s t key r w₁ w first last result) (h : Counted key rs r.before)
    {representation : Representation P} (hresult : result = .ok representation) :
    Counted key (r :: rs) r.after ∧ RefreshHolds s key rs r := by
  have hsettled := a.settled
  rw [hresult] at hsettled
  obtain ⟨houtcome, hcircuit, -, hnone⟩ := success_run hsettled
  have hs : r.succeeded = true := by rw [Refresh.succeeded, houtcome]; rfl
  have ht : r.transientError = none := by rw [Refresh.transientError, houtcome]
  have hf : r.failure = none := by rw [a.failure_eq, hnone]
  refine ⟨.after_success hs hcircuit, holds_uncounted ht hf a h (fun _ => .inl hs) ?_⟩
  refine ⟨if s.crates.policy.isStorable representation.policy then fromMillis 50 else 0, ?_, ?_, ?_⟩
  · rw [houtcome]
  · split <;> decide
  · unfold ValidFor
    rw [houtcome]

theorem Attempt.transient (a : Attempt s t key r w₁ w first last result) (h : Counted key rs r.before) {error : FetchError}
    (hresult : result = .error error) (hc : error.class = .transient) :
    Counted key (r :: rs) r.after ∧ RefreshHolds s key rs r := by
  have hsettled := a.settled
  rw [hresult] at hsettled
  obtain ⟨now, backoff, transition, hfrom, hto, hfailure, hsome, houtcome⟩ := transient_run hc hsettled
  rw [(h.others a.before).circuit, circuitOf_failure] at hfailure
  obtain ⟨hanswer, hcircuit⟩ := Prod.mk.inj hfailure
  obtain ⟨hbackoff, htransition⟩ := Prod.mk.inj hanswer
  have hnext : (⟨now, error.retryAfter, backoff, transition⟩ : Failure) =
      nextFailure (streak rs) error.retryAfter now := by
    rw [← hbackoff, ← htransition]
    rfl
  have hf : r.failure = some ⟨now, error.retryAfter, backoff, transition⟩ := by rw [a.failure_eq, hsome]
  obtain ⟨hs, ht⟩ := r.failed (congrArg RefreshOutcome.result houtcome)
  rw [if_pos hc] at ht
  refine ⟨?_, ?_⟩
  · refine h.after_failure hs ?_ hf hnext ?_ hto ?_
    · rw [Refresh.transient, ht, Option.isSome_some]
    · rw [← hcircuit, hnext]
    · exact Nat.le_trans a.before.instant (Nat.le_trans hfrom hto)
  · have hmost : backoff ≤ maxFailureBackoff := hbackoff ▸ backoffFor_le
    exact
      { rejected := a.rejected_iff h
        changed := fun _ => .inr (by rw [Refresh.transient, ht, Option.isSome_some])
        counted := by rw [ht, hf]; rfl
        opened := by
          intro f heq
          obtain rfl := Option.some.inj (hf.symm.trans heq)
          rw [hnext, ← h.length]
          exact nextFailure_opened
        backoff := by
          intro f heq
          obtain rfl := Option.some.inj (hf.symm.trans heq)
          refine ⟨hbackoff ▸ backoffFor_ge, hmost, hbackoff ▸ backoffFor_retryAfter, ?_⟩
          intro e he hr
          rw [← hbackoff]
          exact h.inOrder.backoff_mono he hr now
        valid := by
          refine ⟨backoff, ?_, hmost, ?_⟩
          · rw [houtcome]
          · unfold ValidFor
            rw [houtcome, hf]
            simp only [hc]
            rfl }

theorem Attempt.circuitOpen (a : Attempt s t key r w₁ w first last result) (h : Counted key rs r.before)
    {error : FetchError} (hresult : result = .error error) (hc : error.class = .circuitOpen) :
    Counted key (r :: rs) r.after ∧ RefreshHolds s key rs r := by
  have hsettled := a.settled
  rw [hresult] at hsettled
  obtain ⟨w₂, ho, ho', hlast, houtcome⟩ := open_run hc hsettled
  have hothers : Others key r.before r.after := a.before.trans (ho.trans ho')
  obtain ⟨hs, ht⟩ := r.failed (congrArg RefreshOutcome.result houtcome)
  rw [if_neg (by rw [hc]; decide)] at ht
  have hf : r.failure = none := by
    rw [a.failure_eq, hlast]
    rfl
  refine ⟨h.after_other hothers hs ht hf, holds_uncounted ht hf a h (fun hne => absurd hothers.circuit hne) ?_⟩
  refine ⟨(w₂.controls.circuit key).remaining w₂.instant, ?_, ?_, ?_⟩
  · rw [houtcome]
  · have hcounted := h.others (a.before.trans ho)
    rw [hcounted.circuit]
    exact remaining_le fun u hu => circuitOf_openUntil hu hcounted.past
  · unfold ValidFor
    rw [houtcome]
    simp only [hc]
    refine ⟨askedRemaining key w₂, ?_, rfl, rfl⟩
    rw [a.calls, hlast]
    simp

theorem Attempt.short (a : Attempt s t key r w₁ w first last result) (h : Counted key rs r.before) {error : FetchError}
    (hresult : result = .error error) (hc : error.class = .permanent ∨ error.class = .loadShed) :
    Counted key (r :: rs) r.after ∧ RefreshHolds s key rs r := by
  have hsettled := a.settled
  rw [hresult] at hsettled
  obtain ⟨ho, hlast, houtcome⟩ := short_run hc hsettled
  have hothers : Others key r.before r.after := a.before.trans ho
  obtain ⟨hs, ht⟩ := r.failed (congrArg RefreshOutcome.result houtcome)
  rw [if_neg (by rcases hc with hc | hc <;> rw [hc] <;> decide)] at ht
  have hf : r.failure = none := by
    rw [a.failure_eq, hlast]
    rfl
  refine ⟨h.after_other hothers hs ht hf, holds_uncounted ht hf a h (fun hne => absurd hothers.circuit hne) ?_⟩
  refine ⟨coalescedFailureTtl, ?_, coalescedFailureTtl_le, ?_⟩
  · rw [houtcome]
  · unfold ValidFor
    rw [houtcome]
    rcases hc with hc | hc <;> simp only [hc]

/-- One refresh, whatever its result. -/
theorem Counted.step (h : Counted key rs r.before) {previous : Option (Representation P)}
    (hr : RunsAmong s t key (refresh s key previous) r.before r.calls r.outcome r.after) :
    Counted key (r :: rs) r.after ∧ RefreshHolds s key rs r := by
  obtain ⟨w₁, w, first, last, result, a⟩ := refresh_attempt hr
  cases hresult : result with
  | ok representation => exact a.success h hresult
  | error error =>
    cases hc : error.class with
    | transient => exact a.transient h hresult hc
    | circuitOpen => exact a.circuitOpen h hresult hc
    | permanent => exact a.short h hresult (.inl hc)
    | loadShed => exact a.short h hresult (.inr hc)

theorem Refreshed.counted (h : Refreshed s key rs w) : Counted key rs w := by
  induction h with
  | start wall instant => exact .start wall instant
  | others _ ho ih => exact ih.others ho
  | refresh _ hr ih => exact (ih.step hr).1

/-- In every run of refreshes of a key the circuit counts the transient
failures since the last success, rejects as their schedule says, and every
refresh backs off and is good for as long as its error says. -/
theorem circuit_and_backoff (h : Refreshed s key rs w) :
    CircuitHolds key rs w ∧ ∀ newer r earlier, rs = newer ++ r :: earlier → RefreshHolds s key earlier r := by
  refine ⟨h.counted.holds, ?_⟩
  induction h with
  | start => simp
  | others _ _ ih => exact ih
  | @refresh rs r' t previous hbefore hr ih =>
    intro newer r earlier heq
    cases newer with
    | nil =>
      obtain ⟨rfl, rfl⟩ := List.cons.inj heq
      exact (hbefore.counted.step hr).2
    | cons _ newer =>
      obtain ⟨rfl, rfl⟩ := List.cons.inj heq
      exact ih newer r earlier rfl

end Counting

/-! ## Five refreshes -/

def sampleRefresh (w : World SamplePolicy Unit) (replies : List Outside) : Option (Refresh SamplePolicy Unit) :=
  (Prog.play (World.exec sampleService 0) (refresh sampleService sampleKey none) replies w).map fun r =>
    ⟨w, r.1, r.2.1, r.2.2⟩

/-- The refreshes at these times with these replies, the latest first, and the world after them. -/
def sampleRefreshes : List (Instant × List Outside) →
    Option (List (Refresh SamplePolicy Unit) × World SamplePolicy Unit)
  | [] => some ([], World.start sampleService 0 0)
  | (now, replies) :: earlier =>
    (sampleRefreshes earlier).bind fun past =>
      if past.2.instant ≤ now then
        (sampleRefresh { past.2 with instant := now } replies).map fun r => (r :: past.1, r.after)
      else none

theorem sampleRefreshes_refreshed : ∀ replies rs w, sampleRefreshes replies = some (rs, w) →
    Refreshed sampleService sampleKey rs w := by
  intro replies
  induction replies with
  | nil =>
    intro rs w h
    cases h
    exact .start 0 0
  | cons reply earlier ih =>
    intro rs w h
    rw [sampleRefreshes, Option.bind_eq_some_iff] at h
    obtain ⟨⟨past, before⟩, hpast, h⟩ := h
    split at h
    · rename_i hle
      obtain ⟨r, hr, heq⟩ := Option.map_eq_some_iff.1 h
      obtain ⟨rfl, rfl⟩ := Prod.mk.inj heq
      rw [sampleRefresh] at hr
      obtain ⟨⟨calls, outcome, after⟩, hplay, rfl⟩ := Option.map_eq_some_iff.1 hr
      have hlater : Others sampleKey before { before with instant := reply.1 } := ⟨hle, rfl⟩
      exact ((ih past before hpast).others hlater).refresh (Prog.play_runs .refl hplay)
    · cases h

/-- The lookup of a refresh fails. -/
def dnsFails : List Outside :=
  [.silent, .silent, .addresses (.error (.new .dns)), .silent, .silent, .silent]

/-- Three refreshes whose lookups fail, one that fails when the circuit lets it
pass, and one that is rejected. -/
def locksOut : List (Instant × List Outside) :=
  [(fromSecs 89, List.replicate 3 .silent), (fromSecs 30, dnsFails), (0, dnsFails), (0, dnsFails), (0, dnsFails)]

def Refresh.error (r : Refresh P L) : Option FetchErrorKind :=
  match r.outcome.result with
  | .ok _ => none
  | .error error => some error.kind

/-- The third failure opens the circuit for half a minute, the fourth for a
minute: then a refresh is rejected, and its outcome is good for as long as the
circuit is open. -/
theorem circuit_and_backoff_sample : ∃ rs w, Refreshed sampleService sampleKey rs w ∧ CircuitHolds sampleKey rs w ∧
    transientFailures rs = 4 ∧ openings (streak rs) = 2 ∧ w.instant = fromSecs 89 ∧ Rejects (streak rs) w.instant ∧
    rs.map (fun r => (r.error, r.outcome.validUntil)) = [(some .circuitOpen, fromSecs 90), (some .dns, fromSecs 70),
      (some .dns, fromSecs 20), (some .dns, fromSecs 10), (some .dns, fromSecs 5)] := by
  have hrun : (sampleRefreshes locksOut).map (fun run =>
      (transientFailures run.1, run.1.map (fun r => (r.error, r.outcome.validUntil)))) =
    some (4, [(some .circuitOpen, fromSecs 90), (some .dns, fromSecs 70), (some .dns, fromSecs 20),
      (some .dns, fromSecs 10), (some .dns, fromSecs 5)]) := by decide +kernel
  have hstate : (sampleRefreshes locksOut).map (fun run => (openings (streak run.1), run.2.instant,
      (run.2.controls.circuit sampleKey).isOpen run.2.instant)) = some (2, fromSecs 89, true) := by decide +kernel
  obtain ⟨⟨rs, w⟩, hrun, heq⟩ := Option.map_eq_some_iff.1 hrun
  rw [hrun] at hstate
  simp only [Option.map_some, Option.some.injEq, Prod.mk.injEq] at heq hstate
  obtain ⟨hcount, houtcomes⟩ := heq
  obtain ⟨hopenings, hinstant, hopen⟩ := hstate
  have hrefreshed := sampleRefreshes_refreshed locksOut rs w hrun
  have hholds := (circuit_and_backoff hrefreshed).1
  refine ⟨rs, w, hrefreshed, hholds, hcount, hopenings, hinstant, hholds.rejects.1 ?_, houtcomes⟩
  rw [WorkControls.checkCircuit, if_pos hopen]

end EnvoyWebBotAuth.Resolver
