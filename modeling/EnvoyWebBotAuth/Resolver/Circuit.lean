import EnvoyWebBotAuth.Resolver.Controls
/-!
# Streaks of failures

What a circuit has counted, as the list of the failures since the last success
(`circuitOf`): the counters saturate, the list does not.
-/
open EnvoyWebBotAuth.Lib EnvoyWebBotAuth.Protocol

namespace EnvoyWebBotAuth.Resolver

/-- A failure that was counted: when, with what the origin asked for, and what
`failure_backoff` answered. -/
structure Failure where
  now : Instant
  retryAfter : Option Duration
  backoff : Duration
  transition : Option CircuitTransition
  deriving DecidableEq, Repr

/-- How often the circuit was opened: by the third failure, and by every later one. -/
def openings (failures : List Failure) : Nat := failures.length - 2

/-- With these failures since the last success, the latest first, a circuit rejects. -/
def Rejects (failures : List Failure) (now : Instant) : Prop :=
  ∃ last earlier, failures = last :: earlier ∧ 3 ≤ failures.length ∧
    now < last.now + min (fromSecs 30 * 2 ^ min (openings earlier) 4) (fromSecs 300)

/-- `u32::MAX` -/
def maxU32 : Nat := 2 ^ 32 - 1

/-- The state of a circuit after the failures. -/
def circuitOf (failures : List Failure) : CircuitState where
  consecutiveFailures := min failures.length maxU32
  openCount := min (openings failures) maxU32
  openUntil :=
    match failures with
    | last :: earlier => if 3 ≤ failures.length then some (last.now + openFor (openings earlier)) else none
    | [] => none

/-- The failure that is counted after `earlier`. -/
def nextFailure (earlier : List Failure) (retryAfter : Option Duration) (now : Instant) : Failure where
  now := now
  retryAfter := retryAfter
  backoff := backoffFor (min (earlier.length + 1) maxU32) retryAfter
  transition := if 2 ≤ earlier.length then some .opened else none

/-- Each failure was counted after the earlier ones. -/
def Streak : List Failure → Prop
  | [] => True
  | f :: earlier => f = nextFailure earlier f.retryAfter f.now ∧ Streak earlier

variable {failures earlier : List Failure} {retryAfter : Option Duration} {now : Instant} {f : Failure}

theorem saturatingAdd_min (n : Nat) : saturatingAddU32 (min n maxU32) 1 = min (n + 1) maxU32 := by
  unfold saturatingAddU32 maxU32
  omega

/-- The schedule of the openings does not see the counter saturate. -/
theorem openFor_min (n : Nat) : openFor (min n maxU32) = openFor n := by
  have hmin : min (min n maxU32) 4 = min n 4 := by
    unfold maxU32
    omega
  unfold openFor
  rw [hmin]

theorem nextFailure_opened :
    (nextFailure earlier retryAfter now).transition = some .opened ↔ 2 ≤ earlier.length := by
  show (if 2 ≤ earlier.length then some CircuitTransition.opened else none) = some .opened ↔ _
  split
  · rename_i hlength
    exact ⟨fun _ => hlength, fun _ => rfl⟩
  · rename_i hlength
    exact ⟨by rintro ⟨⟩, fun h => absurd h hlength⟩

theorem openings_nextFailure :
    openings (nextFailure earlier retryAfter now :: earlier) =
      openings earlier + if 2 ≤ earlier.length then 1 else 0 := by
  unfold openings
  rw [List.length_cons]
  split <;> omega

/-- The openings are those that are reported. -/
theorem Streak.reported (h : Streak failures) :
    failures.countP (fun f => f.transition = some .opened) = openings failures := by
  induction failures with
  | nil => rfl
  | cons f earlier ih =>
    obtain ⟨hf, hearlier⟩ := h
    rw [hf, openings_nextFailure, List.countP_cons, ih hearlier]
    simp only [decide_eq_true_eq, nextFailure_opened]

/-- A circuit with less than three failures was never opened. -/
theorem circuitOf_closed (h : failures.length < 3) : (circuitOf failures).openUntil = none := by
  unfold circuitOf
  cases failures with
  | nil => rfl
  | cons last earlier => exact if_neg (by omega)

/-- A failure adds itself to the streak. -/
theorem circuitOf_failure (earlier : List Failure) (retryAfter : Option Duration) (now : Instant) :
    (circuitOf earlier).failure retryAfter now =
      (((nextFailure earlier retryAfter now).backoff, (nextFailure earlier retryAfter now).transition),
        circuitOf (nextFailure earlier retryAfter now :: earlier)) := by
  have hcount : saturatingAddU32 (circuitOf earlier).consecutiveFailures 1 = min (earlier.length + 1) maxU32 :=
    saturatingAdd_min _
  have hopen : saturatingAddU32 (circuitOf earlier).openCount 1 = min (openings earlier + 1) maxU32 :=
    saturatingAdd_min _
  have hfor : openFor (circuitOf earlier).openCount = openFor (openings earlier) := openFor_min _
  unfold CircuitState.failure
  simp only [hcount, hopen, hfor]
  by_cases h : 2 ≤ earlier.length
  · have hthree : 3 ≤ min (earlier.length + 1) maxU32 := by
      unfold maxU32
      omega
    have hlength : 3 ≤ earlier.length + 1 := by omega
    rw [if_pos hthree]
    simp only [circuitOf, openings_nextFailure, List.length_cons, if_pos h, if_pos hlength]
    simp only [nextFailure, if_pos h]
  · have hthree : ¬3 ≤ min (earlier.length + 1) maxU32 := by omega
    have hlength : ¬3 ≤ earlier.length + 1 := by omega
    rw [if_neg hthree, circuitOf_closed (by omega)]
    simp only [circuitOf, openings_nextFailure, List.length_cons, if_neg h, if_neg hlength, Nat.add_zero]
    simp only [nextFailure, if_neg h]

theorem circuitOf_isOpen : (circuitOf failures).isOpen now = true ↔ Rejects failures now := by
  unfold CircuitState.isOpen Rejects
  cases failures with
  | nil => simp [circuitOf]
  | cons last earlier =>
    simp only [circuitOf]
    by_cases h : 3 ≤ (last :: earlier).length
    · rw [if_pos h]
      simp only [Option.any_some, decide_eq_true_eq]
      constructor
      · intro hlt
        exact ⟨last, earlier, rfl, h, hlt⟩
      · rintro ⟨_, _, heq, -, hlt⟩
        cases heq
        exact hlt
    · rw [if_neg h]
      simp only [Option.any_none, Bool.false_eq_true, false_iff]
      rintro ⟨_, _, -, hle, -⟩
      exact h hle

/-! ## Backoffs -/

/-- What failures back off without a wish of the origin. -/
theorem backoffFor_none (n : Nat) : backoffFor n none = min (minFailureBackoff * 2 ^ min (n - 1) 6) maxFailureBackoff := by
  unfold backoffFor
  simp

theorem backoffFor_mono {m n : Nat} (h : m ≤ n) : backoffFor m none ≤ backoffFor n retryAfter := by
  have hpow : 2 ^ min (m - 1) 6 ≤ 2 ^ min (n - 1) 6 := Nat.pow_le_pow_right (by decide) (by omega)
  have hmul : minFailureBackoff * 2 ^ min (m - 1) 6 ≤ minFailureBackoff * 2 ^ min (n - 1) 6 :=
    Nat.mul_le_mul_left minFailureBackoff hpow
  rw [backoffFor_none]
  unfold backoffFor
  apply le_max_of_le_left
  exact min_le_min_right maxFailureBackoff hmul

theorem Streak.length_of_mem (h : Streak failures) (hf : f ∈ failures) :
    ∃ n, n < failures.length ∧ f.backoff = backoffFor (min (n + 1) maxU32) f.retryAfter := by
  induction failures with
  | nil => cases hf
  | cons last earlier ih =>
    rcases List.mem_cons.1 hf with rfl | hf
    · refine ⟨earlier.length, by simp, ?_⟩
      exact congrArg Failure.backoff h.1
    · obtain ⟨n, hn, hb⟩ := ih h.2 hf
      exact ⟨n, Nat.lt_succ_of_lt hn, hb⟩

/-- A later failure of a streak does not back off for less than an earlier one
without a wish of the origin. -/
theorem Streak.backoff_mono (h : Streak earlier) (hf : f ∈ earlier) (hr : f.retryAfter = none) (now : Instant) :
    f.backoff ≤ (nextFailure earlier retryAfter now).backoff := by
  obtain ⟨n, hn, hb⟩ := h.length_of_mem hf
  rw [hb, hr]
  apply backoffFor_mono
  omega

/-! ## How long a circuit stays open -/

theorem circuitOf_openUntil {u : Instant} (h : (circuitOf failures).openUntil = some u)
    (hn : ∀ f ∈ failures, f.now ≤ now) : u ≤ now + maxFailureBackoff := by
  cases failures with
  | nil => cases h
  | cons last earlier =>
    simp only [circuitOf] at h
    split at h
    · obtain rfl := Option.some.inj h
      have hlast := hn last List.mem_cons_self
      have hfor : openFor (openings earlier) ≤ maxFailureBackoff := openFor_le
      exact Nat.add_le_add hlast hfor
    · cases h

theorem coalescedFailureTtl_le : coalescedFailureTtl ≤ maxFailureBackoff := by decide

theorem remaining_le {state : CircuitState} (h : ∀ u, state.openUntil = some u → u ≤ now + maxFailureBackoff) :
    state.remaining now ≤ maxFailureBackoff := by
  unfold CircuitState.remaining
  -- rewritten with equations, since the kernel would count up to the duration
  rcases hu : state.openUntil with _ | u
  · rw [Option.bind_none, Option.getD_none]
    exact coalescedFailureTtl_le
  · by_cases hle : now ≤ u
    · rw [Option.bind_some, if_pos hle, Option.getD_some]
      exact Nat.sub_le_iff_le_add'.2 (h u hu)
    · rw [Option.bind_some, if_neg hle, Option.getD_none]
      exact coalescedFailureTtl_le

end EnvoyWebBotAuth.Resolver
