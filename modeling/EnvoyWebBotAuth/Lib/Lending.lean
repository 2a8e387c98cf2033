import EnvoyWebBotAuth.Lib.Conduct
/-!
# Lending

Permits of a semaphore: a list of the shared state has the threads that took
one. If calls take and give back as what a thread holds says, then in every run
what is lent is what the live threads hold (`Follows.lent`), so no permit is
lost with a thread that is dropped, and none is lent twice.
-/

namespace EnvoyWebBotAuth.Lib

namespace Conduct

variable {Op : Type} {Ans : Op → Type} {C X E W α σ : Type}

variable (d : Conduct Op Ans σ) (S : System Op Ans C X E W α)

/-- Calls lend from a list of the shared state, which has room for `cap`, and
give back to it as what a thread holds says. -/
structure Lends (holders : W → List Nat) (holds : σ → Prop) (cap : Nat) : Prop where
  start : ¬ holds d.start
  done : ∀ x, d.done x → ¬ holds x
  exec : ∀ t x o y a w w', d.may x o → S.exec t o y w = some (a, w') →
    (holders w' = holders w ∧ (holds (d.move x o a) ↔ holds x)) ∨
    (holders w' = t :: holders w ∧ (holders w).length < cap ∧ holds (d.move x o a) ∧ ¬ holds x) ∨
    (holders w' = (holders w).erase t ∧ ¬ holds (d.move x o a))
  release : ∀ t w, holders (S.release t w) = (holders w).erase t
  env : ∀ e w w', S.env e w = some w' → holders w' = holders w

/-- The list has each thread that holds once, and no other. -/
structure Lent (holders : W → List Nat) (holds : σ → Prop) (cap : Nat) (w : W) (τ : Nat → Option σ) : Prop where
  nodup : (holders w).Nodup
  room : (holders w).length ≤ cap
  mem : ∀ t, t ∈ holders w ↔ ∃ x, τ t = some x ∧ holds x

variable {d S} {t : Nat} {budget : C → Nat} {holders : W → List Nat} {holds : σ → Prop} {cap : Nat} {w w' : W} {τ τ' : Nat → Option σ}

theorem Lent.start (h : holders w = []) : Lent holders holds cap w (fun _ => none) where
  nodup := by
    rw [h]
    exact List.nodup_nil
  room := by
    rw [h]
    exact Nat.zero_le cap
  mem t := by
    rw [h]
    simp

/-- What thread `t` does changes the list for it alone. -/
theorem Lent.update (h : Lent holders holds cap w τ) {q : Option σ} (hn : (holders w').Nodup)
    (hroom : (holders w').length ≤ cap) (hother : ∀ t', t' ≠ t → (t' ∈ holders w' ↔ t' ∈ holders w))
    (hself : t ∈ holders w' ↔ ∃ x, q = some x ∧ holds x) :
    Lent holders holds cap w' (Function.update τ t q) := by
  refine ⟨hn, hroom, fun t' => ?_⟩
  by_cases ht : t' = t
  · subst ht
    rw [Function.update_self]
    exact hself
  · rw [Function.update_of_ne ht, hother t' ht]
    exact h.mem t'

theorem Lent.same (h : Lent holders holds cap w τ) (hw : holders w' = holders w) {q : Option σ}
    (hq : (∃ x, q = some x ∧ holds x) ↔ ∃ x, τ t = some x ∧ holds x) :
    Lent holders holds cap w' (Function.update τ t q) := by
  apply h.update
  · rw [hw]
    exact h.nodup
  · rw [hw]
    exact h.room
  · intro t' _
    rw [hw]
  · rw [hw, hq]
    exact h.mem t

theorem Lent.erased (h : Lent holders holds cap w τ) (hw : holders w' = (holders w).erase t) {q : Option σ}
    (hq : ¬ ∃ x, q = some x ∧ holds x) : Lent holders holds cap w' (Function.update τ t q) := by
  apply h.update
  · rw [hw]
    exact h.nodup.erase t
  · rw [hw]
    exact Nat.le_trans List.length_erase_le h.room
  · intro t' ht
    rw [hw]
    exact List.mem_erase_of_ne ht
  · rw [hw, h.nodup.mem_erase_iff]
    simp only [ne_eq, not_true_eq_false, false_and, false_iff]
    exact hq

theorem Lends.moves (hl : d.Lends S holders holds cap) (h : Lent holders holds cap w τ)
    (hm : d.Moves S w τ w' τ') : Lent holders holds cap w' τ' := by
  cases hm with
  | call t ht =>
    apply h.same rfl
    simp [ht, hl.start]
  | turn t x o y a w' ht hmay he =>
    rcases hl.exec t x o y a w w' hmay he with ⟨hw, hx⟩ | ⟨hw, hroom, hx, hno⟩ | ⟨hw, hx⟩
    · apply h.same hw
      simp [ht, hx]
    · have hnot : t ∉ holders w := by
        rw [h.mem t]
        simp [ht, hno]
      apply h.update
      · rw [hw]
        exact List.nodup_cons.2 ⟨hnot, h.nodup⟩
      · rw [hw]
        exact hroom
      · intro t' hne
        rw [hw]
        simp [hne]
      · rw [hw]
        simp [hx]
    · apply h.erased hw
      simp [hx]
  | finish t x ht hdone =>
    apply h.same rfl
    simp [ht, hl.done x hdone]
  | drop t x ht =>
    apply h.erased (hl.release t w)
    simp
  | env e w' he =>
    have hw := hl.env e w w' he
    refine ⟨?_, ?_, fun t => ?_⟩
    · rw [hw]
      exact h.nodup
    · rw [hw]
      exact h.room
    · rw [hw]
      exact h.mem t

/-- So many threads hold. -/
theorem Lent.le_length_iff (h : Lent holders holds cap w τ) (n : Nat) :
    n ≤ (holders w).length ↔ ∃ ts : List Nat, ts.Nodup ∧ n ≤ ts.length ∧ ∀ t ∈ ts, ∃ x, τ t = some x ∧ holds x := by
  constructor
  · intro hn
    exact ⟨holders w, h.nodup, hn, fun t ht => (h.mem t).1 ht⟩
  · rintro ⟨ts, hnodup, hn, hts⟩
    have hsub : ts ⊆ holders w := fun t ht => (h.mem t).2 (hts t ht)
    exact Nat.le_trans hn (hnodup.subperm hsub).length_le

/-- In every run, what is lent is what the live threads hold. -/
theorem Follows.lent (hS : d.Follows S budget) (hl : d.Lends S holders holds cap) (hw : holders w = [])
    {s : Machine Op Ans C W α} (h : S.Reachable w s) : Lent holders holds cap s.world (d.held s) :=
  hS.invariant (Lent.start hw) (fun _ _ _ _ h hm => hl.moves h hm) h

end Conduct

end EnvoyWebBotAuth.Lib
