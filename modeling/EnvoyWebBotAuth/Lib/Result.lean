import Mathlib.Data.List.Basic
/-!
# Early returns

`Except` as Rust's `Result`: `?` is the bind, `okOr` is `ok_or`, and `ensure`
is the guard that returns an error early. The `_ok` lemmas take a successful
computation apart, one step of it at a time.
-/

namespace EnvoyWebBotAuth.Lib

variable {ε α β : Type}

def okOr (e : ε) : Option α → Except ε α
  | some a => .ok a
  | none => .error e

/-- Go on if `p` holds, else return the error. -/
def ensure (p : Prop) [Decidable p] (e : ε) : Except ε Unit := if p then .ok () else .error e

@[simp] theorem ok_bind (a : α) (f : α → Except ε β) : (Except.ok a >>= f) = f a := rfl

@[simp] theorem error_bind (e : ε) (f : α → Except ε β) : ((Except.error e : Except ε α) >>= f) = .error e := rfl

theorem bind_ok {x : Except ε α} {f : α → Except ε β} {b : β} :
    (x >>= f) = .ok b ↔ ∃ a, x = .ok a ∧ f a = .ok b := by
  cases x with
  | error e => simp
  | ok a => simp

theorem okOr_ok {e : ε} {o : Option α} {a : α} : okOr e o = .ok a ↔ o = some a := by
  cases o <;> simp [okOr]

theorem ensure_ok {p : Prop} [Decidable p] {e : ε} {u : Unit} : ensure p e = .ok u ↔ p := by
  unfold ensure; split <;> simp_all

theorem ensure_bind_ok {p : Prop} [Decidable p] {e : ε} {f : Unit → Except ε β} {b : β} :
    (ensure p e >>= f) = .ok b ↔ p ∧ f () = .ok b := by
  rw [bind_ok]
  constructor
  · rintro ⟨u, hp, h⟩
    exact ⟨ensure_ok.1 hp, h⟩
  · rintro ⟨hp, h⟩
    exact ⟨(), ensure_ok.2 hp, h⟩

/-- Each result of a loop that may fail is the result of one element. -/
theorem mapM_ok {f : α → Except ε β} {xs : List α} {ys : List β} (h : xs.mapM f = .ok ys) {y : β} (hy : y ∈ ys) :
    ∃ x ∈ xs, f x = .ok y := by
  induction xs generalizing ys with
  | nil =>
    obtain rfl := Except.ok.inj h
    cases hy
  | cons x xs ih =>
    simp only [List.mapM_cons, bind_ok] at h
    obtain ⟨z, hz, zs, hzs, h⟩ := h
    obtain rfl := Except.ok.inj h
    rcases List.mem_cons.1 hy with rfl | hy
    · exact ⟨x, List.mem_cons_self, hz⟩
    · obtain ⟨x', hx, hf⟩ := ih hzs hy
      exact ⟨x', List.mem_cons_of_mem x hx, hf⟩

/-- A loop has one result for each element. -/
theorem mapM_length {f : α → Except ε β} {xs : List α} {ys : List β} (h : xs.mapM f = .ok ys) :
    ys.length = xs.length := by
  induction xs generalizing ys with
  | nil =>
    obtain rfl := Except.ok.inj h
    rfl
  | cons x xs ih =>
    simp only [List.mapM_cons, bind_ok] at h
    obtain ⟨z, -, zs, hzs, h⟩ := h
    obtain rfl := Except.ok.inj h
    exact congrArg Nat.succ (ih hzs)

end EnvoyWebBotAuth.Lib
