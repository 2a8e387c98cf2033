import EnvoyWebBotAuth.Lib.Prog
/-!
# Programs that run to their end

A run of one program among others. Before each of its calls the world may
change as `others` says, and `exec` says what the call does.
-/

namespace EnvoyWebBotAuth.Lib

/-- A call that was made, with the worlds it found and left. -/
structure Performed (Op : Type) (Ans : Op → Type) (W : Type) where
  before : W
  op : Op
  answer : Ans op
  after : W

namespace Prog

variable {Op W X : Type} {Ans : Op → Type} {α β ε : Type}

/-- The program makes no calls but those of `p`. -/
def Within (p : Op → Prop) : Prog Op Ans α → Prop
  | ret _ => True
  | op o k => p o ∧ ∀ a, (k a).Within p

section Within

variable {p : Op → Prop}

theorem Within.bind {q : Prog Op Ans α} {f : α → Prog Op Ans β} (hq : q.Within p) (hf : ∀ x, (f x).Within p) :
    (q >>= f).Within p := by
  induction q with
  | ret x => exact hf x
  | op o k ih => exact ⟨hq.1, fun a => ih a (hq.2 a)⟩

theorem Within.orReturn {r : Except ε α} {f : α → Prog Op Ans (Except ε β)} (hf : ∀ x, (f x).Within p) :
    (Prog.orReturn r f).Within p := by
  cases r with
  | ok x => exact hf x
  | error e => trivial

end Within

/-- The program comes to its end with these calls, this result and this world. -/
inductive Runs (exec : (o : Op) → W → Ans o → W → Prop) (others : W → W → Prop) :
    Prog Op Ans α → W → List (Performed Op Ans W) → α → W → Prop
  | ret {x : α} {w : W} : Runs exec others (.ret x) w [] x w
  | op {o : Op} {k : Ans o → Prog Op Ans α} {w w₁ w₂ w' : W} {a : Ans o} {calls : List (Performed Op Ans W)} {x : α} :
      others w w₁ → exec o w₁ a w₂ → Runs exec others (k a) w₂ calls x w' →
      Runs exec others (.op o k) w (⟨w₁, o, a, w₂⟩ :: calls) x w'

section Runs

variable {exec : (o : Op) → W → Ans o → W → Prop} {others : W → W → Prop} {w w' : W}
  {calls : List (Performed Op Ans W)}

theorem Runs.of_ret {x y : α} (h : Runs exec others (.ret x) w calls y w') : calls = [] ∧ y = x ∧ w' = w := by
  cases h
  exact ⟨rfl, rfl, rfl⟩

theorem Runs.of_op {o : Op} {k : Ans o → Prog Op Ans α} {x : α} (h : Runs exec others (.op o k) w calls x w') :
    ∃ w₁ a w₂ rest, calls = ⟨w₁, o, a, w₂⟩ :: rest ∧ others w w₁ ∧ exec o w₁ a w₂ ∧ Runs exec others (k a) w₂ rest x w' := by
  cases h with
  | op hw he hr => exact ⟨_, _, _, _, rfl, hw, he, hr⟩

theorem Runs.of_bind {q : Prog Op Ans α} {f : α → Prog Op Ans β} {y : β}
    (h : Runs exec others (q >>= f) w calls y w') :
    ∃ first rest x w₁, calls = first ++ rest ∧ Runs exec others q w first x w₁ ∧ Runs exec others (f x) w₁ rest y w' := by
  induction q generalizing w calls with
  | ret x => exact ⟨[], calls, x, w, rfl, .ret, h⟩
  | op o k ih =>
    rw [op_bind] at h
    obtain ⟨w₁, a, w₂, rest, rfl, hw, he, hr⟩ := h.of_op
    obtain ⟨first, rest, x, w₃, rfl, hq, hf⟩ := ih a hr
    exact ⟨_ :: first, rest, x, w₃, rfl, .op hw he hq, hf⟩

theorem Runs.ops {p : Op → Prop} {q : Prog Op Ans α} {x : α} (h : Runs exec others q w calls x w') (hq : q.Within p) :
    ∀ c ∈ calls, p c.op := by
  induction h with
  | ret => simp
  | op _ _ _ ih =>
    intro c hc
    rcases List.mem_cons.1 hc with rfl | hc
    · exact hq.1
    · exact ih (hq.2 _) c hc

/-- What the others and the calls of a program keep, its run keeps. -/
theorem Runs.related {p : Op → Prop} {R : W → W → Prop} (hrefl : ∀ w, R w w)
    (htrans : ∀ w₁ w₂ w₃, R w₁ w₂ → R w₂ w₃ → R w₁ w₃) (hothers : ∀ w₁ w₂, others w₁ w₂ → R w₁ w₂)
    (hexec : ∀ o w₁ a w₂, p o → exec o w₁ a w₂ → R w₁ w₂) {q : Prog Op Ans α} {x : α}
    (h : Runs exec others q w calls x w') (hq : q.Within p) : R w w' := by
  induction h with
  | ret => exact hrefl _
  | op hw he _ ih =>
    refine htrans _ _ _ (hothers _ _ hw) (htrans _ _ _ ?_ (ih (hq.2 _)))
    exact hexec _ _ _ _ hq.1 he

end Runs

/-! ## Running a program -/

/-- Run a program with what comes from outside for each of its calls. -/
def play (exec : (o : Op) → X → W → Option (Ans o × W)) :
    Prog Op Ans α → List X → W → Option (List (Performed Op Ans W) × α × W)
  | ret x, _, w => some ([], x, w)
  | op _ _, [], _ => none
  | op o k, outside :: more, w =>
    match exec o outside w with
    | some (a, w₁) => ((k a).play exec more w₁).map fun r => (⟨w, o, a, w₁⟩ :: r.1, r.2)
    | none => none

theorem play_runs {exec : (o : Op) → X → W → Option (Ans o × W)} {others : W → W → Prop} (hrefl : ∀ w, others w w)
    {q : Prog Op Ans α} {xs : List X} {w w' : W} {calls : List (Performed Op Ans W)} {x : α}
    (h : q.play exec xs w = some (calls, x, w')) :
    Runs (fun o w a w' => ∃ outside, exec o outside w = some (a, w')) others q w calls x w' := by
  induction q generalizing xs w calls with
  | ret y =>
    cases h
    exact .ret
  | op o k ih =>
    cases xs with
    | nil => cases h
    | cons outside more =>
      unfold play at h
      cases he : exec o outside w with
      | none =>
        rw [he] at h
        cases h
      | some r =>
        rw [he] at h
        obtain ⟨⟨rest, y, w₂⟩, hr, heq⟩ := Option.map_eq_some_iff.1 h
        cases heq
        exact .op (hrefl w) ⟨outside, he⟩ (ih r.1 hr)

end Prog

end EnvoyWebBotAuth.Lib
