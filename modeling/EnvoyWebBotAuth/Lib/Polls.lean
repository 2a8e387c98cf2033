import EnvoyWebBotAuth.Lib.Threads
/-!
# Polls

A future is polled: its thread goes on until a call is not answered, and there
its timer is looked at. `System.poll` is the state after one poll that gets the
reply `x` from outside; it is a run of the machine (`poll_run`).
-/

namespace EnvoyWebBotAuth.Lib

variable {Op : Type} {Ans : Op → Type} {C X E W α : Type}

namespace System

variable (S : System Op Ans C X E W α) (x : X) (t : Nat)

/-- Thread `t` goes on with the program. It is done, or waits at a call that is
not answered, and is dropped there if its time is up. -/
def pollFrom (c : C) : Prog Op Ans α → Machine Op Ans C W α → Machine Op Ans C W α
  | .ret y, s => ⟨s.world, Function.update s.threads t none, .returned t c y :: s.log⟩
  | .op o k, s =>
    match S.exec t o x s.world with
    | some (a, w) => pollFrom c (k a) ⟨w, Function.update s.threads t (some (c, k a)), .did t o a :: s.log⟩
    | none =>
      match S.due t c o s.world with
      | some y => ⟨S.release t s.world, Function.update s.threads t none, .dropped t c (some y) :: s.log⟩
      | none => s

def poll (s : Machine Op Ans C W α) : Machine Op Ans C W α :=
  match s.threads t with
  | some (c, p) => S.pollFrom x t c p s
  | none => s

variable {S x t} {s : Machine Op Ans C W α} {c : C} {o : Op} {k : Ans o → Prog Op Ans α}

theorem poll_eq {p : Prog Op Ans α} (h : s.threads t = some (c, p)) : S.poll x t s = S.pollFrom x t c p s := by
  rw [poll, h]

/-- A call that is answered. -/
theorem pollFrom_turn {a : Ans o} {w : W} (h : S.exec t o x s.world = some (a, w)) :
    S.pollFrom x t c (.op o k) s =
      S.pollFrom x t c (k a) ⟨w, Function.update s.threads t (some (c, k a)), .did t o a :: s.log⟩ := by
  rw [pollFrom, h]

/-- A call that is not answered. -/
theorem pollFrom_waits (h : S.exec t o x s.world = none) : S.pollFrom x t c (.op o k) s = s ∨
    ∃ y, (S.pollFrom x t c (.op o k) s).log = .dropped t c (some y) :: s.log := by
  rw [pollFrom, h]
  cases S.due t c o s.world with
  | some y => exact .inr ⟨y, rfl⟩
  | none => exact .inl rfl

/-- A poll takes steps of its thread. -/
theorem pollFrom_run (p : Prog Op Ans α) (h : s.threads t = some (c, p)) :
    ∃ as : List (Action C X E), (∀ a ∈ as, a.thread = some t) ∧ S.run s as = some (S.pollFrom x t c p s) := by
  induction p generalizing s with
  | ret y =>
    refine ⟨[.finish t], by simp [Action.thread], ?_⟩
    rw [run, step, h]
    rfl
  | op o k ih =>
    cases he : S.exec t o x s.world with
    | some r =>
      obtain ⟨a, w⟩ := r
      rw [pollFrom_turn he]
      obtain ⟨as, hall, hrun⟩ := ih a (s := ⟨w, Function.update s.threads t (some (c, k a)), .did t o a :: s.log⟩)
        (Function.update_self _ _ _)
      refine ⟨.turn t x :: as, List.forall_mem_cons.2 ⟨rfl, hall⟩, ?_⟩
      rw [S.run_turn h he, hrun]
    | none =>
      rw [pollFrom, he]
      cases hd : S.due t c o s.world with
      | some y =>
        refine ⟨[.elapse t], by simp [Action.thread], ?_⟩
        rw [run, step, h]
        simp only [hd]
        rfl
      | none => exact ⟨[], by simp, rfl⟩

theorem poll_run (s : Machine Op Ans C W α) :
    ∃ as : List (Action C X E), (∀ a ∈ as, a.thread = some t) ∧ S.run s as = some (S.poll x t s) := by
  unfold poll
  split
  · rename_i h
    exact pollFrom_run _ h
  · exact ⟨[], by simp, rfl⟩

end System

end EnvoyWebBotAuth.Lib
