import Mathlib.Control.Basic
/-!
# Programs that make calls

A program is done with a result, or it makes one call and goes on with the
answer. What a call does is not said here: the same program is run by a
machine (`Lib.Threads`) or walked through by a proof outline.
-/

namespace EnvoyWebBotAuth.Lib

inductive Prog (Op : Type) (Ans : Op → Type) (α : Type) where
  | ret (x : α)
  | op (o : Op) (k : Ans o → Prog Op Ans α)

namespace Prog

variable {Op : Type} {Ans : Op → Type} {α β γ ε : Type}

def bind (p : Prog Op Ans α) (f : α → Prog Op Ans β) : Prog Op Ans β :=
  match p with
  | ret x => f x
  | op o k => op o (fun a => (k a).bind f)

instance : Monad (Prog Op Ans) where
  pure := ret
  bind := bind

/-- The program of one call. -/
def call (o : Op) : Prog Op Ans (Ans o) := op o ret

@[simp] theorem ret_bind (x : α) (f : α → Prog Op Ans β) : ret x >>= f = f x := rfl

@[simp] theorem op_bind (o : Op) (k : Ans o → Prog Op Ans α) (f : α → Prog Op Ans β) :
    op o k >>= f = op o (fun a => k a >>= f) := rfl

@[simp] theorem call_bind (o : Op) (f : Ans o → Prog Op Ans β) : call o >>= f = op o f := rfl

theorem bind_ret (p : Prog Op Ans α) : p >>= ret = p := by
  induction p with
  | ret x => rfl
  | op o k ih =>
    rw [op_bind]
    congr 1
    funext a
    exact ih a

theorem bind_assoc (p : Prog Op Ans α) (f : α → Prog Op Ans β) (g : β → Prog Op Ans γ) :
    p >>= f >>= g = p >>= fun x => f x >>= g := by
  induction p with
  | ret x => rfl
  | op o k ih =>
    rw [op_bind, op_bind, op_bind]
    congr 1
    funext a
    exact ih a

instance : LawfulMonad (Prog Op Ans) := LawfulMonad.mk' _ bind_ret ret_bind bind_assoc

/-! ## Programs that may fail -/

/-- Go on with a success, return an error. -/
def orReturn (r : Except ε α) (f : α → Prog Op Ans (Except ε β)) : Prog Op Ans (Except ε β) :=
  match r with
  | .ok x => f x
  | .error e => ret (.error e)

@[simp] theorem orReturn_ok (x : α) (f : α → Prog Op Ans (Except ε β)) : orReturn (.ok x) f = f x := rfl

@[simp] theorem orReturn_error (e : ε) (f : α → Prog Op Ans (Except ε β)) :
    orReturn (.error e) f = ret (.error e) := rfl

/-- A call whose answer is no failure. -/
def ask (o : Op) : ExceptT ε (Prog Op Ans) (Ans o) := ExceptT.mk (op o (fun a => ret (.ok a)))

def check (r : Except ε α) : ExceptT ε (Prog Op Ans) α := ExceptT.mk (ret r)

@[simp] theorem run_ask (o : Op) : (ask o : ExceptT ε (Prog Op Ans) (Ans o)).run = op o (fun a => ret (.ok a)) := rfl

@[simp] theorem run_check (r : Except ε α) : (check r : ExceptT ε (Prog Op Ans) α).run = ret r := rfl

@[simp] theorem run_pure (x : α) : (pure x : ExceptT ε (Prog Op Ans) α).run = ret (.ok x) := rfl

@[simp] theorem run_bind (x : ExceptT ε (Prog Op Ans) α) (f : α → ExceptT ε (Prog Op Ans) β) :
    (x >>= f).run = x.run >>= fun r => orReturn r (fun a => (f a).run) := by
  show x.run.bind _ = x.run.bind _
  congr 1
  funext r
  cases r <;> rfl

end Prog

end EnvoyWebBotAuth.Lib
