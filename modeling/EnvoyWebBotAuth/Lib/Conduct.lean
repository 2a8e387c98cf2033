import EnvoyWebBotAuth.Lib.Threads
import Mathlib.Algebra.BigOperators.Group.List.Lemmas
import Mathlib.Algebra.Order.BigOperators.Group.List
import Mathlib.Algebra.Order.Ring.Nat
import Mathlib.Data.List.Perm.Subperm
/-!
# The conduct of threads

A thread holds things: a permit, a place in a queue, the lead for a key. A
`Conduct` says what a thread may call with what it holds, and what it holds
after the answer. A program that keeps to it makes no other call, makes no more
calls than it has left, and ends with nothing it should have given back.

If every body keeps to a conduct, a machine is followed by the plainer one of
`Conduct.Moves`, where a thread is no more than what it holds: an invariant of
that one is an invariant of every run (`Conduct.Follows.invariant`).
-/

namespace EnvoyWebBotAuth.Lib

structure Conduct (Op : Type) (Ans : Op → Type) (σ : Type) where
  start : σ
  /-- The calls a thread may make. -/
  may : σ → Op → Prop
  move : σ → (o : Op) → Ans o → σ
  /-- A thread may end. -/
  done : σ → Prop

namespace Conduct

variable {Op : Type} {Ans : Op → Type} {C X E W α β σ : Type}

section Programs

variable (d : Conduct Op Ans σ)

/-- A program that holds `x` and has `n` calls left makes calls it may make and
ends in `Q`. -/
def keeps (Q : α → σ → Nat → Prop) : Prog Op Ans α → σ → Nat → Prop
  | .ret a, x, n => Q a x n
  | .op o k, x, n => 0 < n ∧ d.may x o ∧ ∀ a, keeps Q (k a) (d.move x o a) (n - 1)

variable {d} {Q : β → σ → Nat → Prop} {x : σ} {n : Nat}

theorem keeps_bind (p : Prog Op Ans α) (f : α → Prog Op Ans β) :
    d.keeps Q (p >>= f) x n ↔ d.keeps (fun a => d.keeps Q (f a)) p x n := by
  induction p generalizing x n with
  | ret a => rfl
  | op o k ih =>
    rw [Prog.op_bind]
    simp only [keeps, ih]

end Programs

/-! ## What a program spends -/

section Spending

variable (d : Conduct Op Ans σ)

/-- The program makes `calls` calls at most, and with its result the thread
holds what is in `Y`. -/
def Spends (p : Prog Op Ans α) (x : σ) (Y : α → σ → Prop) (calls : Nat) : Prop :=
  ∀ n (Q : α → σ → Nat → Prop), calls ≤ n → (∀ a y m, Y a y → n ≤ m + calls → Q a y m) → d.keeps Q p x n

variable {d} {x : σ} {Y : α → σ → Prop} {Z : β → σ → Prop} {i j : Nat}

theorem Spends.ret (a : α) (i : Nat) (hx : Y a x) : d.Spends (.ret a : Prog Op Ans α) x Y i :=
  fun n _ _ hQ => hQ a x n hx (Nat.le_add_right n i)

theorem Spends.bind {p : Prog Op Ans α} {f : α → Prog Op Ans β} (hp : d.Spends p x Y i)
    (hf : ∀ a y, Y a y → d.Spends (f a) y Z j) : d.Spends (p >>= f) x Z (i + j) := by
  intro n Q hn hQ
  rw [keeps_bind]
  apply hp n _ (by omega)
  intro a y m hy hm
  apply hf a y hy m Q (by omega)
  intro b z l hz hl
  exact hQ b z l hz (by omega)

theorem Spends.more {p : Prog Op Ans α} (hp : d.Spends p x Y i) (h : i ≤ j) : d.Spends p x Y j := by
  intro n Q hn hQ
  apply hp n Q (by omega)
  intro a y m hy hm
  exact hQ a y m hy (by omega)

theorem Spends.mono {Y' : α → σ → Prop} {p : Prog Op Ans α} (hp : d.Spends p x Y i) (h : ∀ a y, Y a y → Y' a y) :
    d.Spends p x Y' i :=
  fun n Q hn hQ => hp n Q hn (fun a y m hy hm => hQ a y m (h a y hy) hm)

theorem Spends.op {o : Op} {k : Ans o → Prog Op Ans α} (hmay : d.may x o)
    (hk : ∀ a, d.Spends (k a) (d.move x o a) Y i) : d.Spends (.op o k) x Y (i + 1) := by
  intro n Q hn hQ
  refine ⟨by omega, hmay, fun a => hk a _ Q (by omega) ?_⟩
  intro b y m hy hm
  exact hQ b y m hy (by omega)

theorem Spends.orReturn {ε : Type} {Y : Except ε β → σ → Prop} {r : Except ε α} {f : α → Prog Op Ans (Except ε β)}
    (hx : ∀ e, r = .error e → Y (.error e) x) (hf : ∀ a, d.Spends (f a) x Y i) :
    d.Spends (Prog.orReturn r f) x Y i := by
  cases r with
  | ok a => exact hf a
  | error e => exact .ret _ i (hx e rfl)

end Spending

/-! ## What a thread holds -/

section Machine

variable (d : Conduct Op Ans σ)

/-- What a thread holds after the calls of a log. -/
def holding (t : Nat) (log : List (Entry Op Ans C α)) : σ :=
  (own t log).foldr (fun e x => d.move x e.1 e.2) d.start

/-- What the threads of a machine hold. -/
def held (s : Machine Op Ans C W α) (t : Nat) : Option σ := (s.threads t).map (fun _ => d.holding t s.log)

variable {d} {S : System Op Ans C X E W α} {t : Nat} {log : List (Entry Op Ans C α)}

@[simp] theorem holding_did (o : Op) (a : Ans o) : d.holding t (.did t o a :: log) = d.move (d.holding t log) o a := by
  simp [holding]

theorem holding_cons_of_ne {e : Entry Op Ans C α} (h : e.thread ≠ t) : d.holding t (e :: log) = d.holding t log := by
  rw [holding, own_cons_of_ne log h, holding]

theorem own_called (t' : Nat) (c : C) : own t (.called t' c :: log) = own t log := rfl

theorem own_of_fresh (h : ∀ e ∈ log, e.thread ≠ t) : own t log = [] := by
  induction log with
  | nil => rfl
  | cons e log ih =>
    rw [own_cons_of_ne log (h e List.mem_cons_self)]
    exact ih (fun e' he => h e' (List.mem_cons_of_mem e he))

theorem held_eq_some {s : Machine Op Ans C W α} {x : σ} (h : d.held s t = some x) :
    ∃ c p, s.threads t = some (c, p) ∧ x = d.holding t s.log := by
  obtain ⟨⟨c, p⟩, hp, rfl⟩ := Option.map_eq_some_iff.1 h
  exact ⟨c, p, hp, rfl⟩

theorem held_of_live {s : Machine Op Ans C W α} {c : C} {p : Prog Op Ans α} (h : s.threads t = some (c, p)) :
    d.held s t = some (d.holding t s.log) := by
  rw [held, h]
  rfl

/-- After the step of a thread the others hold what they held. -/
theorem held_step {s : Machine Op Ans C W α} {w : W} {q : Option (C × Prog Op Ans α)} {e : Entry Op Ans C α}
    (he : e.thread = t) : d.held ⟨w, Function.update s.threads t q, e :: s.log⟩ =
      Function.update (d.held s) t (q.map (fun _ => d.holding t (e :: s.log))) := by
  funext t'
  by_cases h : t' = t
  · subst h
    simp only [held, Function.update_self]
  · have hne : e.thread ≠ t' := by
      rw [he]
      exact Ne.symm h
    simp only [held, Function.update_of_ne h, holding_cons_of_ne hne]

/-! ## The plainer machine -/

variable (d S)

/-- A step where a thread is what it holds. -/
inductive Moves (w : W) (τ : Nat → Option σ) : W → (Nat → Option σ) → Prop where
  | call (t : Nat) : τ t = none → Moves w τ w (Function.update τ t (some d.start))
  | turn (t : Nat) (x o y a w') : τ t = some x → d.may x o → S.exec t o y w = some (a, w') →
      Moves w τ w' (Function.update τ t (some (d.move x o a)))
  | finish (t : Nat) (x) : τ t = some x → d.done x → Moves w τ w (Function.update τ t none)
  | drop (t : Nat) (x) : τ t = some x → Moves w τ (S.release t w) (Function.update τ t none)
  | env (e w') : S.env e w = some w' → Moves w τ w' τ

/-- Every body keeps to the conduct, with so many calls. -/
def Follows (budget : C → Nat) : Prop := ∀ c, d.keeps (fun _ x _ => d.done x) (S.body c) d.start (budget c)

/-- A machine whose threads keep to the conduct. -/
structure Kept (budget : C → Nat) (s : Machine Op Ans C W α) : Prop where
  threads : ∀ t c p, s.threads t = some (c, p) → (∃ e ∈ s.log, e.thread = t) ∧
    ∃ n, (own t s.log).length + n = budget c ∧ d.keeps (fun _ x _ => d.done x) p (d.holding t s.log) n
  /-- Every call was one the thread might make. -/
  calls : ∀ newer t o a older, s.log = newer ++ .did t o a :: older → d.may (d.holding t older) o

variable {d S} {budget : C → Nat}

theorem Kept.others {s : Machine Op Ans C W α} (h : Kept d budget s) {q : Option (C × Prog Op Ans α)}
    {e : Entry Op Ans C α} (he : e.thread = t)
    (hq : ∀ c p, q = some (c, p) → ∃ n, (own t (e :: s.log)).length + n = budget c ∧
      d.keeps (fun _ x _ => d.done x) p (d.holding t (e :: s.log)) n) :
    ∀ t' c p, Function.update s.threads t q t' = some (c, p) → (∃ e' ∈ e :: s.log, e'.thread = t') ∧
      ∃ n, (own t' (e :: s.log)).length + n = budget c ∧
        d.keeps (fun _ x _ => d.done x) p (d.holding t' (e :: s.log)) n := by
  intro t' c p hp
  by_cases ht : t' = t
  · subst ht
    rw [Function.update_self] at hp
    exact ⟨⟨e, List.mem_cons_self, he⟩, hq c p hp⟩
  · rw [Function.update_of_ne ht] at hp
    have hne : e.thread ≠ t' := by
      rw [he]
      exact Ne.symm ht
    obtain ⟨⟨e', he', ht'⟩, n, hn, hk⟩ := h.threads t' c p hp
    refine ⟨⟨e', List.mem_cons_of_mem e he', ht'⟩, n, ?_, ?_⟩
    · rw [own_cons_of_ne _ hne]
      exact hn
    · rw [holding_cons_of_ne hne]
      exact hk

/-- An entry that is no call. -/
theorem Kept.ends {s : Machine Op Ans C W α} (h : Kept d budget s) {e : Entry Op Ans C α}
    (he : ∀ t o a, e ≠ .did t o a) {newer older : List (Entry Op Ans C α)} {t : Nat} {o : Op} {a : Ans o}
    (hl : e :: s.log = newer ++ .did t o a :: older) : d.may (d.holding t older) o := by
  cases newer with
  | nil => exact absurd (List.cons.inj hl).1 (he t o a)
  | cons e' newer => exact h.calls newer t o a older (List.cons.inj hl).2

theorem Kept.step (hS : d.Follows S budget) {s s' : Machine Op Ans C W α} (h : Kept d budget s)
    (hs : S.Stepped s s') : Kept d budget s' := by
  cases hs with
  | call t c hf =>
    refine ⟨h.others rfl ?_, fun newer t' o a older hl => h.ends (by rintro _ _ _ ⟨⟩) hl⟩
    intro c' p hp
    obtain ⟨rfl, rfl⟩ := Prod.mk.inj (Option.some.inj hp)
    have hown : own t s.log = [] := own_of_fresh hf
    refine ⟨budget c, ?_, ?_⟩
    · rw [own_called, hown]
      simp
    · rw [holding, own_called, hown]
      exact hS c
  | turn t c o k x a w hp he =>
    obtain ⟨-, n, hn, hpos, hmay, hk⟩ := h.threads t c _ hp
    refine ⟨h.others rfl ?_, ?_⟩
    · intro c' p hp'
      obtain ⟨rfl, rfl⟩ := Prod.mk.inj (Option.some.inj hp')
      refine ⟨n - 1, ?_, ?_⟩
      · rw [own_did, List.length_cons]
        omega
      · rw [holding_did]
        exact hk a
    · intro newer t' o' a' older hl
      cases newer with
      | nil =>
        obtain ⟨he', rfl⟩ := List.cons.inj hl
        cases he'
        exact hmay
      | cons e newer => exact h.calls newer t' o' a' older (List.cons.inj hl).2
  | finish t c x hp =>
    refine ⟨h.others rfl ?_, fun newer t' o a older hl => h.ends (by rintro _ _ _ ⟨⟩) hl⟩
    rintro c' p ⟨⟩
  | drop t c o k x hp =>
    refine ⟨h.others rfl ?_, fun newer t' o a older hl => h.ends (by rintro _ _ _ ⟨⟩) hl⟩
    rintro c' p ⟨⟩
  | env e w he => exact ⟨h.threads, h.calls⟩

theorem Follows.kept (hS : d.Follows S budget) {w : W} {s : Machine Op Ans C W α} (h : S.Reachable w s) :
    Kept d budget s := by
  induction h with
  | start =>
    refine ⟨?_, fun newer t o a older hl => ?_⟩
    · rintro t c p ⟨⟩
    · exact absurd hl.symm (by simp [System.start])
  | step a _ hs ih => exact ih.step hS (S.step_cases hs)

/-- Every step of the machine is one of the plainer machine. -/
theorem Kept.moves {s s' : Machine Op Ans C W α} (h : Kept d budget s) (hs : S.Stepped s s') :
    d.Moves S s.world (d.held s) s'.world (d.held s') := by
  cases hs with
  | call t c hf =>
    have hnone : d.held s t = none := by
      rw [held, Option.map_eq_none_iff, Option.eq_none_iff_forall_ne_some]
      rintro ⟨c', p⟩ hp
      obtain ⟨⟨e, he, ht⟩, -⟩ := h.threads t c' p hp
      exact hf e he ht
    have hstart : d.holding t (.called t c :: s.log) = d.start := by
      rw [holding, own_called, own_of_fresh hf]
      rfl
    rw [held_step (show (.called t c : Entry Op Ans C α).thread = t from rfl), Option.map_some, hstart]
    exact .call t hnone
  | turn t c o k x a w hp he =>
    obtain ⟨-, n, -, -, hmay, -⟩ := h.threads t c _ hp
    rw [held_step (show (.did t o a : Entry Op Ans C α).thread = t from rfl), Option.map_some, holding_did]
    exact .turn t _ o x a w (held_of_live hp) hmay he
  | finish t c x hp =>
    obtain ⟨-, n, -, hdone⟩ := h.threads t c _ hp
    rw [held_step (show (.returned t c x : Entry Op Ans C α).thread = t from rfl)]
    exact .finish t _ (held_of_live hp) hdone
  | drop t c o k x hp =>
    rw [held_step (show (.dropped t c x : Entry Op Ans C α).thread = t from rfl)]
    exact .drop t _ (held_of_live hp)
  | env e w he => exact .env e w he

/-- What every step of the plainer machine keeps holds in every run. -/
theorem Follows.invariant (hS : d.Follows S budget) {I : W → (Nat → Option σ) → Prop} {w : W}
    (hstart : I w (fun _ => none)) (hI : ∀ w τ w' τ', I w τ → d.Moves S w τ w' τ' → I w' τ')
    {s : Machine Op Ans C W α} (h : S.Reachable w s) : I s.world (d.held s) := by
  induction h with
  | start => exact hstart
  | step a hr hs ih => exact hI _ _ _ _ ih ((hS.kept hr).moves (S.step_cases hs))

/-! ## How long a run can be -/

/-- The threads that were called. -/
def started (log : List (Entry Op Ans C α)) : List Nat :=
  log.filterMap (fun e => match e with | .called t _ => some t | _ => none)

/-- How many entries of a log are a thread's. -/
def entries (t : Nat) (log : List (Entry Op Ans C α)) : Nat := (log.map Entry.thread).count t

theorem entries_cons (e : Entry Op Ans C α) :
    entries t (e :: log) = if e.thread = t then entries t log + 1 else entries t log := by
  rw [entries, List.map_cons, List.count_cons, entries]
  by_cases he : e.thread = t
  · simp [he]
  · simp [he]

theorem entries_of_fresh (h : ∀ e ∈ log, e.thread ≠ t) : entries t log = 0 := by
  apply List.count_eq_zero_of_not_mem
  intro hm
  obtain ⟨e, he, ht⟩ := List.mem_map.1 hm
  exact h e he ht

/-- A live thread was called and made its calls; one that has ended has one
entry more. -/
structure Counted (n : Nat) (s : Machine Op Ans C W α) : Prop where
  live : ∀ t c p, s.threads t = some (c, p) → entries t s.log = (own t s.log).length + 1
  most : ∀ t, entries t s.log ≤ n + 2
  started : ∀ e ∈ s.log, e.thread ∈ started s.log

variable {n : Nat}

/-- After the step of thread `t` the entries of the others are as before. -/
theorem Counted.others {s : Machine Op Ans C W α} (h : Counted n s) {w : W} {q : Option (C × Prog Op Ans α)}
    {e : Entry Op Ans C α} (he : e.thread = t) (hstart : t ∈ Conduct.started (e :: s.log))
    (hmost : entries t s.log + 1 ≤ n + 2)
    (hlive : ∀ c p, q = some (c, p) → entries t s.log = (own t (e :: s.log)).length) :
    Counted n ⟨w, Function.update s.threads t q, e :: s.log⟩ := by
  refine ⟨fun t' c p hp => ?_, fun t' => ?_, fun e' he' => ?_⟩
  · simp only [entries_cons, he]
    by_cases ht : t' = t
    · subst ht
      rw [if_pos rfl]
      simp only [Function.update_self] at hp
      rw [hlive c p hp]
    · simp only [Function.update_of_ne ht] at hp
      rw [if_neg (Ne.symm ht), own_cons_of_ne _ (by rw [he]; exact Ne.symm ht)]
      exact h.live t' c p hp
  · simp only [entries_cons, he]
    split
    · rename_i ht
      rw [← ht]
      exact hmost
    · exact h.most t'
  · have hmono : ∀ t', t' ∈ Conduct.started s.log → t' ∈ Conduct.started (e :: s.log) := by
      intro t' ht'
      unfold Conduct.started at ht' ⊢
      rw [List.filterMap_cons]
      split
      · exact ht'
      · exact List.mem_cons_of_mem _ ht'
    rcases List.mem_cons.1 he' with rfl | he'
    · rw [he]
      exact hstart
    · exact hmono _ (h.started e' he')

theorem Counted.step {s s' : Machine Op Ans C W α} (hb : ∀ c, budget c ≤ n) (h : Counted n s)
    (hk : Kept d budget s) (hs : S.Stepped s s') : Counted n s' := by
  -- a live thread was called before, and has a call left or has made all it may
  have hold : ∀ t c p, s.threads t = some (c, p) → t ∈ Conduct.started s.log ∧
      ∃ m, (own t s.log).length + m = budget c ∧ d.keeps (fun _ x _ => d.done x) p (d.holding t s.log) m := by
    intro t c p hp
    obtain ⟨⟨e', he', rfl⟩, hm⟩ := hk.threads t c p hp
    exact ⟨h.started e' he', hm⟩
  cases hs with
  | call t c hf =>
    refine Counted.others (t := t) h rfl ?_ ?_ ?_
    · exact List.mem_cons_self
    · rw [entries_of_fresh hf]
      omega
    · intro c' p _
      rw [entries_of_fresh hf, own_called, own_of_fresh hf]
      rfl
  | turn t c o k x a w hp he =>
    obtain ⟨hstart, m, hm, hpos, -, -⟩ := hold t c _ hp
    have hlive := h.live t c _ hp
    have hbudget := hb c
    refine Counted.others (t := t) h rfl ?_ ?_ ?_
    · exact hstart
    · omega
    · intro c' p _
      rw [own_did, List.length_cons]
      exact hlive
  | finish t c x hp =>
    obtain ⟨hstart, m, hm, -⟩ := hold t c _ hp
    have hlive := h.live t c _ hp
    have hbudget := hb c
    refine Counted.others (t := t) h rfl ?_ ?_ ?_
    · exact hstart
    · omega
    · rintro c' p ⟨⟩
  | drop t c o k x hp =>
    obtain ⟨hstart, m, hm, -⟩ := hold t c _ hp
    have hlive := h.live t c _ hp
    have hbudget := hb c
    refine Counted.others (t := t) h rfl ?_ ?_ ?_
    · exact hstart
    · omega
    · rintro c' p ⟨⟩
  | env e w he => exact ⟨h.live, h.most, h.started⟩

theorem Follows.counted (hS : d.Follows S budget) (hb : ∀ c, budget c ≤ n) {w : W} {s : Machine Op Ans C W α}
    (h : S.Reachable w s) : Counted n s := by
  induction h with
  | start =>
    refine ⟨?_, fun t => Nat.zero_le _, ?_⟩
    · rintro t c p ⟨⟩
    · rintro e ⟨⟩
  | step a hr hs ih => exact ih.step hb (hS.kept hr) (S.step_cases hs)

/-- A log is no longer than what the threads that were called may do. -/
theorem Counted.length_le {s : Machine Op Ans C W α} (h : Counted n s) :
    s.log.length ≤ (n + 2) * (Conduct.started s.log).length := by
  have hsum := List.sum_map_count_dedup_eq_length (s.log.map Entry.thread)
  have hle : ((s.log.map Entry.thread).dedup.map (fun t => (s.log.map Entry.thread).count t)).sum ≤
      ((s.log.map Entry.thread).dedup.map (fun t => (s.log.map Entry.thread).count t)).length • (n + 2) := by
    apply List.sum_le_card_nsmul
    intro m hm
    obtain ⟨t, -, rfl⟩ := List.mem_map.1 hm
    exact h.most t
  have hsub : (s.log.map Entry.thread).dedup ⊆ Conduct.started s.log := by
    intro t ht
    obtain ⟨e, he, rfl⟩ := List.mem_map.1 (List.mem_dedup.1 ht)
    exact h.started e he
  have hlen := ((List.nodup_dedup (s.log.map Entry.thread)).subperm hsub).length_le
  rw [hsum, List.length_map, List.length_map, nsmul_eq_mul, Nat.cast_id] at hle
  rw [Nat.mul_comm]
  exact Nat.le_trans hle (Nat.mul_le_mul_right _ hlen)

/-- Without new calls the threads that were called stay the same. -/
theorem step_started {s s' : Machine Op Ans C W α} {a : Action C X E} (hno : ∀ t c, a ≠ .call t c)
    (hs : S.step s a = some s') : started s'.log = started s.log := by
  cases a with
  | call t c => exact absurd rfl (hno t c)
  | turn t x =>
    simp only [System.step] at hs
    split at hs
    · obtain ⟨r, -, rfl⟩ := Option.map_eq_some_iff.1 hs
      rfl
    · cases hs
  | finish t =>
    simp only [System.step] at hs
    split at hs
    · obtain rfl := Option.some.inj hs
      rfl
    · cases hs
  | elapse t =>
    simp only [System.step] at hs
    split at hs
    · obtain ⟨r, -, rfl⟩ := Option.map_eq_some_iff.1 hs
      rfl
    · cases hs
  | drop t =>
    simp only [System.step] at hs
    split at hs
    · obtain rfl := Option.some.inj hs
      rfl
    · cases hs
  | env e =>
    simp only [System.step] at hs
    obtain ⟨w, -, rfl⟩ := Option.map_eq_some_iff.1 hs
    rfl

theorem run_started {s s' : Machine Op Ans C W α} {as : List (Action C X E)}
    (hno : ∀ a ∈ as, ∀ t c, a ≠ .call t c) (hr : S.run s as = some s') : started s'.log = started s.log := by
  induction as generalizing s with
  | nil =>
    obtain rfl := Option.some.inj hr
    rfl
  | cons a as ih =>
    rw [System.run, Option.bind_eq_some_iff] at hr
    obtain ⟨s₁, hs, hr⟩ := hr
    rw [ih (fun a ha => hno a (List.mem_cons_of_mem _ ha)) hr]
    exact step_started (hno a List.mem_cons_self) hs

end Machine

end Conduct

end EnvoyWebBotAuth.Lib
