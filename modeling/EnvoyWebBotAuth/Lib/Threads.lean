import EnvoyWebBotAuth.Lib.Prog
import Mathlib.Data.List.Basic
import Mathlib.Logic.Function.Basic
/-!
# Threads over a shared state

A machine of any number of threads. A thread is called with a `C`, runs the
program of it one call at a time, and is finished with an `α`, or it is
dropped at a call, because its time is up or for any other reason. Calls act on
the shared state atomically; between any two of them other threads and the
surroundings may act. The log has what happened, newest first.

`Outline` is the proof rule: an invariant of the shared state and the log, and
for each call what its thread has to know before it. A thread knows only what
the others cannot spoil, so `wp` looks at every log the others may have
extended. `Outline.Sound.run` is the induction over runs, made once.
-/

namespace EnvoyWebBotAuth.Lib

/-- Calls `C` for programs with calls `Op`, answered over a shared state `W`
with help of an outside reply `X`; the surroundings act by `E`. -/
structure System (Op : Type) (Ans : Op → Type) (C X E W α : Type) where
  body : C → Prog Op Ans α
  exec : Nat → (o : Op) → X → W → Option (Ans o × W)
  /-- The answer of a call whose time is up before the call `o` of its program. -/
  due : Nat → C → Op → W → Option α
  /-- What dropping a thread gives back. -/
  release : Nat → W → W
  env : E → W → Option W

inductive Entry (Op : Type) (Ans : Op → Type) (C α : Type) where
  | called (t : Nat) (c : C)
  | did (t : Nat) (o : Op) (a : Ans o)
  | returned (t : Nat) (c : C) (x : α)
  /-- With the answer of its call if its time was up. -/
  | dropped (t : Nat) (c : C) (x : Option α)

inductive Action (C X E : Type) where
  | call (t : Nat) (c : C)
  | turn (t : Nat) (x : X)
  | finish (t : Nat)
  | elapse (t : Nat)
  | drop (t : Nat)
  | env (e : E)

variable {Op : Type} {Ans : Op → Type} {C X E W α : Type}

def Entry.thread : Entry Op Ans C α → Nat
  | .called t _ => t
  | .did t _ _ => t
  | .returned t _ _ => t
  | .dropped t _ _ => t

/-- The thread that acts, if it is not the surroundings. -/
def Action.thread : Action C X E → Option Nat
  | .call t _ => some t
  | .turn t _ => some t
  | .finish t => some t
  | .elapse t => some t
  | .drop t => some t
  | .env _ => none

structure Machine (Op : Type) (Ans : Op → Type) (C W α : Type) where
  world : W
  threads : Nat → Option (C × Prog Op Ans α)
  log : List (Entry Op Ans C α)

namespace System

variable (S : System Op Ans C X E W α)

def step (s : Machine Op Ans C W α) : Action C X E → Option (Machine Op Ans C W α)
  | .call t c =>
    if s.log.any (fun e => e.thread = t) then none
    else some ⟨s.world, Function.update s.threads t (some (c, S.body c)), .called t c :: s.log⟩
  | .turn t x =>
    match s.threads t with
    | some (c, .op o k) => (S.exec t o x s.world).map fun (a, w) =>
        ⟨w, Function.update s.threads t (some (c, k a)), .did t o a :: s.log⟩
    | _ => none
  | .finish t =>
    match s.threads t with
    | some (c, .ret x) => some ⟨s.world, Function.update s.threads t none, .returned t c x :: s.log⟩
    | _ => none
  | .elapse t =>
    match s.threads t with
    | some (c, .op o _) => (S.due t c o s.world).map fun x =>
        ⟨S.release t s.world, Function.update s.threads t none, .dropped t c (some x) :: s.log⟩
    | _ => none
  | .drop t =>
    match s.threads t with
    | some (c, .op _ _) => some ⟨S.release t s.world, Function.update s.threads t none, .dropped t c none :: s.log⟩
    | _ => none
  | .env e => (S.env e s.world).map fun w => ⟨w, s.threads, s.log⟩

def start (w : W) : Machine Op Ans C W α := ⟨w, fun _ => none, []⟩

def run (s : Machine Op Ans C W α) : List (Action C X E) → Option (Machine Op Ans C W α)
  | [] => some s
  | a :: as => (S.step s a).bind (run · as)

inductive Reachable (w : W) : Machine Op Ans C W α → Prop where
  | start : Reachable w (start w)
  | step {s s'} (a : Action C X E) : Reachable w s → S.step s a = some s' → Reachable w s'

theorem Reachable.run {w : W} {s s' : Machine Op Ans C W α} (h : S.Reachable w s) :
    ∀ as, S.run s as = some s' → S.Reachable w s' := by
  intro as
  induction as generalizing s with
  | nil =>
    intro hr
    obtain rfl := Option.some.inj hr
    exact h
  | cons a as ih =>
    intro hr
    rw [System.run, Option.bind_eq_some_iff] at hr
    obtain ⟨s₁, hs, hr⟩ := hr
    exact ih (h.step a hs) hr

/-- Reached by steps that all meet `p`. -/
inductive ReachableBy (p : Machine Op Ans C W α → Action C X E → Bool) (w : W) : Machine Op Ans C W α → Prop where
  | start : ReachableBy p w (start w)
  | step {s s'} (a : Action C X E) : ReachableBy p w s → p s a = true → S.step s a = some s' → ReachableBy p w s'

/-- A run that ends where a step does not meet `p`. -/
def runBy (p : Machine Op Ans C W α → Action C X E → Bool) (s : Machine Op Ans C W α) :
    List (Action C X E) → Option (Machine Op Ans C W α)
  | [] => some s
  | a :: as => if p s a then (S.step s a).bind (runBy p · as) else none

section ReachableBy

variable {S} {p : Machine Op Ans C W α → Action C X E → Bool} {w : W} {s s' : Machine Op Ans C W α}

theorem ReachableBy.reachable (h : S.ReachableBy p w s) : S.Reachable w s := by
  induction h with
  | start => exact .start
  | step a _ _ hs ih => exact ih.step a hs

theorem ReachableBy.run (h : S.ReachableBy p w s) : ∀ as, S.runBy p s as = some s' → S.ReachableBy p w s' := by
  intro as
  induction as generalizing s with
  | nil =>
    intro hr
    obtain rfl := Option.some.inj hr
    exact h
  | cons a as ih =>
    intro hr
    rw [runBy] at hr
    split at hr
    · rename_i hp
      obtain ⟨s₁, hs, hr⟩ := Option.bind_eq_some_iff.1 hr
      exact ih (h.step a hp hs) hr
    · cases hr

end ReachableBy

/-- What a step can do. -/
inductive Stepped (s : Machine Op Ans C W α) : Machine Op Ans C W α → Prop where
  | call (t c) : (∀ e ∈ s.log, e.thread ≠ t) →
      Stepped s ⟨s.world, Function.update s.threads t (some (c, S.body c)), .called t c :: s.log⟩
  | turn (t c o k x a w) : s.threads t = some (c, .op o k) → S.exec t o x s.world = some (a, w) →
      Stepped s ⟨w, Function.update s.threads t (some (c, k a)), .did t o a :: s.log⟩
  | finish (t c x) : s.threads t = some (c, .ret x) →
      Stepped s ⟨s.world, Function.update s.threads t none, .returned t c x :: s.log⟩
  | drop (t c o k x) : s.threads t = some (c, .op o k) →
      Stepped s ⟨S.release t s.world, Function.update s.threads t none, .dropped t c x :: s.log⟩
  | env (e w) : S.env e s.world = some w → Stepped s ⟨w, s.threads, s.log⟩

theorem step_cases {s s' : Machine Op Ans C W α} {a : Action C X E} (h : S.step s a = some s') :
    S.Stepped s s' := by
  cases a with
  | call t c =>
    simp only [step] at h
    split at h
    · cases h
    · obtain rfl := Option.some.inj h
      rename_i hf
      exact .call t c (by simpa using hf)
  | turn t x =>
    simp only [step] at h
    split at h
    · rename_i c o k hp
      rw [Option.map_eq_some_iff] at h
      obtain ⟨⟨a, w⟩, he, rfl⟩ := h
      exact .turn t c o k x a w hp he
    · cases h
  | finish t =>
    simp only [step] at h
    split at h
    · rename_i c x hp
      obtain rfl := Option.some.inj h
      exact .finish t c x hp
    · cases h
  | elapse t =>
    simp only [step] at h
    split at h
    · rename_i c o k hp
      rw [Option.map_eq_some_iff] at h
      obtain ⟨x, -, rfl⟩ := h
      exact .drop t c o k (some x) hp
    · cases h
  | drop t =>
    simp only [step] at h
    split at h
    · rename_i c o k hp
      obtain rfl := Option.some.inj h
      exact .drop t c o k none hp
    · cases h
  | env e =>
    simp only [step] at h
    rw [Option.map_eq_some_iff] at h
    obtain ⟨w, he, rfl⟩ := h
    exact .env e w he

/-- What the step of an action does to the shared state and the log. No thread
changes but the one that acts. -/
inductive Effect (s s' : Machine Op Ans C W α) : Action C X E → Prop where
  | did (t x c o k a q) : s.threads t = some (c, .op o k) → S.exec t o x s.world = some (a, s'.world) →
      s'.threads = Function.update s.threads t q → s'.log = .did t o a :: s.log → Effect s s' (.turn t x)
  | other (t act q e) : act.thread = some t → (∀ t' o a, e ≠ .did t' o a) →
      (s'.world = s.world ∨ s'.world = S.release t s.world) →
      s'.threads = Function.update s.threads t q → s'.log = e :: s.log → Effect s s' act
  | env (e) : S.env e s.world = some s'.world → s'.threads = s.threads → s'.log = s.log → Effect s s' (.env e)

theorem step_effect {s s' : Machine Op Ans C W α} {a : Action C X E} (h : S.step s a = some s') :
    S.Effect s s' a := by
  cases a with
  | call t c =>
    simp only [step] at h
    split at h
    · cases h
    · obtain rfl := Option.some.inj h
      exact .other t _ _ _ rfl (by rintro _ _ _ ⟨⟩) (.inl rfl) rfl rfl
  | turn t x =>
    simp only [step] at h
    split at h
    · rename_i c o k hp
      obtain ⟨⟨b, w⟩, he, rfl⟩ := Option.map_eq_some_iff.1 h
      exact .did t x c o k b _ hp he rfl rfl
    · cases h
  | finish t =>
    simp only [step] at h
    split at h
    · obtain rfl := Option.some.inj h
      exact .other t _ _ _ rfl (by rintro _ _ _ ⟨⟩) (.inl rfl) rfl rfl
    · cases h
  | elapse t =>
    simp only [step] at h
    split at h
    · obtain ⟨_, -, rfl⟩ := Option.map_eq_some_iff.1 h
      exact .other t _ _ _ rfl (by rintro _ _ _ ⟨⟩) (.inr rfl) rfl rfl
    · cases h
  | drop t =>
    simp only [step] at h
    split at h
    · obtain rfl := Option.some.inj h
      exact .other t _ _ _ rfl (by rintro _ _ _ ⟨⟩) (.inr rfl) rfl rfl
    · cases h
  | env e =>
    obtain ⟨w, he, rfl⟩ := Option.map_eq_some_iff.1 h
    exact .env e he rfl rfl

/-- A log only grows. -/
theorem step_log {s s' : Machine Op Ans C W α} {a : Action C X E} (h : S.step s a = some s') : s.log <:+ s'.log := by
  cases S.step_effect h with
  | did _ _ _ _ _ _ _ _ _ _ hl => exact hl ▸ List.suffix_cons _ _
  | other _ _ _ _ _ _ _ _ hl => exact hl ▸ List.suffix_cons _ _
  | env _ _ _ hl => exact hl ▸ List.suffix_refl _

theorem runBy_log {p : Machine Op Ans C W α → Action C X E → Bool} {s s' : Machine Op Ans C W α}
    {as : List (Action C X E)} (hr : S.runBy p s as = some s') : s.log <:+ s'.log := by
  induction as generalizing s with
  | nil =>
    obtain rfl := Option.some.inj hr
    exact List.suffix_refl _
  | cons a as ih =>
    rw [System.runBy] at hr
    split at hr
    · obtain ⟨s₁, hs, hr⟩ := Option.bind_eq_some_iff.1 hr
      exact (S.step_log hs).trans (ih hr)
    · cases hr

/-- Only a timeout drops a thread with an answer. -/
theorem step_dropped {s s' : Machine Op Ans C W α} {a : Action C X E} (hs : S.step s a = some s') {t : Nat} {c : C}
    {x : α} (hl : s'.log = .dropped t c (some x) :: s.log) : ∃ o, S.due t c o s.world = some x := by
  cases a with
  | elapse t' =>
    simp only [step] at hs
    split at hs
    · rename_i c' o k hp
      obtain ⟨x', hx, rfl⟩ := Option.map_eq_some_iff.1 hs
      cases (List.cons.inj hl).1
      exact ⟨o, hx⟩
    · cases hs
  | call t' c' =>
    simp only [step] at hs
    split at hs
    · cases hs
    · obtain rfl := Option.some.inj hs
      cases (List.cons.inj hl).1
  | turn t' y =>
    simp only [step] at hs
    split at hs
    · obtain ⟨r, -, rfl⟩ := Option.map_eq_some_iff.1 hs
      cases (List.cons.inj hl).1
    · cases hs
  | finish t' =>
    simp only [step] at hs
    split at hs
    · obtain rfl := Option.some.inj hs
      cases (List.cons.inj hl).1
    · cases hs
  | drop t' =>
    simp only [step] at hs
    split at hs
    · obtain rfl := Option.some.inj hs
      cases (List.cons.inj hl).1
    · cases hs
  | env e =>
    simp only [step] at hs
    obtain ⟨w, -, rfl⟩ := Option.map_eq_some_iff.1 hs
    exact absurd (congrArg List.length hl) (by simp)

/-- An entry of the log is new or was there. -/
theorem step_mem {s s' : Machine Op Ans C W α} {a : Action C X E} (hs : S.step s a = some s')
    {e : Entry Op Ans C α} (he : e ∈ s'.log) : e ∈ s.log ∨ s'.log = e :: s.log := by
  have hcons : ∀ e', s'.log = e' :: s.log → e ∈ s.log ∨ s'.log = e :: s.log := by
    intro e' hl
    rw [hl] at he ⊢
    rcases List.mem_cons.1 he with rfl | he
    · exact .inr rfl
    · exact .inl he
  cases S.step_effect hs with
  | did _ _ _ _ _ _ _ _ _ _ hl => exact hcons _ hl
  | other _ _ _ _ _ _ _ _ hl => exact hcons _ hl
  | env _ _ _ hl =>
    rw [hl] at he
    exact .inl he

/-- A thread that was dropped with an answer was due. -/
theorem Reachable.due {w : W} {s : Machine Op Ans C W α} (h : S.Reachable w s) {t : Nat} {c : C} {x : α}
    (hd : .dropped t c (some x) ∈ s.log) : ∃ o w', S.due t c o w' = some x := by
  induction h with
  | start => cases hd
  | @step s s' a _ hs ih =>
    rcases S.step_mem hs hd with hd | hl
    · exact ih hd
    · obtain ⟨o, ho⟩ := S.step_dropped hs hl
      exact ⟨o, s.world, ho⟩

/-- Every step is in the log but those of the surroundings. -/
theorem run_length {s s' : Machine Op Ans C W α} {as : List (Action C X E)} (hr : S.run s as = some s') :
    s'.log.length = s.log.length + (as.filter (fun a => a.thread.isSome)).length := by
  induction as generalizing s with
  | nil =>
    obtain rfl := Option.some.inj hr
    rfl
  | cons a as ih =>
    rw [run, Option.bind_eq_some_iff] at hr
    obtain ⟨s₁, hs, hr⟩ := hr
    rw [ih hr]
    cases S.step_effect hs with
    | did t x c o k b q _ _ _ hl =>
      rw [hl, List.length_cons, List.filter_cons_of_pos rfl, List.length_cons]
      omega
    | other t act q e hact _ _ _ hl =>
      rw [hl, List.length_cons, List.filter_cons_of_pos (by rw [hact]; rfl), List.length_cons]
      omega
    | env e _ _ hl => rw [hl, List.filter_cons_of_neg (by simp [Action.thread])]

/-- A call that is answered, and the run after it. -/
theorem run_turn {s : Machine Op Ans C W α} {t : Nat} {c : C} {o : Op} {k : Ans o → Prog Op Ans α} {x : X}
    {a : Ans o} {w : W} (hp : s.threads t = some (c, .op o k)) (he : S.exec t o x s.world = some (a, w))
    (as : List (Action C X E)) :
    S.run s (.turn t x :: as) =
      S.run ⟨w, Function.update s.threads t (some (c, k a)), .did t o a :: s.log⟩ as := by
  rw [run, step, hp]
  dsimp only
  rw [he]
  rfl

theorem run_env {s : Machine Op Ans C W α} {e : E} {w : W} (he : S.env e s.world = some w) (as : List (Action C X E)) :
    S.run s (.env e :: as) = S.run ⟨w, s.threads, s.log⟩ as := by
  rw [run, step, he]
  rfl

theorem run_call {s : Machine Op Ans C W α} {t : Nat} (hf : ∀ e ∈ s.log, e.thread ≠ t) (c : C)
    (as : List (Action C X E)) :
    S.run s (.call t c :: as) =
      S.run ⟨s.world, Function.update s.threads t (some (c, S.body c)), .called t c :: s.log⟩ as := by
  rw [run, step, if_neg]
  · rfl
  · simpa using hf

/-- A run whose last entry reads as `y`. -/
theorem run_head {s : Machine Op Ans C W α} {as : List (Action C X E)} {β : Type}
    {f : Entry Op Ans C α → Option β} {y : β} (h : (S.run s as).bind (fun s' => s'.log.head?.bind f) = some y) :
    ∃ s' e log, S.run s as = some s' ∧ s'.log = e :: log ∧ f e = some y := by
  simp only [Option.bind_eq_some_iff] at h
  obtain ⟨s', hrun, e, he, hf⟩ := h
  obtain ⟨log, hl⟩ := List.head?_eq_some_iff.1 he
  exact ⟨s', e, log, hrun, hl, hf⟩

/-- Thread `t` waits while the others act. -/
inductive Waits (t : Nat) (s : Machine Op Ans C W α) : Machine Op Ans C W α → Prop where
  | refl : Waits t s s
  | step {s' s''} (a : Action C X E) : Waits t s s' → a.thread ≠ some t → S.step s' a = some s'' → Waits t s s''

variable {S}

theorem Waits.reachable {w : W} {t : Nat} {s s' : Machine Op Ans C W α} (h : S.Waits t s s')
    (hs : S.Reachable w s) : S.Reachable w s' := by
  induction h with
  | refl => exact hs
  | step a _ _ ha ih => exact .step a ih ha

/-- What a step of the others does to a thread `t` and to the shared state. -/
theorem step_others {t : Nat} {s s' : Machine Op Ans C W α} {a : Action C X E} (h : S.step s a = some s')
    (ha : a.thread ≠ some t) : s'.threads t = s.threads t ∧ (s'.world = s.world ∨
      (∃ t' o x b, t' ≠ t ∧ S.exec t' o x s.world = some (b, s'.world)) ∨
      (∃ t', t' ≠ t ∧ s'.world = S.release t' s.world) ∨ ∃ e, S.env e s.world = some s'.world) := by
  have hne : ∀ t', a.thread = some t' → t' ≠ t := by
    rintro t' h' rfl
    exact ha h'
  cases S.step_effect h with
  | did t' x c o k b q hp he ht hl =>
    have ht' := hne t' rfl
    refine ⟨?_, .inr (.inl ⟨t', o, x, b, ht', he⟩)⟩
    rw [ht, Function.update_of_ne ht'.symm]
  | other t' _ q e hact hno hw ht hl =>
    have ht' := hne t' hact
    refine ⟨?_, ?_⟩
    · rw [ht, Function.update_of_ne ht'.symm]
    · rcases hw with hw | hw
      · exact .inl hw
      · exact .inr (.inr (.inl ⟨t', ht', hw⟩))
  | env e he ht hl => exact ⟨congrFun ht t, .inr (.inr (.inr ⟨e, he⟩))⟩

theorem Waits.threads {t : Nat} {s s' : Machine Op Ans C W α} (h : S.Waits t s s') : s'.threads t = s.threads t := by
  induction h with
  | refl => rfl
  | step a _ ha hs ih => exact (step_others hs ha).1.trans ih

theorem Waits.log {t : Nat} {s s' : Machine Op Ans C W α} (h : S.Waits t s s') : s.log <:+ s'.log := by
  induction h with
  | refl => exact List.suffix_refl _
  | step a _ _ hs ih => exact ih.trans (S.step_log hs)

/-- What every step of the others keeps, waiting keeps. -/
theorem Waits.keeps {t : Nat} {s s' : Machine Op Ans C W α} {Q : W → Prop} (h : S.Waits t s s') (hs : Q s.world)
    (hdid : ∀ t' o x a w w', t' ≠ t → S.exec t' o x w = some (a, w') → Q w → Q w')
    (hdrop : ∀ t' w, t' ≠ t → Q w → Q (S.release t' w)) (henv : ∀ e w w', S.env e w = some w' → Q w → Q w') :
    Q s'.world := by
  induction h with
  | refl => exact hs
  | step a _ ha hstep ih =>
    rcases (step_others hstep ha).2 with hw | ⟨t', o, x, b, ht, he⟩ | ⟨t', ht, hw⟩ | ⟨e, he⟩
    · rw [hw]
      exact ih
    · exact hdid t' o x b _ _ ht he ih
    · rw [hw]
      exact hdrop t' _ ht ih
    · exact henv e _ _ he ih

end System

/-! ## What a thread did -/

/-- The calls of a thread, newest first. -/
def own (t : Nat) : List (Entry Op Ans C α) → List ((o : Op) × Ans o)
  | [] => []
  | .did t' o a :: log => if t' = t then ⟨o, a⟩ :: own t log else own t log
  | _ :: log => own t log

theorem mem_of_mem_own {t : Nat} {o : Op} {a : Ans o} {log : List (Entry Op Ans C α)} (h : ⟨o, a⟩ ∈ own t log) :
    .did t o a ∈ log := by
  induction log with
  | nil => cases h
  | cons e log ih =>
    cases e with
    | did t' o' a' =>
      rw [own] at h
      split at h
      · rename_i ht
        subst ht
        rcases List.mem_cons.1 h with h | h
        · cases h
          exact List.mem_cons_self
        · exact List.mem_cons_of_mem _ (ih h)
      · exact List.mem_cons_of_mem _ (ih h)
    | called => exact List.mem_cons_of_mem _ (ih h)
    | returned => exact List.mem_cons_of_mem _ (ih h)
    | dropped => exact List.mem_cons_of_mem _ (ih h)

/-- A call of a thread, with the log before it. -/
theorem own_split {t : Nat} {o : Op} {a : Ans o} {log : List (Entry Op Ans C α)} {newer older : List ((o : Op) × Ans o)}
    (h : own t log = newer ++ ⟨o, a⟩ :: older) : ∃ log', (.did t o a :: log') <:+ log ∧ own t log' = older := by
  induction log generalizing newer with
  | nil =>
    rw [own] at h
    exact absurd h.symm (by simp)
  | cons e log ih =>
    have hskip : own t log = newer ++ ⟨o, a⟩ :: older → ∃ log', (.did t o a :: log') <:+ e :: log ∧ own t log' = older := by
      intro h
      obtain ⟨log', hl, ho⟩ := ih h
      exact ⟨log', hl.trans (List.suffix_cons e log), ho⟩
    cases e with
    | did t' o' a' =>
      rw [own] at h
      split at h
      · rename_i ht
        subst ht
        cases newer with
        | nil =>
          obtain ⟨hc, hr⟩ := List.cons.inj h
          cases hc
          exact ⟨log, List.suffix_refl _, hr⟩
        | cons c newer =>
          obtain ⟨log', hl, ho⟩ := ih (List.cons.inj h).2
          exact ⟨log', hl.trans (List.suffix_cons _ log), ho⟩
      · exact hskip h
    | called => exact hskip h
    | returned => exact hskip h
    | dropped => exact hskip h

/-- What a thread was called with. -/
def callOf (t : Nat) : List (Entry Op Ans C α) → Option C
  | [] => none
  | .called t' c :: log => if t' = t then some c else callOf t log
  | _ :: log => callOf t log

theorem thread_of_callOf {t : Nat} {log : List (Entry Op Ans C α)} {c : C} (h : callOf t log = some c) :
    ∃ e ∈ log, e.thread = t := by
  induction log with
  | nil => cases h
  | cons e log ih =>
    by_cases ht : e.thread = t
    · exact ⟨e, List.mem_cons_self, ht⟩
    · have hr : callOf t log = some c := by
        cases e with
        | called t' c' =>
          rw [callOf, if_neg] at h
          · exact h
          · exact ht
        | did => exact h
        | returned => exact h
        | dropped => exact h
      obtain ⟨e', he', ht'⟩ := ih hr
      exact ⟨e', List.mem_cons_of_mem e he', ht'⟩

/-- The other threads went on from `log` to `log'`. -/
def Later (t : Nat) (log log' : List (Entry Op Ans C α)) : Prop :=
  ∃ more, log' = more ++ log ∧ ∀ e ∈ more, e.thread ≠ t

theorem Later.refl (t : Nat) (log : List (Entry Op Ans C α)) : Later t log log := ⟨[], rfl, by simp⟩

theorem Later.trans {t : Nat} {a b c : List (Entry Op Ans C α)} : Later t a b → Later t b c → Later t a c := by
  rintro ⟨m, rfl, hm⟩ ⟨m', rfl, hm'⟩
  refine ⟨m' ++ m, by simp, fun e he => ?_⟩
  rcases List.mem_append.1 he with he | he
  · exact hm' e he
  · exact hm e he

theorem Later.cons {t : Nat} {a b : List (Entry Op Ans C α)} {e : Entry Op Ans C α} (h : Later t a b)
    (he : e.thread ≠ t) : Later t a (e :: b) :=
  h.trans ⟨[e], rfl, by simpa using he⟩

@[simp] theorem own_did (t : Nat) (o : Op) (a : Ans o) (log : List (Entry Op Ans C α)) :
    own t (.did t o a :: log) = ⟨o, a⟩ :: own t log := by
  simp [own]

theorem own_cons_of_ne {t : Nat} {e : Entry Op Ans C α} (log : List (Entry Op Ans C α)) (h : e.thread ≠ t) :
    own t (e :: log) = own t log := by
  cases e with
  | did t' o a =>
    rw [own, if_neg]
    exact h
  | called => rfl
  | returned => rfl
  | dropped => rfl

theorem Later.suffix {t : Nat} {a b : List (Entry Op Ans C α)} (h : Later t a b) : a <:+ b := by
  obtain ⟨m, rfl, -⟩ := h
  exact ⟨m, rfl⟩

theorem callOf_cons_of_ne {t : Nat} {e : Entry Op Ans C α} (log : List (Entry Op Ans C α)) (h : e.thread ≠ t) :
    callOf t (e :: log) = callOf t log := by
  cases e with
  | called t' c =>
    rw [callOf, if_neg]
    exact h
  | did => rfl
  | returned => rfl
  | dropped => rfl

theorem Later.callOf {t : Nat} {a b : List (Entry Op Ans C α)} (h : Later t a b) : callOf t b = callOf t a := by
  obtain ⟨m, rfl, hm⟩ := h
  induction m with
  | nil => rfl
  | cons e m ih =>
    rw [List.cons_append, callOf_cons_of_ne _ (hm e (by simp))]
    exact ih (fun e he => hm e (by simp [he]))

theorem Later.own {t : Nat} {a b : List (Entry Op Ans C α)} (h : Later t a b) : own t b = own t a := by
  obtain ⟨m, rfl, hm⟩ := h
  induction m with
  | nil => rfl
  | cons e m ih =>
    rw [List.cons_append, own_cons_of_ne _ (hm e (by simp))]
    exact ih (fun e he => hm e (by simp [he]))

/-! ## Proof outlines -/

/-- `Pre t o k log`: what thread `t` has to know before the call `o` after
which it goes on with `k`. -/
structure Outline (S : System Op Ans C X E W α) where
  Inv : W → List (Entry Op Ans C α) → Prop
  Pre : Nat → (o : Op) → (Ans o → Prog Op Ans α) → List (Entry Op Ans C α) → Prop

namespace Outline

variable {S : System Op Ans C X E W α} (O : Outline S)

/-- The call was answered so in some state the log allows. -/
def Answered (t : Nat) (o : Op) (a : Ans o) (log : List (Entry Op Ans C α)) : Prop :=
  ∃ w x w', O.Inv w log ∧ S.exec t o x w = some (a, w')

/-- Every thread was called once, and every call in the log was made with its
precondition. -/
def Good : List (Entry Op Ans C α) → Prop
  | [] => True
  | .called t _ :: log => (∀ e ∈ log, e.thread ≠ t) ∧ Good log
  | .did t o a :: log => (∃ k, O.Pre t o k log) ∧ O.Answered t o a log ∧ Good log
  | _ :: log => Good log

/-- From `log` on, thread `t` makes the calls of the program with their
preconditions and ends in `Q`, whatever the other threads do. -/
def wp (t : Nat) (Q : α → List (Entry Op Ans C α) → Prop) :
    Prog Op Ans α → List (Entry Op Ans C α) → Prop
  | .ret x, log => ∀ log', Later t log log' → O.Good log' → Q x log'
  | .op o k, log => ∀ log', Later t log log' → O.Good log' →
      O.Pre t o k log' ∧ ∀ a, O.Answered t o a log' → wp t Q (k a) (.did t o a :: log')

/-- Every result in the log is one its thread's postcondition allows. -/
def Met (Q : Nat → C → α → List (Entry Op Ans C α) → Prop) : List (Entry Op Ans C α) → Prop
  | [] => True
  | .returned t c x :: log => Q t c x log ∧ Met Q log
  | _ :: log => Met Q log

structure Sound (Q : Nat → C → α → List (Entry Op Ans C α) → Prop) (w : W) : Prop where
  start : O.Inv w []
  called : ∀ w log t c, O.Inv w log → O.Inv w (.called t c :: log)
  did : ∀ w log t o k x a w', O.Inv w log → O.Good log → O.Pre t o k log →
    S.exec t o x w = some (a, w') → O.Inv w' (.did t o a :: log)
  returned : ∀ w log t c x, O.Inv w log → O.Inv w (.returned t c x :: log)
  dropped : ∀ w log t c x, O.Inv w log → O.Inv (S.release t w) (.dropped t c x :: log)
  env : ∀ w log e w', O.Inv w log → S.env e w = some w' → O.Inv w' log
  body : ∀ t c log, (∀ e ∈ log, e.thread ≠ t) → O.wp t (Q t c) (S.body c) (.called t c :: log)

variable {O}

theorem wp_later {t : Nat} {Q : α → List (Entry Op Ans C α) → Prop} {p : Prog Op Ans α}
    {log log' : List (Entry Op Ans C α)} (h : O.wp t Q p log) (hl : Later t log log') : O.wp t Q p log' := by
  cases p with
  | ret x => exact fun l hl' => h l (hl.trans hl')
  | op o k => exact fun l hl' => h l (hl.trans hl')

theorem Good.suffix {log log' : List (Entry Op Ans C α)} (h : O.Good log') (hl : log <:+ log') : O.Good log := by
  obtain ⟨newer, rfl⟩ := hl
  induction newer with
  | nil => exact h
  | cons e newer ih =>
    apply ih
    cases e with
    | did => exact h.2.2
    | called => exact h.2
    | returned => exact h
    | dropped => exact h

/-- A call of a thread stays its call. -/
theorem Good.callOf {log log' : List (Entry Op Ans C α)} (h : O.Good log') (hl : log <:+ log') {t : Nat} {c : C}
    (hc : callOf t log = some c) : callOf t log' = some c := by
  obtain ⟨newer, rfl⟩ := hl
  induction newer with
  | nil => exact hc
  | cons e newer ih =>
    have hg : O.Good (newer ++ log) := h.suffix (List.suffix_cons e _)
    have hr := ih hg
    cases e with
    | called t' c' =>
      rw [List.cons_append, Lib.callOf, if_neg]
      · exact hr
      · -- `t` was called before
        rintro rfl
        obtain ⟨e, he, ht⟩ := thread_of_callOf hr
        exact h.1 e he ht
    | did => exact hr
    | returned => exact hr
    | dropped => exact hr

/-- A thread may take it that the log is good. -/
theorem wp_of_good {t : Nat} {Q : α → List (Entry Op Ans C α) → Prop} {p : Prog Op Ans α}
    {log : List (Entry Op Ans C α)} (h : O.Good log → O.wp t Q p log) : O.wp t Q p log := by
  cases p with
  | ret x => exact fun log' hl hg => h (hg.suffix hl.suffix) log' hl hg
  | op o k => exact fun log' hl hg => h (hg.suffix hl.suffix) log' hl hg

theorem wp_ret {t : Nat} {Q : α → List (Entry Op Ans C α) → Prop} {x : α} {log : List (Entry Op Ans C α)}
    (h : ∀ log', Later t log log' → O.Good log' → Q x log') : O.wp t Q (.ret x) log := h

/-- The rule for a call. -/
theorem wp_op {t : Nat} {Q : α → List (Entry Op Ans C α) → Prop} {o : Op} {k : Ans o → Prog Op Ans α}
    {log : List (Entry Op Ans C α)}
    (h : ∀ log', Later t log log' → O.Good log' →
      O.Pre t o k log' ∧ ∀ a, O.Answered t o a log' → O.wp t Q (k a) (.did t o a :: log')) :
    O.wp t Q (.op o k) log := h

/-- What holds of a machine in every run. -/
structure Holds (Q : Nat → C → α → List (Entry Op Ans C α) → Prop) (s : Machine Op Ans C W α) : Prop where
  inv : O.Inv s.world s.log
  good : O.Good s.log
  met : Met Q s.log
  threads : ∀ t c p, s.threads t = some (c, p) → callOf t s.log = some c ∧ O.wp t (Q t c) p s.log

variable {Q : Nat → C → α → List (Entry Op Ans C α) → Prop} {w : W}

/-- A thread before a call knows what it has to. -/
theorem Holds.pre {s : Machine Op Ans C W α} (h : O.Holds Q s) {t : Nat} {c : C} {o : Op}
    {k : Ans o → Prog Op Ans α} (ht : s.threads t = some (c, .op o k)) : O.Pre t o k s.log :=
  ((h.threads t c _ ht).2 s.log (Later.refl t s.log) h.good).1

/-- A step of one thread keeps what the others know. -/
theorem Holds.others {s : Machine Op Ans C W α} (h : O.Holds Q s) {t : Nat} {q : Option (C × Prog Op Ans α)}
    {e : Entry Op Ans C α} (he : e.thread = t)
    (hq : ∀ c p, q = some (c, p) → callOf t (e :: s.log) = some c ∧ O.wp t (Q t c) p (e :: s.log)) :
    ∀ t' c p, Function.update s.threads t q t' = some (c, p) →
      callOf t' (e :: s.log) = some c ∧ O.wp t' (Q t' c) p (e :: s.log) := by
  intro t' c p hp
  by_cases ht : t' = t
  · subst ht
    rw [Function.update_self] at hp
    exact hq c p hp
  · rw [Function.update_of_ne ht] at hp
    have hl : Later t' s.log (e :: s.log) := (Later.refl t' s.log).cons (by rw [he]; exact Ne.symm ht)
    obtain ⟨hc, hw⟩ := h.threads t' c p hp
    exact ⟨hl.callOf.trans hc, wp_later hw hl⟩

theorem Sound.step (hS : O.Sound Q w) {s s' : Machine Op Ans C W α} (h : O.Holds Q s)
    (hs : S.Stepped s s') : O.Holds Q s' := by
  cases hs with
  | call t c hf =>
    refine ⟨hS.called _ _ t c h.inv, ⟨hf, h.good⟩, h.met, h.others rfl ?_⟩
    rintro c' p hp
    obtain ⟨rfl, rfl⟩ := Prod.mk.inj (Option.some.inj hp)
    exact ⟨by rw [callOf, if_pos rfl], hS.body t c s.log hf⟩
  | turn t c o k x a w' hp he =>
    obtain ⟨hcall, hw⟩ := h.threads t c _ hp
    obtain ⟨hpre, hk⟩ := hw s.log (Later.refl t s.log) h.good
    have ha : O.Answered t o a s.log := ⟨s.world, x, w', h.inv, he⟩
    refine ⟨hS.did _ _ t o k x a w' h.inv h.good hpre he, ⟨⟨k, hpre⟩, ha, h.good⟩, h.met, h.others rfl ?_⟩
    rintro c' p hp
    obtain ⟨rfl, rfl⟩ := Prod.mk.inj (Option.some.inj hp)
    exact ⟨hcall, hk a ha⟩
  | finish t c x hp =>
    have hq := (h.threads t c _ hp).2 s.log (Later.refl t s.log) h.good
    refine ⟨hS.returned _ _ t c x h.inv, h.good, ⟨hq, h.met⟩, h.others rfl ?_⟩
    rintro c' p ⟨⟩
  | drop t c o k x hp =>
    refine ⟨hS.dropped _ _ t c x h.inv, h.good, h.met, h.others rfl ?_⟩
    rintro c' p ⟨⟩
  | env e w' he => exact ⟨hS.env _ _ e w' h.inv he, h.good, h.met, h.threads⟩

/-- An outline that is sound holds in every state of every run. -/
theorem Sound.run (hS : O.Sound Q w) {s : Machine Op Ans C W α} (h : S.Reachable w s) : O.Holds Q s := by
  induction h with
  | start =>
    refine ⟨hS.start, trivial, trivial, ?_⟩
    rintro t c p ⟨⟩
  | step a _ hs ih => exact hS.step ih (S.step_cases hs)

/-- The calls of a good log, each with the log before it. -/
theorem Good.did {log older newer : List (Entry Op Ans C α)} {t : Nat} {o : Op} {a : Ans o} (h : O.Good log)
    (hl : log = newer ++ .did t o a :: older) : (∃ k, O.Pre t o k older) ∧ O.Answered t o a older ∧ O.Good older :=
  h.suffix ⟨newer, hl.symm⟩

theorem Met.returned {log older newer : List (Entry Op Ans C α)} {t : Nat} {c : C} {x : α} (h : Met Q log)
    (hl : log = newer ++ .returned t c x :: older) : Q t c x older := by
  subst hl
  induction newer with
  | nil => exact h.1
  | cons e newer ih =>
    apply ih
    cases e with
    | returned => exact h.2
    | did => exact h
    | called => exact h
    | dropped => exact h

end Outline

end EnvoyWebBotAuth.Lib
