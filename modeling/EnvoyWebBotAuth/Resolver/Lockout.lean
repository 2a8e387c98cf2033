import EnvoyWebBotAuth.Resolver.Backoff
import EnvoyWebBotAuth.Resolver.Flights
import EnvoyWebBotAuth.Resolver.Pacing
/-!
# Circuits in every run

The machine runs any number of calls at once, and drops any of them. As long as
it keeps the circuit of a key, the circuit is the one of the failures its log
has of the key. A call that the circuit has let pass leads for the key until it
counts what came of it, so an open circuit has let no live call pass, and stays
as it is until its time is up (`lockouts_hold`).
-/
open EnvoyWebBotAuth.Lib EnvoyWebBotAuth.Protocol

namespace EnvoyWebBotAuth.Resolver

variable {P L : Type}

/-- The failures of the key since its last success, as they were answered. -/
def failuresIn (key : ResourceKey) : Log P → List (Option Duration × Duration × Option CircuitTransition)
  | .did _ (.success key') _ :: log => if key' = key then [] else failuresIn key log
  | .did _ (.failureBackoff key' retryAfter) answer :: log =>
    if key' = key then (retryAfter, answer) :: failuresIn key log else failuresIn key log
  | _ :: log => failuresIn key log
  | [] => []

/-- The step does not drop the circuit of the key. -/
def keepsCircuit (key : ResourceKey) (_ : ResolverState P L) : Action Task Outside Env → Bool
  | .env (.evictCircuit key') => key' ≠ key
  | _ => true

/-- The circuit is the one of a streak that is in the log. -/
def Logged (key : ResourceKey) (w : World P L) (log : Log P) : Prop :=
  ∃ failures, Streak failures ∧ w.controls.circuit key = circuitOf failures ∧ (∀ f ∈ failures, f.now ≤ w.instant) ∧
    failures.map (fun f => (f.retryAfter, f.backoff, f.transition)) = failuresIn key log

section Steps

variable {s : ResolverService P L} {key : ResourceKey} {w w' : World P L} {log log' : Log P}

theorem Logged.others (h : Logged key w log) (ho : Others key w w') (hl : failuresIn key log' = failuresIn key log) :
    Logged key w' log' := by
  obtain ⟨failures, hs, hc, hp, hm⟩ := h
  exact ⟨failures, hs, ho.circuit.trans hc, fun f hf => Nat.le_trans (hp f hf) ho.instant, hm.trans hl.symm⟩

theorem failuresIn_did {t : Nat} {o : Op P} {a : Ans o} (hs : o ≠ .success key)
    (hf : ∀ retryAfter, o ≠ .failureBackoff key retryAfter) :
    failuresIn key (.did t o a :: log) = failuresIn key log := by
  cases o with
  | success key' =>
    apply if_neg
    rintro rfl
    exact hs rfl
  | failureBackoff key' retryAfter =>
    apply if_neg
    rintro rfl
    exact hf retryAfter rfl
  | _ => rfl

theorem Logged.did (h : Logged key w log) {t : Nat} {o : Op P} {x : Outside} {a : Ans o}
    (he : World.exec s t o x w = some (a, w')) : Logged key w' (.did t o a :: log) := by
  by_cases hs : o = .success key
  · subst hs
    obtain ⟨-, rfl⟩ := Prod.mk.inj (Option.some.inj he)
    refine ⟨[], trivial, WorkControls.setCircuit_circuit, by simp, ?_⟩
    exact (if_pos rfl).symm
  · by_cases hf : ∃ retryAfter, o = .failureBackoff key retryAfter
    · obtain ⟨retryAfter, rfl⟩ := hf
      obtain ⟨rfl, rfl⟩ := Prod.mk.inj (Option.some.inj he)
      obtain ⟨failures, hs, hc, hp, hm⟩ := h
      have hnext := circuitOf_failure failures retryAfter w.instant
      rw [← hc] at hnext
      refine ⟨nextFailure failures retryAfter w.instant :: failures, ⟨rfl, hs⟩, ?_, ?_, ?_⟩
      · exact WorkControls.setCircuit_circuit.trans (congrArg Prod.snd hnext)
      · intro f hf
        rcases List.mem_cons.1 hf with rfl | hf
        · exact Nat.le_refl _
        · exact hp f hf
      · rw [List.map_cons, hm]
        have hanswer := (congrArg Prod.fst hnext).symm
        simp only [failuresIn, if_true, WorkControls.failureBackoff]
        rw [← hanswer]
        rfl
    · have hno : ∀ retryAfter, o ≠ .failureBackoff key retryAfter := fun retryAfter heq => hf ⟨retryAfter, heq⟩
      exact h.others (World.exec_others hs hno he) (failuresIn_did hs hno)

theorem Logged.step {state state' : ResolverState P L} {a : Action Task Outside Env}
    (h : Logged key state.world state.log) (hk : keepsCircuit key state a = true)
    (hs : s.system.step state a = some state') : Logged key state'.world state'.log := by
  cases s.system.step_effect hs with
  | did t x task o k b _ _ he _ hl =>
    rw [hl]
    exact h.did he
  | other t _ _ e _ hno hw _ hl =>
    have hothers : Others key state.world state'.world := by
      rcases hw with hw | hw <;> rw [hw]
      · exact .refl _
      · exact World.release_others t
    rw [hl]
    refine h.others hothers ?_
    cases e with
    | did t' o a => exact absurd rfl (hno t' o a)
    | _ => rfl
  | env e he _ hl =>
    rw [hl]
    refine h.others (World.env_others ?_ he) rfl
    rintro rfl
    simp [keepsCircuit] at hk

/-- However the calls interleave, the circuit is the one of the failures in the
log. -/
theorem circuit_in_log {wall : SystemTime} {instant : Instant} {state : ResolverState P L}
    (h : s.system.ReachableBy (keepsCircuit key) (World.start s wall instant) state) :
    Logged key state.world state.log := by
  induction h with
  | start => exact ⟨[], trivial, rfl, by simp, rfl⟩
  | step a _ hk hs ih => exact ih.step hk hs

end Steps

/-! ## Open circuits -/

/-- What may be called, and answered so, while the circuit of the key is open. -/
def Barred (key : ResourceKey) : (o : Op P) → Ans o → Prop
  | .checkCircuit key', answer => key' = key → answer = .error (.new .circuitOpen)
  | .success key', _ => key' ≠ key
  | .failureBackoff key' _, _ => key' ≠ key
  | .fetch fetch, _ => (⟨fetch.url, fetch.kind⟩ : ResourceKey) ≠ key
  | _, _ => True

/-- The circuits that let live threads pass are not open. -/
def Passable (w : World P L) (τ : Nat → Option Holding) : Prop :=
  ∀ t x key, τ t = some x → x.stage.cleared = some key → (w.controls.circuit key).isOpen w.instant = false

namespace Stage

variable {stage : Stage} {key : ResourceKey}

theorem lead_of_cleared (h : stage.cleared = some key) : stage.lead = some key := by
  cases stage with
  | leads key' cleared =>
    cases cleared with
    | true => exact h
    | false => cases h
  | begun | fetched => exact h
  | idle | parked => cases h

variable (stage)

@[simp] theorem checkIp_cleared (ip : IpAddr) : (stage.checkIp ip).cleared = stage.cleared := by cases stage <;> rfl
@[simp] theorem fetch_cleared : stage.fetch.cleared = stage.cleared := by cases stage <;> rfl
@[simp] theorem dropPermit_cleared : stage.dropPermit.cleared = stage.cleared := by cases stage <;> rfl

end Stage

section Passing

variable {s : ResolverService P L} {key : ResourceKey} {w w' : World P L} {τ τ' : Nat → Option Holding}
  {state state' : ResolverState P L}

/-- A circuit that is not open is not when time goes on. -/
theorem Others.passable (h : Others key w w') (hc : (w.controls.circuit key).isOpen w.instant = false) :
    (w'.controls.circuit key).isOpen w'.instant = false := by
  rw [h.circuit]
  unfold CircuitState.isOpen at hc ⊢
  cases hu : (w.controls.circuit key).openUntil with
  | none => rfl
  | some u =>
    rw [hu] at hc
    have hle : u ≤ w.instant := by simpa using hc
    simpa using hle.trans h.instant

/-- A thread that has passed the circuit has just counted nothing. -/
theorem not_counted {x : Holding} {o : Op P} {a : Ans o} (hmay : x.may s o)
    (hc : (x.move o a).stage.cleared = some key) :
    o ≠ .success key ∧ ∀ retryAfter, o ≠ .failureBackoff key retryAfter := by
  constructor
  · rintro rfl
    have hleads : x.stage = .leads key true := hmay
    simp only [Holding.move, hleads, Stage.count] at hc
    cases hc
  · rintro retryAfter rfl
    have hleads : x.stage = .leads key true := hmay
    simp only [Holding.move, hleads, Stage.count] at hc
    cases hc

/-- A thread that has passed the circuit had passed it before, or has just asked
one that is not open. -/
theorem cleared_move {t : Nat} {x : Holding} {o : Op P} {outside : Outside} {a : Ans o} (hmay : x.may s o)
    (he : World.exec s t o outside w = some (a, w')) (hc : (x.move o a).stage.cleared = some key) :
    x.stage.cleared = some key ∨ (o = .checkCircuit key ∧ (w.controls.circuit key).isOpen w.instant = false) := by
  cases o with
  | checkCircuit key' =>
    obtain ⟨rfl, rfl⟩ := Prod.mk.inj (Option.some.inj he)
    have hleads : x.stage = .leads key' false := hmay
    right
    simp only [Holding.move, hleads, WorkControls.checkCircuit] at hc
    cases hopen : (w.controls.circuit key').isOpen w.instant with
    | true =>
      simp only [hopen, if_true, Stage.checkCircuit] at hc
      cases hc
    | false =>
      simp only [hopen, Bool.false_eq_true, if_false, Stage.checkCircuit] at hc
      obtain rfl : key' = key := Option.some.inj hc
      exact ⟨rfl, hopen⟩
  | success key' =>
    have hleads : x.stage = .leads key' true := hmay
    simp only [Holding.move, hleads, Stage.count] at hc
    cases hc
  | failureBackoff key' retryAfter =>
    have hleads : x.stage = .leads key' true := hmay
    simp only [Holding.move, hleads, Stage.count] at hc
    cases hc
  | getWith key' =>
    have hidle : x.stage = .idle := hmay
    cases a with
    | value v =>
      simp only [Holding.move, hidle] at hc
      cases hc
    | lead | wait => cases hc
  | awaitWith key' => cases a <;> cases hc
  | initDone key' outcome => cases hc
  | acquireHandler =>
    have hidle : x = ⟨false, .idle⟩ := hmay
    subst hidle
    cases a <;> cases hc
  | beginFetch origin =>
    obtain ⟨key', hleads, -⟩ := hmay
    left
    cases a with
    | error error => exact hc
    | ok u =>
      simp only [Holding.move, hleads, Stage.beginFetch] at hc
      rw [hleads]
      exact hc
  | checkIp ip =>
    left
    cases a with
    | error error => exact hc
    | ok u => exact (Stage.checkIp_cleared _ ip) ▸ hc
  | fetch request => exact .inl ((Stage.fetch_cleared x.stage) ▸ hc)
  | dropPermit => exact .inl ((Stage.dropPermit_cleared x.stage) ▸ hc)
  | _ => exact .inl hc

theorem Passable.start (w : World P L) : Passable w (fun _ => none) := by
  rintro t x key ⟨⟩

theorem Passable.turn (h : Passable w τ) (hf : Flights w τ) {t : Nat} {x : Holding} (ht : τ t = some x) {o : Op P}
    {outside : Outside} {a : Ans o} (hmay : x.may s o) (he : World.exec s t o outside w = some (a, w')) :
    Passable w' (Function.update τ t (some (x.move o a))) := by
  intro t' y key hy hc
  by_cases htt : t' = t
  · subst htt
    rw [Function.update_self] at hy
    obtain rfl := Option.some.inj hy
    rcases cleared_move hmay he hc with hx | ⟨rfl, hopen⟩
    · have hcount := not_counted hmay hc
      exact (World.exec_others hcount.1 hcount.2 he).passable (h t' x key ht hx)
    · exact (World.exec_others (o := .checkCircuit key) nofun nofun he).passable hopen
  · rw [Function.update_of_ne htt] at hy
    -- what `t` counts is of a key it leads for, and `t'` leads for another
    have hother : x.stage ≠ .leads key true := by
      intro hx
      have hrun := (hf.leaders key t).2 (by rw [ht, Option.bind_some, hx]; rfl)
      have hrun' := (hf.leaders key t').2 (by rw [hy, Option.bind_some, Stage.lead_of_cleared hc])
      rw [hrun] at hrun'
      exact htt (Option.some.inj hrun').symm
    refine (World.exec_others ?_ ?_ he).passable (h t' y key hy hc)
    · rintro rfl
      exact hother hmay
    · rintro retryAfter rfl
      exact hother hmay

theorem Passable.moves (h : Passable w τ) (hf : Flights w τ) (hm : (conduct s).Moves s.system w τ w' τ') :
    Passable w' τ' := by
  -- a thread that ends has passed nothing
  have hends : ∀ t, Passable w (Function.update τ t none) := by
    intro t t' x key hx hc
    by_cases ht : t' = t
    · subst ht
      rw [Function.update_self] at hx
      cases hx
    · rw [Function.update_of_ne ht] at hx
      exact h t' x key hx hc
  cases hm with
  | call t ht =>
    intro t' x key hx hc
    by_cases htt : t' = t
    · subst htt
      rw [Function.update_self] at hx
      obtain rfl := Option.some.inj hx
      cases hc
    · rw [Function.update_of_ne htt] at hx
      exact h t' x key hx hc
  | turn t x o outside a w' ht hmay he => exact h.turn hf ht hmay he
  | finish t x ht hdone => exact hends t
  | drop t x ht =>
    intro t' y key hy hc
    exact (World.release_others t).passable (hends t t' y key hy hc)
  | env e w' he =>
    intro t x key hx hc
    by_cases hevict : e = .evictCircuit key
    · subst hevict
      obtain rfl := Option.some.inj he
      simp [WorkControls.circuit, CircuitState.isOpen]
    · exact (World.env_others hevict he).passable (h t x key hx hc)

theorem Reached.passable (h : Reached s state) : Passable state.world (held state) := by
  obtain ⟨wall, instant, h⟩ := h
  have hboth : Flights state.world (held state) ∧ Passable state.world (held state) :=
    (follows s).invariant (I := fun w τ => Flights w τ ∧ Passable w τ) ⟨Flights.start wall instant, Passable.start _⟩
      (fun _ _ _ _ h hm => ⟨h.1.moves hm, h.2.moves h.1 hm⟩) h
  exact hboth.2

/-- An open circuit has let no live thread pass. -/
theorem Reached.not_cleared (h : Reached s state) (hopen : (state.world.controls.circuit key).isOpen state.world.instant = true)
    {t : Nat} {task : Task} {p : Calls P (Answer P)} (ht : state.threads t = some (task, p)) :
    (holding t state.log).stage.cleared ≠ some key := by
  intro hc
  have hclosed := h.passable t _ key (held_of_live ht) hc
  rw [hopen] at hclosed
  cases hclosed

/-! ## Until its time is up -/

/-- A step with the circuit open does not change it, and what is called then is
barred and called by a thread that has not passed. -/
theorem Reached.locked (h : Reached s state)
    (hopen : (state.world.controls.circuit key).isOpen state.world.instant = true) {act : Action Task Outside Env}
    (hk : keepsCircuit key state act = true) (hs : s.system.step state act = some state') :
    state'.world.controls.circuit key = state.world.controls.circuit key ∧
      (state'.log = state.log ∨ ∃ e, state'.log = e :: state.log ∧ ∀ t o a, e = .did t o a →
        (holding t state.log).stage.cleared ≠ some key ∧ Barred key o a) := by
  cases s.system.step_effect hs with
  | did t x task o k a _ ht he _ hl =>
    have hnot := h.not_cleared hopen ht
    have hmay := h.may ht
    have hsuccess : o ≠ .success key := by
      rintro rfl
      have hleads : (holding t state.log).stage = .leads key true := hmay
      exact hnot (by rw [hleads]; rfl)
    have hfailure : ∀ retryAfter, o ≠ .failureBackoff key retryAfter := by
      rintro retryAfter rfl
      have hleads : (holding t state.log).stage = .leads key true := hmay
      exact hnot (by rw [hleads]; rfl)
    refine ⟨(World.exec_others hsuccess hfailure he).circuit, .inr ⟨_, hl, ?_⟩⟩
    intro t' o' a' heq
    cases heq
    refine ⟨hnot, ?_⟩
    cases o with
    | checkCircuit key' =>
      obtain ⟨rfl, -⟩ := Prod.mk.inj (Option.some.inj he)
      rintro rfl
      exact if_pos hopen
    | success key' => exact fun hkey => hsuccess (by rw [hkey])
    | failureBackoff key' retryAfter => exact fun hkey => hfailure retryAfter (by rw [hkey])
    | fetch fetch =>
      have hbegun : (holding t state.log).stage = .begun ⟨fetch.url, fetch.kind⟩ (some fetch.selectedIp) := hmay
      exact fun hkey => hnot (by rw [hbegun, ← hkey]; rfl)
    | _ => trivial
  | other t _ _ e _ hno hw _ hl =>
    refine ⟨?_, .inr ⟨e, hl, fun t' o a he => absurd he (hno t' o a)⟩⟩
    rcases hw with hw | hw <;> rw [hw]
    exact (World.release_others t).circuit
  | env e he _ hl =>
    refine ⟨(World.env_others ?_ he).circuit, .inl hl⟩
    rintro rfl
    simp [keepsCircuit] at hk

theorem keepsCircuit_instant {act : Action Task Outside Env} (hk : keepsCircuit key state act = true)
    (hs : s.system.step state act = some state') : state.world.instant ≤ state'.world.instant := by
  cases s.system.step_effect hs with
  | did t x task o k a _ _ he _ _ => exact Nat.le_of_eq (World.exec_entries he).1.symm
  | other t _ _ _ _ _ hw _ _ => rcases hw with hw | hw <;> exact hw ▸ Nat.le_refl _
  | env e he _ _ =>
    refine (show Others key _ _ from World.env_others ?_ he).instant
    rintro rfl
    simp [keepsCircuit] at hk

theorem runBy_instant {actions : List (Action Task Outside Env)}
    (hrun : s.system.runBy (keepsCircuit key) state actions = some state') : state.world.instant ≤ state'.world.instant := by
  induction actions generalizing state with
  | nil =>
    obtain rfl := Option.some.inj hrun
    exact Nat.le_refl _
  | cons act actions ih =>
    rw [System.runBy] at hrun
    split at hrun
    · rename_i hk
      obtain ⟨middle, hs, hrun⟩ := Option.bind_eq_some_iff.1 hrun
      exact (keepsCircuit_instant hk hs).trans (ih hrun)
    · cases hrun

/-- No failure opens a circuit for longer. -/
theorem failure_openUntil {circuit : CircuitState} {retryAfter : Option Duration} {now u : Instant}
    (h : (circuit.failure retryAfter now).2.openUntil = some u) :
    u ≤ now + maxFailureBackoff ∨ circuit.openUntil = some u := by
  unfold CircuitState.failure at h
  dsimp only at h
  split at h
  · obtain rfl := Option.some.inj h
    exact .inl (Nat.add_le_add_left openFor_le now)
  · exact .inr h

theorem success_circuit {t : Nat} {x : Outside} {a : Ans (.success key : Op P)}
    (he : World.exec s t (.success key) x w = some (a, w')) : w'.controls.circuit key = {} := by
  obtain ⟨-, rfl⟩ := Prod.mk.inj (Option.some.inj he)
  exact WorkControls.setCircuit_circuit

theorem failureBackoff_circuit {t : Nat} {retryAfter : Option Duration} {x : Outside}
    {a : Ans (.failureBackoff key retryAfter : Op P)}
    (he : World.exec s t (.failureBackoff key retryAfter) x w = some (a, w')) :
    w'.controls.circuit key = ((w.controls.circuit key).failure retryAfter w.instant).2 ∧ w'.instant = w.instant := by
  obtain ⟨-, rfl⟩ := Prod.mk.inj (Option.some.inj he)
  exact ⟨WorkControls.setCircuit_circuit, rfl⟩

/-- No circuit is open for longer than the longest backoff. -/
theorem Reached.openUntil_le (h : Reached s state) (key : ResourceKey) {u : Instant}
    (hu : (state.world.controls.circuit key).openUntil = some u) : u ≤ state.world.instant + maxFailureBackoff := by
  obtain ⟨wall, instant, h⟩ := h
  induction h generalizing u with
  | start => cases hu
  | @step state state' act hr hs ih =>
    -- what leaves the circuit alone only lets time go on
    have hothers : Others key state.world state'.world → u ≤ state'.world.instant + maxFailureBackoff := by
      intro ho
      rw [ho.circuit] at hu
      exact (ih hu).trans (Nat.add_le_add_right ho.instant _)
    cases s.system.step_effect hs with
    | did t x task o k a _ _ he _ _ =>
      by_cases hs : o = .success key
      · subst hs
        have he : World.exec s t (.success key) x state.world = some (a, state'.world) := he
        rw [success_circuit he] at hu
        cases hu
      · by_cases hf : ∃ retryAfter, o = .failureBackoff key retryAfter
        · obtain ⟨retryAfter, rfl⟩ := hf
          have he : World.exec s t (.failureBackoff key retryAfter) x state.world = some (a, state'.world) := he
          obtain ⟨hcircuit, hinstant⟩ := failureBackoff_circuit he
          rw [hcircuit] at hu
          rw [hinstant]
          rcases failure_openUntil hu with hle | hu
          · exact hle
          · exact ih hu
        · exact hothers (World.exec_others hs (fun retryAfter heq => hf ⟨retryAfter, heq⟩) he)
    | other t _ _ _ _ _ hw _ _ =>
      apply hothers
      rcases hw with hw | hw <;> rw [hw]
      · exact .refl _
      · exact World.release_others t
    | env e he _ _ =>
      by_cases hevict : e = .evictCircuit key
      · subst hevict
        obtain hw := Option.some.inj he
        rw [← hw] at hu
        simp [WorkControls.circuit] at hu
      · exact hothers (World.env_others hevict he)

/-- An open circuit is open for 300 s at most. Until its time is up it stays as
it is, whatever the calls and the surroundings do: no thread is alive that it
had let pass, it lets nobody pass, and nobody fetches for its key or counts
anything. -/
theorem lockouts_hold (h : Reached s state) {closes : Instant}
    (hopen : (state.world.controls.circuit key).openUntil = some closes) :
    closes ≤ state.world.instant + fromSecs 300 ∧
    ∀ actions state', s.system.runBy (keepsCircuit key) state actions = some state' → state'.world.instant < closes →
      state'.world.controls.circuit key = state.world.controls.circuit key ∧
      (∀ t task p, state'.threads t = some (task, p) → (holding t state'.log).stage.cleared ≠ some key) ∧
      ∀ t o a older, state.log <:+ older → (.did t o a :: older) <:+ state'.log →
        (holding t older).stage.cleared ≠ some key ∧ Barred key o a := by
  refine ⟨h.openUntil_le key hopen, ?_⟩
  intro actions
  induction actions generalizing state with
  | nil =>
    intro state' hrun hlt
    obtain rfl := Option.some.inj hrun
    have hisOpen : (state.world.controls.circuit key).isOpen state.world.instant = true := by
      rw [CircuitState.isOpen, hopen]
      exact decide_eq_true hlt
    refine ⟨rfl, fun t task p ht => h.not_cleared hisOpen ht, fun t o a older hbase hlog => ?_⟩
    -- nothing is newer than the log itself
    have hle := hbase.length_le.trans_lt (Nat.lt_of_succ_le hlog.length_le)
    exact absurd hle (Nat.lt_irrefl _)
  | cons act actions ih =>
    intro state' hrun hlt
    rw [System.runBy] at hrun
    split at hrun
    · rename_i hk
      obtain ⟨middle, hs, hrun⟩ := Option.bind_eq_some_iff.1 hrun
      have hnow : state.world.instant < closes :=
        ((keepsCircuit_instant hk hs).trans (runBy_instant hrun)).trans_lt hlt
      have hisOpen : (state.world.controls.circuit key).isOpen state.world.instant = true := by
        rw [CircuitState.isOpen, hopen]
        exact decide_eq_true hnow
      obtain ⟨hcircuit, hlog⟩ := h.locked hisOpen hk hs
      obtain ⟨hrest, hlive, hbarred⟩ := ih (h.step hs) (by rw [hcircuit]; exact hopen) state' hrun hlt
      refine ⟨hrest.trans hcircuit, hlive, fun t o a older hbase hnew => ?_⟩
      rcases hlog with hlog | ⟨e, hlog, he⟩
      · exact hbarred t o a older (hlog ▸ hbase) hnew
      · -- it is what this step logged, or newer
        have hmiddle : e :: state.log <:+ .did t o a :: older :=
          List.suffix_of_suffix_length_le (hlog ▸ s.system.runBy_log hrun) hnew (Nat.succ_le_succ hbase.length_le)
        rcases List.suffix_cons_iff.1 hmiddle with heq | hmiddle
        · obtain ⟨rfl, rfl⟩ := List.cons.inj heq
          exact he t o a rfl
        · exact hbarred t o a older (hlog ▸ hmiddle) hnew
    · cases hrun

end Passing

/-- Load `t` fails, and then it is `now`. -/
def failsAgain (t now : Nat) : List SampleAction :=
  .call t (.load sampleKey) :: turns t 4 ++ upToFetch t ++ .turn t (.response (.error (.new .transport))) :: turns t 4 ++
    [.env (.clock (fromSecs now) (fromSecs now))]

/-- Load 3 opens the circuit at 15 s for 30 s, and load 4 asks at 35 s. -/
theorem lockouts_hold_sample : ∃ state state',
    sampleRun (firstFailure ++ failsAgain 2 15 ++ failsAgain 3 35) = some state ∧
    sampleService.system.runBy (keepsCircuit sampleKey) state (.call 4 (.load sampleKey) :: turns 4 7) = some state' ∧
    fromSecs 45 ≤ state.world.instant + fromSecs 300 ∧
    state'.world.controls.circuit sampleKey = state.world.controls.circuit sampleKey ∧
    (∀ t task p, state'.threads t = some (task, p) → (holding t state'.log).stage.cleared ≠ some sampleKey) ∧
    ∀ t o a older, state.log <:+ older → (.did t o a :: older) <:+ state'.log →
      (holding t older).stage.cleared ≠ some sampleKey ∧ Barred sampleKey o a := by
  have hrun : (sampleRun (firstFailure ++ failsAgain 2 15 ++ failsAgain 3 35)).bind (fun state =>
      (sampleService.system.runBy (keepsCircuit sampleKey) state (.call 4 (.load sampleKey) :: turns 4 7)).map
        (fun state' => ((state.world.controls.circuit sampleKey).openUntil, state'.world.instant))) =
    some (some (fromSecs 45), fromSecs 35) := by decide +kernel
  obtain ⟨state, hrun, hnext⟩ := Option.bind_eq_some_iff.1 hrun
  obtain ⟨state', hnext, heq⟩ := Option.map_eq_some_iff.1 hnext
  obtain ⟨hopen, hinstant⟩ := Prod.mk.inj heq
  obtain ⟨hle, hlocked⟩ := lockouts_hold (sampleRun_reached hrun) hopen
  have hlt : state'.world.instant < fromSecs 45 := by
    rw [hinstant]
    decide
  exact ⟨state, state', hrun, hnext, hle, hlocked _ state' hnext hlt⟩

end EnvoyWebBotAuth.Resolver
