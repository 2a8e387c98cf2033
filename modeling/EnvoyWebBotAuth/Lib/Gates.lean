import EnvoyWebBotAuth.Lib.Conduct
/-!
# Gates and limiters

A gate is a call a thread must have made before it may make another, which uses
it up. A limiter is a piece of the shared state that lets a gate open only so
often. In any stretch of any run the calls behind a gate are no more than the
limiter let through, and the threads that were past the gate when the stretch
began (`Gated.limited`).

What a limiter keeps to is a bound on the checks it lets through (`Bounds`);
`Gcra` is one that keeps to its rate.
-/

namespace EnvoyWebBotAuth.Lib

/-! ## Limiters -/

section Limiters

variable {L : Type} (check : L → Nat → Bool × L)

/-- Checks of a limiter, from one state and time to another, of which `n` were
let through. -/
inductive Checks (l : L) (t : Nat) : L → Nat → Nat → Prop where
  | start : Checks l t l t 0
  | wait {l' t' t'' n} : Checks l t l' t' n → t' ≤ t'' → Checks l t l' t'' n
  | check {l' t' n} : Checks l t l' t' n → Checks l t (check l' t').2 t' (n + (check l' t').1.toNat)

/-- However a limiter that began as `l₀` was used, no stretch of time sees more
checks let through than `bound` says. -/
def Bounds (l₀ : L) (bound : Nat → Nat) : Prop :=
  ∀ t₀ l t k l' t' n, Checks check l₀ t₀ l t k → Checks check l t l' t' n → n ≤ bound (t' - t)

variable {check} {l l' l'' : L} {t t' t'' m n : Nat}

theorem Checks.trans (h : Checks check l t l' t' m) (h' : Checks check l' t' l'' t'' n) :
    Checks check l t l'' t'' (m + n) := by
  induction h' with
  | start => exact h
  | wait _ hle ih => exact ih.wait hle
  | check _ ih =>
    rw [← Nat.add_assoc]
    exact ih.check

theorem Checks.time_le (h : Checks check l t l' t' n) : t ≤ t' := by
  induction h with
  | start => exact Nat.le_refl t
  | wait _ hle ih => exact ih.trans hle
  | check _ ih => exact ih

end Limiters

/-! ## The generic cell rate algorithm -/

/-- A limiter that knows when the next cell would come if cells came at the
rate. `arrival` is none before the first check. -/
structure Gcra where
  interval : Nat
  tolerance : Nat
  arrival : Option Nat
  deriving DecidableEq

namespace Gcra

def check (l : Gcra) (now : Nat) : Bool × Gcra :=
  let arrival := l.arrival.getD (now + l.interval)
  if now + l.tolerance < arrival then (false, l)
  else (true, { l with arrival := some (max arrival now + l.interval) })

variable {l l' : Gcra} {t t' n : Nat}

theorem check_same (now : Nat) : (l.check now).2.interval = l.interval ∧ (l.check now).2.tolerance = l.tolerance := by
  unfold check
  dsimp only
  split <;> exact ⟨rfl, rfl⟩

theorem checks_same (h : Checks check l t l' t' n) : l'.interval = l.interval ∧ l'.tolerance = l.tolerance := by
  induction h with
  | start => exact ⟨rfl, rfl⟩
  | wait _ _ ih => exact ih
  | check _ ih =>
    obtain ⟨hi, ht⟩ := check_same (l := _) _
    exact ⟨hi.trans ih.1, ht.trans ih.2⟩

/-- Each check that is let through puts the next arrival off by an interval, and
was no earlier than the tolerance before it. -/
theorem checks_arrival (h : Checks check l t l' t' n) :
    n = 0 ∨ ∃ arrival, l'.arrival = some arrival ∧ t + n * l.interval ≤ arrival ∧
      t + (n - 1) * l.interval ≤ t' + l.tolerance := by
  induction h with
  | start => exact .inl rfl
  | wait _ hle ih =>
    refine ih.imp_right ?_
    rintro ⟨arrival, ha, hlow, hlate⟩
    exact ⟨arrival, ha, hlow, by omega⟩
  | @check l₁ t₁ n₁ h ih =>
    obtain ⟨hi, ht⟩ := checks_same h
    have hle := h.time_le
    unfold check
    dsimp only
    split
    · exact ih
    · rename_i hin
      right
      refine ⟨_, rfl, ?_, ?_⟩
      · rw [hi]
        simp only [Bool.toNat_true, Nat.add_mul, Nat.one_mul]
        rcases ih with rfl | ⟨arrival, ha, hlow, -⟩
        · omega
        · rw [ha, Option.getD_some]
          omega
      · simp only [Bool.toNat_true, Nat.add_sub_cancel]
        rcases ih with rfl | ⟨arrival, ha, hlow, -⟩
        · omega
        · rw [ha, Option.getD_some, ht] at hin
          omega

/-- A limiter of a rate: a burst at once, and one more, and then one for each
interval. -/
theorem bounds (interval burst : Nat) (hpos : 0 < interval) :
    Bounds check ⟨interval, burst * interval, none⟩ (fun d => burst + 1 + d / interval) := by
  intro t₀ l t k l' t' n h h'
  obtain ⟨hi, ht⟩ : l.interval = interval ∧ l.tolerance = burst * interval := checks_same h
  have hle := h'.time_le
  rcases checks_arrival h' with rfl | ⟨arrival, -, -, hlate⟩
  · exact Nat.zero_le _
  · rw [hi, ht] at hlate
    have hmul : (n - 1 - burst) * interval ≤ t' - t := by
      rw [Nat.sub_mul]
      omega
    have hdiv := (Nat.le_div_iff_mul_le hpos).2 hmul
    show n ≤ burst + 1 + (t' - t) / interval
    omega

end Gcra

/-! ## Gates -/

variable {Op : Type} {Ans : Op → Type} {C X E W α σ L : Type}

/-- How many calls of a log are of a kind. -/
def calls (kind : (o : Op) → Ans o → Bool) (log : List (Entry Op Ans C α)) : Nat :=
  log.countP (fun e => match e with | .did _ o a => kind o a | _ => false)

theorem calls_did (kind : (o : Op) → Ans o → Bool) (t : Nat) (o : Op) (a : Ans o) (log : List (Entry Op Ans C α)) :
    calls kind (.did t o a :: log) = calls kind log + (kind o a).toNat := by
  rw [calls, List.countP_cons, calls]
  cases h : kind o a <;> simp [h]

theorem calls_cons_of_ne (kind : (o : Op) → Ans o → Bool) {e : Entry Op Ans C α} (he : ∀ t o a, e ≠ .did t o a)
    (log : List (Entry Op Ans C α)) : calls kind (e :: log) = calls kind log := by
  cases e with
  | did t o a => exact absurd rfl (he t o a)
  | _ => rfl

namespace Conduct

variable (d : Conduct Op Ans σ)

/-- A thread is past the gate, `ready`, from a call that opens it to one that
uses it. -/
structure Gated (ready : σ → Prop) (opens uses : (o : Op) → Ans o → Bool) : Prop where
  start : ¬ ready d.start
  uses : ∀ x o a, d.may x o → uses o a = true → ready x ∧ ¬ ready (d.move x o a)
  ready : ∀ x o a, d.may x o → ready (d.move x o a) → ready x ∨ opens o a = true

/-- Different live threads that are past the gate. -/
def ReadyList (ready : σ → Prop) (s : Machine Op Ans C W α) (ts : List Nat) : Prop :=
  ts.Nodup ∧ ∀ t ∈ ts, ∃ x, d.held s t = some x ∧ ready x

variable {d} {S : System Op Ans C X E W α} {budget : C → Nat} {ready : σ → Prop} {opens uses : (o : Op) → Ans o → Bool}
  {s s' s'' : Machine Op Ans C W α}

/-- From one state to a later one, every use of the gate is by a thread that was
past it or has opened it since. -/
def Flow (d : Conduct Op Ans σ) (ready : σ → Prop) (opens uses : (o : Op) → Ans o → Bool)
    (s s' : Machine Op Ans C W α) : Prop :=
  ∀ ts', d.ReadyList ready s' ts' → ∃ ts, d.ReadyList ready s ts ∧
    calls uses s'.log + ts'.length + calls opens s.log ≤ calls uses s.log + ts.length + calls opens s'.log

theorem Flow.refl : d.Flow ready opens uses s s := fun ts h => ⟨ts, h, Nat.le_refl _⟩

theorem Flow.trans (h : d.Flow ready opens uses s s') (h' : d.Flow ready opens uses s' s'') :
    d.Flow ready opens uses s s'' := by
  intro ts'' hts''
  obtain ⟨ts', hts', hle'⟩ := h' ts'' hts''
  obtain ⟨ts, hts, hle⟩ := h ts' hts'
  exact ⟨ts, hts, by omega⟩

/-- A thread that ends, or begins, is not past the gate. -/
theorem flow_of_not_ready {t : Nat} {w : W} {q : Option (C × Prog Op Ans α)} {e : Entry Op Ans C α} (he : e.thread = t)
    (hno : ∀ t o a, e ≠ .did t o a) (hq : ∀ p, q = some p → ¬ ready (d.holding t (e :: s.log))) :
    d.Flow ready opens uses s ⟨w, Function.update s.threads t q, e :: s.log⟩ := by
  rintro ts ⟨hnodup, hready⟩
  refine ⟨ts, ⟨hnodup, fun t' ht' => ?_⟩, ?_⟩
  · obtain ⟨x, hx, hr⟩ := hready t' ht'
    rw [held_step he] at hx
    by_cases ht : t' = t
    · subst ht
      rw [Function.update_self, Option.map_eq_some_iff] at hx
      obtain ⟨p, hp, rfl⟩ := hx
      exact absurd hr (hq p hp)
    · rw [Function.update_of_ne ht] at hx
      exact ⟨x, hx, hr⟩
  · simp only [calls_cons_of_ne _ hno]
    omega

theorem Gated.turn (hg : d.Gated ready opens uses) {t : Nat} {c : C} {o : Op} {k : Ans o → Prog Op Ans α} {a : Ans o}
    {w : W} (hp : s.threads t = some (c, .op o k)) (hmay : d.may (d.holding t s.log) o) :
    d.Flow ready opens uses s ⟨w, Function.update s.threads t (some (c, k a)), .did t o a :: s.log⟩ := by
  rintro ts ⟨hnodup, hready⟩
  have hlive : d.held s t = some (d.holding t s.log) := held_of_live hp
  have hstep := held_step (d := d) (s := s) (w := w) (q := some (c, k a))
    (show (.did t o a : Entry Op Ans C α).thread = t from rfl)
  have hother : ∀ t' ∈ ts, t' ≠ t → ∃ x, d.held s t' = some x ∧ ready x := by
    intro t' ht' hne
    obtain ⟨x, hx, hr⟩ := hready t' ht'
    rw [hstep, Function.update_of_ne hne] at hx
    exact ⟨x, hx, hr⟩
  simp only [calls_did]
  by_cases ht : t ∈ ts
  · -- `t` is past the gate after its call, so the call was no use of it
    obtain ⟨x, hx, hr⟩ := hready t ht
    rw [hstep, Function.update_self, Option.map_some, holding_did] at hx
    obtain rfl := Option.some.inj hx
    have hunused : uses o a = false := by
      apply Bool.eq_false_of_not_eq_true
      intro hu
      exact (hg.uses _ o a hmay hu).2 hr
    rcases hg.ready _ o a hmay hr with hbefore | hopen
    · refine ⟨ts, ⟨hnodup, fun t' ht' => ?_⟩, ?_⟩
      · by_cases hne : t' = t
        · rw [hne]
          exact ⟨_, hlive, hbefore⟩
        · exact hother t' ht' hne
      · rw [hunused]
        simp only [Bool.toNat_false]
        omega
    · refine ⟨ts.erase t, ⟨hnodup.erase t, fun t' ht' => ?_⟩, ?_⟩
      · obtain ⟨hne, ht'⟩ := hnodup.mem_erase_iff.1 ht'
        exact hother t' ht' hne
      · have hlen := List.length_erase_of_mem ht
        have hpos := List.length_pos_of_mem ht
        rw [hunused, hopen]
        simp only [Bool.toNat_false, Bool.toNat_true]
        omega
  · cases hu : uses o a with
    | true =>
      refine ⟨t :: ts, ⟨List.nodup_cons.2 ⟨ht, hnodup⟩, fun t' ht' => ?_⟩, ?_⟩
      · rcases List.mem_cons.1 ht' with rfl | ht'
        · exact ⟨_, hlive, (hg.uses _ o a hmay hu).1⟩
        · exact hother t' ht' (fun hne => ht (hne ▸ ht'))
      · simp only [Bool.toNat_true, List.length_cons]
        omega
    | false =>
      refine ⟨ts, ⟨hnodup, fun t' ht' => hother t' ht' (fun hne => ht (hne ▸ ht'))⟩, ?_⟩
      simp only [Bool.toNat_false]
      omega

theorem Gated.step (hg : d.Gated ready opens uses) (hk : Kept d budget s) (hs : S.Stepped s s') :
    d.Flow ready opens uses s s' := by
  cases hs with
  | call t c hf =>
    refine flow_of_not_ready rfl (by rintro _ _ _ ⟨⟩) ?_
    rintro p -
    rw [holding, own_called, own_of_fresh hf]
    exact hg.start
  | turn t c o k x a w hp he =>
    obtain ⟨-, n, -, -, hmay, -⟩ := hk.threads t c _ hp
    exact hg.turn hp hmay
  | finish t c x hp => exact flow_of_not_ready rfl (by rintro _ _ _ ⟨⟩) (by rintro p ⟨⟩)
  | drop t c o k x hp => exact flow_of_not_ready rfl (by rintro _ _ _ ⟨⟩) (by rintro p ⟨⟩)
  | env e w he => exact Flow.refl

/-- Every use of a gate in a stretch of a run is by a thread that was past it or
has opened it since. -/
theorem Gated.run (hg : d.Gated ready opens uses) (hS : d.Follows S budget) {w : W} (h : S.Reachable w s)
    {as : List (Action C X E)} (hr : S.run s as = some s') : d.Flow ready opens uses s s' := by
  induction as generalizing s with
  | nil =>
    obtain rfl := Option.some.inj hr
    exact Flow.refl
  | cons a as ih =>
    rw [System.run, Option.bind_eq_some_iff] at hr
    obtain ⟨s₁, hs, hr⟩ := hr
    exact (hg.step (hS.kept h) (S.step_cases hs)).trans (ih (h.step a hs) hr)

end Conduct

/-! ## Gates with a limiter -/

/-- A call opens only if a limiter of the shared state lets it; nothing else
moves the limiter, but that the surroundings may put a new one in its place. -/
structure Limited (S : System Op Ans C X E W α) (check : L → Nat → Bool × L) (l₀ : L) (limiter : W → L) (time : W → Nat)
    (opens : (o : Op) → Ans o → Bool) (spares : E → Prop) : Prop where
  exec : ∀ t o x a w w', S.exec t o x w = some (a, w') → time w' = time w ∧
    ((limiter w' = limiter w ∧ opens o a = false) ∨
      (limiter w' = (check (limiter w) (time w)).2 ∧ (opens o a = true → (check (limiter w) (time w)).1 = true)))
  release : ∀ t w, time (S.release t w) = time w ∧ limiter (S.release t w) = limiter w
  env : ∀ e w w', S.env e w = some w' → time w ≤ time w' ∧
    (limiter w' = limiter w ∨ (limiter w' = l₀ ∧ ¬ spares e))

namespace Limited

variable {S : System Op Ans C X E W α} {check : L → Nat → Bool × L} {l₀ : L} {limiter : W → L} {time : W → Nat}
  {opens : (o : Op) → Ans o → Bool} {spares : E → Prop} {s s' : Machine Op Ans C W α}

/-- The checks of one step, unless it puts a new limiter in place. -/
theorem step (h : Limited S check l₀ limiter time opens spares) {a : Action C X E} (hs : S.step s a = some s') :
    (∃ n, Checks check (limiter s.world) (time s.world) (limiter s'.world) (time s'.world) n ∧
      calls opens s'.log ≤ calls opens s.log + n) ∨
    (limiter s'.world = l₀ ∧ ∃ e, a = .env e ∧ ¬ spares e) := by
  have hsame : time s.world ≤ time s'.world → limiter s'.world = limiter s.world →
      calls opens s'.log = calls opens s.log →
      ∃ n, Checks check (limiter s.world) (time s.world) (limiter s'.world) (time s'.world) n ∧
        calls opens s'.log ≤ calls opens s.log + n := by
    intro ht hl hc
    refine ⟨0, ?_, by omega⟩
    rw [hl]
    exact Checks.start.wait ht
  cases S.step_effect hs with
  | did t x c o k b q hp he _ hlog =>
    obtain ⟨ht, ⟨hl, hno⟩ | ⟨hl, hopen⟩⟩ := h.exec t o x b s.world _ he
    · refine .inl (hsame (Nat.le_of_eq ht.symm) hl ?_)
      rw [hlog, calls_did, hno]
      rfl
    · have hstart : Checks check (limiter s.world) (time s.world) (limiter s.world) (time s.world) 0 := .start
      have hcheck := hstart.check
      rw [← hl, Nat.zero_add] at hcheck
      refine .inl ⟨_, hcheck.wait (Nat.le_of_eq ht.symm), ?_⟩
      rw [hlog, calls_did]
      cases ho : opens o b with
      | true => rw [hopen ho]
      | false =>
        simp only [Bool.toNat_false]
        omega
  | other t act q e _ hno hw _ hlog =>
    have hcalls : calls opens s'.log = calls opens s.log := by rw [hlog, calls_cons_of_ne _ hno]
    rcases hw with hw | hw
    · refine .inl (hsame ?_ ?_ hcalls) <;> rw [hw]
    · obtain ⟨ht, hl⟩ := h.release t s.world
      refine .inl (hsame ?_ ?_ hcalls) <;> rw [hw]
      · exact Nat.le_of_eq ht.symm
      · exact hl
  | env e he _ hlog =>
    obtain ⟨ht, hl | ⟨hl, hspare⟩⟩ := h.env e s.world _ he
    · exact .inl (hsame ht hl (by rw [hlog]))
    · exact .inr ⟨hl, e, rfl, hspare⟩

/-- In every run the limiter began as `l₀` some time, and was checked since. -/
theorem reachable (h : Limited S check l₀ limiter time opens spares) {w : W} (hw : limiter w = l₀)
    (hr : S.Reachable w s) : ∃ t₀ k, Checks check l₀ t₀ (limiter s.world) (time s.world) k := by
  induction hr with
  | start =>
    refine ⟨time w, 0, ?_⟩
    rw [System.start, hw]
    exact .start
  | @step s s' a _ hs ih =>
    obtain ⟨t₀, k, hc⟩ := ih
    rcases h.step hs with ⟨n, hn, -⟩ | ⟨hl, -⟩
    · exact ⟨t₀, k + n, hc.trans hn⟩
    · refine ⟨time s'.world, 0, ?_⟩
      rw [hl]
      exact .start

/-- In a stretch of a run that spares the limiter, no more calls open than it
lets through. -/
theorem run (h : Limited S check l₀ limiter time opens spares) {as : List (Action C X E)}
    (hspared : ∀ e, .env e ∈ as → spares e) (hr : S.run s as = some s') :
    ∃ n, Checks check (limiter s.world) (time s.world) (limiter s'.world) (time s'.world) n ∧
      calls opens s'.log ≤ calls opens s.log + n := by
  induction as generalizing s with
  | nil =>
    obtain rfl := Option.some.inj hr
    exact ⟨0, .start, Nat.le_refl _⟩
  | cons a as ih =>
    rw [System.run, Option.bind_eq_some_iff] at hr
    obtain ⟨s₁, hs, hr⟩ := hr
    obtain ⟨n, hn, hle⟩ := ih (fun e he => hspared e (List.mem_cons_of_mem a he)) hr
    rcases h.step hs with ⟨m, hm, hle'⟩ | ⟨-, e, rfl, hspare⟩
    · exact ⟨m + n, hm.trans hn, by omega⟩
    · exact absurd (hspared e List.mem_cons_self) hspare

end Limited

/-- In a stretch of a run that spares the limiter, the calls behind a gate, with
the threads that are past it in the end, are no more than the limiter's bound and
the threads past it at first. -/
theorem Conduct.Gated.limited {d : Conduct Op Ans σ} {S : System Op Ans C X E W α} {budget : C → Nat} {ready : σ → Prop}
    {opens uses : (o : Op) → Ans o → Bool} {check : L → Nat → Bool × L} {l₀ : L} {limiter : W → L} {time : W → Nat}
    {spares : E → Prop} {s s' : Machine Op Ans C W α} (hg : d.Gated ready opens uses) (hS : d.Follows S budget)
    (hl : Limited S check l₀ limiter time opens spares) {bound : Nat → Nat} (hb : Bounds check l₀ bound) {w : W}
    (hw : limiter w = l₀) (h : S.Reachable w s) {cap : Nat}
    (hcap : ∀ ts, d.ReadyList ready s ts → ts.length ≤ cap) {as : List (Action C X E)}
    (hspared : ∀ e, .env e ∈ as → spares e) (hr : S.run s as = some s') {ts' : List Nat}
    (hts' : d.ReadyList ready s' ts') :
    calls uses s'.log + ts'.length ≤ calls uses s.log + cap + bound (time s'.world - time s.world) := by
  obtain ⟨ts, hts, hflow⟩ := hg.run hS h hr ts' hts'
  have hroom := hcap ts hts
  obtain ⟨t₀, k, hbefore⟩ := hl.reachable hw h
  obtain ⟨n, hn, hopened⟩ := hl.run hspared hr
  have hbound := hb _ _ _ _ _ _ _ hbefore hn
  omega

end EnvoyWebBotAuth.Lib
