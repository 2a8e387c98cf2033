import EnvoyWebBotAuth.Lib.Runs
import EnvoyWebBotAuth.Resolver.Circuit
import EnvoyWebBotAuth.Resolver.Loader
/-!
# Refreshes that come to their end

The refreshes of one key, one after the other (`Refreshed`). Between and during
them others go on (`Others`): they do anything but settle a refresh of the key
or drop its circuit. `refresh_attempt` takes a refresh apart.
-/
open EnvoyWebBotAuth.Lib EnvoyWebBotAuth.Protocol

namespace EnvoyWebBotAuth.Resolver

variable {P L : Type}

/-- What others may do while the key is refreshed. -/
structure Others (key : ResourceKey) (w w' : World P L) : Prop where
  instant : w.instant ≤ w'.instant
  circuit : w'.controls.circuit key = w.controls.circuit key

/-- A refresh of a key that came to its end. -/
structure Refresh (P L : Type) where
  before : World P L
  calls : List (Performed (Op P) Ans (World P L))
  outcome : RefreshOutcome P
  after : World P L

/-- A run of thread `t` while others go on. -/
abbrev RunsAmong (s : ResolverService P L) (t : Nat) (key : ResourceKey) {α : Type} :
    Calls P α → World P L → List (Performed (Op P) Ans (World P L)) → α → World P L → Prop :=
  Prog.Runs (fun o w a w' => ∃ outside, World.exec s t o outside w = some (a, w')) (Others key)

/-- The world after refreshes of the key, the latest first. -/
inductive Refreshed (s : ResolverService P L) (key : ResourceKey) : List (Refresh P L) → World P L → Prop
  | start (wall : SystemTime) (instant : Instant) : Refreshed s key [] (World.start s wall instant)
  | others {rs : List (Refresh P L)} {w w' : World P L} :
      Refreshed s key rs w → Others key w w' → Refreshed s key rs w'
  | refresh {rs : List (Refresh P L)} {r : Refresh P L} {t : Nat} {previous : Option (Representation P)} :
      Refreshed s key rs r.before →
      RunsAmong s t key (refresh s key previous) r.before r.calls r.outcome r.after →
      Refreshed s key (r :: rs) r.after

/-- What `failure_backoff` was asked and answered. -/
def failureOf : Performed (Op P) Ans (World P L) → Option Failure
  | ⟨before, .failureBackoff _ retryAfter, answer, _⟩ => some ⟨before.instant, retryAfter, answer.1, answer.2⟩
  | _ => none

/-! ## What others do -/

section Others

variable {s : ResolverService P L} {key : ResourceKey} {w w' w₁ w₂ w₃ : World P L}

theorem Others.refl (w : World P L) : Others key w w := ⟨Nat.le_refl _, rfl⟩

theorem Others.trans (h : Others key w₁ w₂) (h' : Others key w₂ w₃) : Others key w₁ w₃ :=
  ⟨Nat.le_trans h.instant h'.instant, h'.circuit.trans h.circuit⟩

theorem setCircuit_other (w : WorkControls L) {key' : ResourceKey} (hk : key ≠ key') (state : CircuitState) :
    (w.setCircuit key' state).circuit key = w.circuit key := by
  simp [WorkControls.setCircuit, WorkControls.circuit, Function.update_of_ne hk]

/-- Looking at a circuit leaves every circuit as it is. -/
theorem setCircuit_same (w : WorkControls L) (key' : ResourceKey) :
    (w.setCircuit key' (w.circuit key')).circuit key = w.circuit key := by
  by_cases hk : key = key'
  · subst hk
    exact WorkControls.setCircuit_circuit
  · exact setCircuit_other w hk _

/-- The admission of a fetch does not look at circuits. -/
theorem beginFetch_circuits (g : Governor L) (limits : Limits) (w : WorkControls L) (t : Nat) (origin : String)
    (now : Instant) : (w.beginFetch g limits t origin now).2.circuits = w.circuits := by
  unfold WorkControls.beginFetch WorkControls.admitOrigin WorkControls.checkOrigin
  dsimp only
  split
  · rfl
  · split
    · rfl
    · split <;> repeat (first | rfl | split)

/-- Every call is one of the others', but those that settle a refresh of the key. -/
theorem World.exec_others {t : Nat} {o : Op P} {outside : Outside} {a : Ans o} (hs : o ≠ .success key)
    (hf : ∀ retryAfter, o ≠ .failureBackoff key retryAfter) (h : World.exec s t o outside w = some (a, w')) :
    Others key w w' := by
  cases o with
  | success key' =>
    obtain ⟨-, rfl⟩ := Prod.mk.inj (Option.some.inj h)
    have hk : key ≠ key' := fun hk => hs (hk ▸ rfl)
    exact ⟨Nat.le_refl _, setCircuit_other _ hk _⟩
  | failureBackoff key' retryAfter =>
    obtain ⟨-, rfl⟩ := Prod.mk.inj (Option.some.inj h)
    have hk : key ≠ key' := fun hk => hf retryAfter (hk ▸ rfl)
    exact ⟨Nat.le_refl _, setCircuit_other _ hk _⟩
  | checkCircuit key' | circuitRemaining key' =>
    obtain ⟨-, rfl⟩ := Prod.mk.inj (Option.some.inj h)
    exact ⟨Nat.le_refl _, setCircuit_same _ _⟩
  | beginFetch origin =>
    obtain ⟨-, rfl⟩ := Prod.mk.inj (Option.some.inj h)
    refine ⟨Nat.le_refl _, ?_⟩
    unfold WorkControls.circuit
    rw [beginFetch_circuits]
  | awaitWith key' =>
    simp only [World.exec, Option.map_eq_some_iff] at h
    obtain ⟨r, -, hw⟩ := h
    obtain ⟨-, rfl⟩ := Prod.mk.inj hw
    exact ⟨Nat.le_refl _, rfl⟩
  | acquireHandler =>
    simp only [World.exec] at h
    split at h <;>
    · obtain ⟨-, rfl⟩ := Prod.mk.inj (Option.some.inj h)
      exact ⟨Nat.le_refl _, rfl⟩
  | resolveHost host port | fetch request =>
    cases outside <;> simp only [World.exec, Option.some.injEq, Prod.mk.injEq, reduceCtorEq] at h
    obtain ⟨-, rfl⟩ := h
    exact ⟨Nat.le_refl _, rfl⟩
  | _ =>
    obtain ⟨-, rfl⟩ := Prod.mk.inj (Option.some.inj h)
    exact ⟨Nat.le_refl _, rfl⟩

/-- What happens without a thread is the others', but for dropping the circuit. -/
theorem World.env_others {e : Env} (he : e ≠ .evictCircuit key) (h : World.env e w = some w') : Others key w w' := by
  cases e with
  | clock wall instant =>
    simp only [World.env] at h
    split at h
    · obtain rfl := Option.some.inj h
      exact ⟨by assumption, rfl⟩
    · cases h
  | park t =>
    simp only [World.env, Option.map_eq_some_iff] at h
    obtain ⟨refreshes, -, rfl⟩ := h
    exact ⟨Nat.le_refl _, rfl⟩
  | evictCircuit key' =>
    obtain rfl := Option.some.inj h
    have hk : key ≠ key' := fun hk => he (hk ▸ rfl)
    refine ⟨Nat.le_refl _, ?_⟩
    simp [WorkControls.circuit, Function.update_of_ne hk]
  | _ =>
    obtain rfl := Option.some.inj h
    exact ⟨Nat.le_refl _, rfl⟩

theorem World.release_others (t : Nat) : Others key w (w.release t) := ⟨Nat.le_refl _, rfl⟩

end Others

/-! ## One refresh -/

/-- The calls that settle a refresh. -/
def Settles : Op P → Prop
  | .success _ => True
  | .failureBackoff _ _ => True
  | _ => False

section Programs

variable {s : ResolverService P L} {key : ResourceKey} {previous : Option (Representation P)}

theorem settleFetch_within (request : Request) (response : Except FetchError FetchResponse) :
    (settleFetch s key request previous response).run.Within (fun o => ¬Settles o) := by
  unfold settleFetch publish
  simp only [Prog.run_bind, Prog.run_check, Prog.ret_bind, Prog.run_ask, Prog.op_bind, Prog.orReturn_ok]
  refine .orReturn fun response => ⟨id, fun now => .orReturn fun representation => ?_⟩
  split <;> exact ⟨id, fun _ => trivial⟩

theorem refreshPermitted_within (host : String) (port : UInt16) :
    (refreshPermitted s key previous host port).run.Within (fun o => ¬Settles o) := by
  unfold refreshPermitted
  simp only [Prog.run_bind, Prog.run_check, Prog.run_ask, Prog.ret_bind, Prog.op_bind, Prog.call_bind, ExceptT.run_mk]
  refine ⟨id, fun answer => .orReturn fun addresses => .orReturn fun unique => ⟨id, fun allowed => ?_⟩⟩
  refine .orReturn fun _ => .orReturn fun request => ?_
  apply Prog.Within.bind
  · unfold requestHeaders
    cases previous with
    | none => trivial
    | some old =>
      simp only [Prog.run_bind, Prog.run_ask, Prog.op_bind, Prog.ret_bind, Prog.orReturn_ok]
      refine ⟨id, fun now => ?_⟩
      beta_reduce
      split <;> trivial
  · exact fun headers => .orReturn fun headers => ⟨id, fun response => settleFetch_within request response⟩

/-- A refresh asks the circuit first, and is settled last. -/
theorem refresh_eq (s : ResolverService P L) (key : ResourceKey) (previous : Option (Representation P)) :
    ∃ permitted : Calls P (Except FetchError (Representation P)), permitted.Within (fun o => ¬Settles o) ∧
      refresh s key previous = .op (.checkCircuit key) (fun answer =>
        Prog.orReturn answer (fun _ => permitted) >>= refreshOutcome s key) := by
  unfold refresh refreshInner
  simp only [Prog.run_bind, Prog.run_check, Prog.ret_bind, Prog.op_bind, Prog.call_bind, ExceptT.run_mk]
  refine ⟨_, ?_, rfl⟩
  refine .orReturn fun _ => .orReturn fun host => .orReturn fun port => ⟨id, fun answer => .orReturn fun _ => ?_⟩
  exact .bind (refreshPermitted_within host port) fun result => ⟨id, fun _ => trivial⟩

end Programs

section Settlements

variable {s : ResolverService P L} {t : Nat} {key : ResourceKey} {w w' : World P L}
  {calls : List (Performed (Op P) Ans (World P L))} {outcome : RefreshOutcome P}

/-- Every outcome is dated last. -/
theorem dated_run {result : Except FetchError (Representation P)} {period : Duration}
    (h : RunsAmong s t key (.op .instantNow fun now => .ret ⟨result, now + period⟩) w calls outcome w') :
    Others key w w' ∧ calls = [⟨w', .instantNow, w'.instant, w'⟩] ∧ outcome = ⟨result, w'.instant + period⟩ := by
  obtain ⟨w₁, a, w₂, rest, rfl, ho, ⟨outside, he⟩, hr⟩ := h.of_op
  obtain ⟨rfl, rfl⟩ := Prod.mk.inj (Option.some.inj he)
  obtain ⟨rfl, rfl, rfl⟩ := hr.of_ret
  exact ⟨ho, rfl, rfl⟩

theorem success_run {representation : Representation P}
    (h : RunsAmong s t key (refreshOutcome s key (.ok representation)) w calls outcome w') :
    outcome = ⟨.ok representation, w'.instant + (if s.crates.policy.isStorable representation.policy then fromMillis 50 else 0)⟩ ∧
      w'.controls.circuit key = {} ∧ w.instant ≤ w'.instant ∧ calls.findSome? failureOf = none := by
  obtain ⟨w₁, a, w₂, rest, rfl, ho, ⟨outside, he⟩, hr⟩ := h.of_op
  obtain ⟨-, rfl⟩ := Prod.mk.inj (Option.some.inj he)
  obtain ⟨ho', rfl, rfl⟩ := dated_run hr
  refine ⟨rfl, ?_, Nat.le_trans ho.instant ho'.instant, rfl⟩
  rw [ho'.circuit]
  exact WorkControls.setCircuit_circuit

theorem transient_run {error : FetchError} (hc : error.class = .transient)
    (h : RunsAmong s t key (refreshOutcome s key (.error error)) w calls outcome w') :
    ∃ now backoff transition, w.instant ≤ now ∧ now ≤ w'.instant ∧
      (w.controls.circuit key).failure error.retryAfter now = ((backoff, transition), w'.controls.circuit key) ∧
      calls.findSome? failureOf = some ⟨now, error.retryAfter, backoff, transition⟩ ∧
      outcome = ⟨.error error, w'.instant + backoff⟩ := by
  simp only [refreshOutcome, validFor, hc] at h
  obtain ⟨w₁, ⟨backoff, transition⟩, w₂, rest, rfl, ho, ⟨outside, he⟩, hr⟩ := h.of_op
  obtain ⟨ha, rfl⟩ := Prod.mk.inj (Option.some.inj he)
  obtain ⟨ho', rfl, rfl⟩ := dated_run hr
  refine ⟨w₁.instant, backoff, transition, ho.instant, ho'.instant, ?_, rfl, rfl⟩
  rw [ho'.circuit]
  simp only [WorkControls.failureBackoff, ho.circuit, WorkControls.setCircuit_circuit] at ha ⊢
  rw [← ha]

/-- The call that asks how long the circuit stays open. -/
def askedRemaining (key : ResourceKey) (w : World P L) : Performed (Op P) Ans (World P L) :=
  ⟨w, .circuitRemaining key, (w.controls.circuit key).remaining w.instant,
    { w with controls := w.controls.setCircuit key (w.controls.circuit key) }⟩

theorem open_run {error : FetchError} (hc : error.class = .circuitOpen)
    (h : RunsAmong s t key (refreshOutcome s key (.error error)) w calls outcome w') :
    ∃ w₁, Others key w w₁ ∧ Others key w₁ w' ∧
      calls = [askedRemaining key w₁, ⟨w', .instantNow, w'.instant, w'⟩] ∧
      outcome = ⟨.error error, w'.instant + (w₁.controls.circuit key).remaining w₁.instant⟩ := by
  simp only [refreshOutcome, validFor, hc] at h
  obtain ⟨w₁, a, w₂, rest, rfl, ho, ⟨outside, he⟩, hr⟩ := h.of_op
  have hkept : Others key w₁ w₂ := by
    refine World.exec_others ?_ ?_ he
    · rintro ⟨⟩
    · rintro retryAfter ⟨⟩
  obtain ⟨rfl, rfl⟩ := Prod.mk.inj (Option.some.inj he)
  obtain ⟨ho', rfl, rfl⟩ := dated_run hr
  exact ⟨w₁, ho, hkept.trans ho', rfl, rfl⟩

theorem short_run {error : FetchError} (hc : error.class = .permanent ∨ error.class = .loadShed)
    (h : RunsAmong s t key (refreshOutcome s key (.error error)) w calls outcome w') :
    Others key w w' ∧ calls = [⟨w', .instantNow, w'.instant, w'⟩] ∧
      outcome = ⟨.error error, w'.instant + coalescedFailureTtl⟩ := by
  rcases hc with hc | hc <;>
  · simp only [refreshOutcome, validFor, hc] at h
    exact dated_run h

/-- A call that spends nothing: no lookup, no fetch, no permit and no token. -/
structure Spares (key : ResourceKey) (c : Performed (Op P) Ans (World P L)) : Prop where
  op : c.op = .checkCircuit key ∨ c.op = .circuitRemaining key ∨ c.op = .instantNow
  world : ∃ circuits, c.after = { c.before with controls := { c.before.controls with circuits := circuits } }

/-- The first call of a refresh. -/
def asked (key : ResourceKey) (w : World P L) : Performed (Op P) Ans (World P L) :=
  ⟨w, .checkCircuit key, (w.controls.checkCircuit key w.instant).1,
    { w with controls := (w.controls.checkCircuit key w.instant).2 }⟩

/-- A refresh that finds `w₁`, has `result` in `w` and is settled there. -/
structure Attempt (s : ResolverService P L) (t : Nat) (key : ResourceKey) (r : Refresh P L) (w₁ w : World P L)
    (first last : List (Performed (Op P) Ans (World P L))) (result : Except FetchError (Representation P)) : Prop where
  calls : r.calls = asked key w₁ :: (first ++ last)
  checked : Others key r.before w₁
  began : Others key w₁ w
  failure : first.findSome? failureOf = none
  settled : RunsAmong s t key (refreshOutcome s key result) w last r.outcome r.after
  rejected : (w₁.controls.checkCircuit key w₁.instant).1 = .error (.new .circuitOpen) →
    first = [] ∧ result = .error (.new .circuitOpen)

theorem failureOf_none {c : Performed (Op P) Ans (World P L)} (h : ¬Settles c.op) : failureOf c = none := by
  obtain ⟨before, op, answer, after⟩ := c
  cases op with
  | failureBackoff key retryAfter => exact absurd trivial h
  | _ => rfl

/-- What does not settle a refresh of the key keeps its circuit. -/
theorem exec_not_settles {o : Op P} {outside : Outside} {a : Ans o} (ho : ¬Settles o)
    (h : World.exec s t o outside w = some (a, w')) : Others key w w' := by
  refine World.exec_others ?_ ?_ h
  · rintro rfl
    exact ho trivial
  · rintro retryAfter rfl
    exact ho trivial

theorem refresh_attempt {previous : Option (Representation P)} {r : Refresh P L}
    (h : RunsAmong s t key (refresh s key previous) r.before r.calls r.outcome r.after) :
    ∃ w₁ w first last result, Attempt s t key r w₁ w first last result := by
  obtain ⟨permitted, hwithin, heq⟩ := refresh_eq s key previous
  rw [heq] at h
  obtain ⟨w₁, a, w₂, rest, hcalls, ho, ⟨outside, he⟩, hr⟩ := h.of_op
  obtain ⟨first, last, result, w, rfl, hfirst, hlast⟩ := hr.of_bind
  have hkept : Others key w₁ w₂ := exec_not_settles id he
  have hno : (Prog.orReturn a fun _ => permitted).Within (fun o => ¬Settles o) := .orReturn fun _ => hwithin
  have hothers : Others key w₂ w := by
    refine hfirst.related .refl (fun _ _ _ => .trans) (fun _ _ => id) ?_ hno
    rintro o w₁ a w₂ hs ⟨outside, he⟩
    exact exec_not_settles hs he
  have hfailure : first.findSome? failureOf = none := by
    rw [List.findSome?_eq_none_iff]
    exact fun c hc => failureOf_none (hfirst.ops hno c hc)
  obtain ⟨rfl, rfl⟩ := Prod.mk.inj (Option.some.inj he)
  have hrejected : (w₁.controls.checkCircuit key w₁.instant).1 = .error (.new .circuitOpen) →
      first = [] ∧ result = .error (.new .circuitOpen) := by
    intro herr
    rw [herr, Prog.orReturn_error] at hfirst
    obtain ⟨rfl, rfl, -⟩ := hfirst.of_ret
    exact ⟨rfl, rfl⟩
  exact ⟨w₁, w, first, last, result, hcalls, ho, hkept.trans hothers, hfailure, hlast, hrejected⟩

end Settlements

end EnvoyWebBotAuth.Resolver
