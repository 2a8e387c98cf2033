import EnvoyWebBotAuth.Resolver.Permits
/-!
# Refreshes in flight

Who leads a refresh and who waits for it, over whole runs. At most one live
call leads for a key, and the fetches in progress are for different keys
(`fetches_in_progress`). Nobody waits for a leader that is gone: a call that
waits can go on, or another live call leads for its key and can go on
(`waits_for_a_leader`). With a bound on the calls of a task every schedule
completes (`schedules_complete`).
-/
open EnvoyWebBotAuth.Lib EnvoyWebBotAuth.Protocol

namespace EnvoyWebBotAuth.Resolver

variable {P L : Type} {s : ResolverService P L}

/-- The key a thread waits for. -/
def Stage.waitsFor : Stage → Option ResourceKey
  | .parked key => some key
  | .idle | .leads _ _ | .begun _ _ | .fetched _ => none

namespace Stage

variable (stage : Stage)

/-- Neither the circuit nor a permit changes who leads or waits. -/
@[simp] theorem checkCircuit_lead (answer : Except FetchError Unit) : (stage.checkCircuit answer).lead = stage.lead := by
  cases answer <;> cases stage <;> rfl
@[simp] theorem checkCircuit_waitsFor (answer : Except FetchError Unit) :
    (stage.checkCircuit answer).waitsFor = stage.waitsFor := by
  cases answer <;> cases stage <;> rfl
@[simp] theorem count_lead : stage.count.lead = stage.lead := by cases stage <;> rfl
@[simp] theorem count_waitsFor : stage.count.waitsFor = stage.waitsFor := by cases stage <;> rfl
@[simp] theorem beginFetch_lead : stage.beginFetch.lead = stage.lead := by cases stage <;> rfl
@[simp] theorem checkIp_lead (ip : IpAddr) : (stage.checkIp ip).lead = stage.lead := by cases stage <;> rfl
@[simp] theorem fetch_lead : stage.fetch.lead = stage.lead := by cases stage <;> rfl
@[simp] theorem dropPermit_lead : stage.dropPermit.lead = stage.lead := by cases stage <;> rfl
@[simp] theorem beginFetch_waitsFor : stage.beginFetch.waitsFor = stage.waitsFor := by cases stage <;> rfl
@[simp] theorem checkIp_waitsFor (ip : IpAddr) : (stage.checkIp ip).waitsFor = stage.waitsFor := by cases stage <;> rfl
@[simp] theorem fetch_waitsFor : stage.fetch.waitsFor = stage.waitsFor := by cases stage <;> rfl
@[simp] theorem dropPermit_waitsFor : stage.dropPermit.waitsFor = stage.waitsFor := by cases stage <;> rfl

end Stage

/-- The cache of the refreshes has the leaders and the seats the threads say. -/
structure Flights (w : World P L) (τ : Nat → Option Holding) : Prop where
  leaders : ∀ key t, w.refreshes.running key = some t ↔ (τ t).bind (fun x => x.stage.lead) = some key
  seats : ∀ t, w.refreshes.seatOf t = (τ t).bind (fun x => x.stage.waitsFor)
  manned : w.refreshes.Manned

namespace Flights

variable {w w' : World P L} {τ : Nat → Option Holding} {t : Nat} {x : Holding} {key : ResourceKey}

theorem start (wall : SystemTime) (instant : Instant) : Flights (World.start s wall instant) (fun _ => none) where
  leaders key t := by
    constructor
    · rintro ⟨⟩
    · rintro ⟨⟩
  seats _ := rfl
  manned := .empty

/-- A step of thread `t` after which it holds `q`. -/
theorem update (h : Flights w τ) {q : Option Holding}
    (hlead : ∀ key t', w'.refreshes.running key = some t' ↔
      if t' = t then q.bind (fun x => x.stage.lead) = some key else w.refreshes.running key = some t')
    (hseat : ∀ t', w'.refreshes.seatOf t' =
      if t' = t then q.bind (fun x => x.stage.waitsFor) else w.refreshes.seatOf t')
    (hman : w'.refreshes.Manned) : Flights w' (Function.update τ t q) where
  leaders key t' := by
    rw [hlead, Function.update_apply]
    split
    · rfl
    · exact h.leaders key t'
  seats t' := by
    rw [hseat, Function.update_apply]
    split
    · rfl
    · exact h.seats t'
  manned := hman

/-- A step that leaves the refreshes alone, by a thread that leads and waits as
before. -/
theorem same (h : Flights w τ) {q : Option Holding} (hw : w'.refreshes = w.refreshes)
    (hl : q.bind (fun x => x.stage.lead) = (τ t).bind (fun x => x.stage.lead))
    (hs : q.bind (fun x => x.stage.waitsFor) = (τ t).bind (fun x => x.stage.waitsFor)) :
    Flights w' (Function.update τ t q) := by
  apply h.update
  · intro key t'
    rw [hw]
    split
    · rename_i ht
      rw [ht, hl]
      exact h.leaders key t
    · rfl
  · intro t'
    rw [hw]
    split
    · rename_i ht
      rw [ht, hs]
      exact h.seats t
    · rfl
  · rw [hw]
    exact h.manned

/-- An entry is forgotten. -/
theorem forget (h : Flights w τ) (key : ResourceKey) :
    Flights { w with refreshes := w.refreshes.forget key } τ := ⟨h.leaders, h.seats, h.manned⟩

/-- A thread that leads for none ends. -/
theorem ends (h : Flights w τ) (ht : τ t = some x) (hl : x.stage.lead = none) (hs : x.stage.waitsFor = none) :
    Flights w (Function.update τ t none) := by
  apply h.same rfl
  · rw [ht, Option.bind_some, hl]
    rfl
  · rw [ht, Option.bind_some, hs]
    rfl

theorem not_leader (h : Flights w τ) (ht : τ t = some x) (hx : x.stage.lead = none) (key : ResourceKey) :
    w.refreshes.running key ≠ some t := by
  intro hk
  rw [h.leaders, ht, Option.bind_some, hx] at hk
  cases hk

/-- A thread takes a seat or leaves it, and leads for none. -/
theorem reseat (h : Flights w τ) (ht : τ t = some x) (hx : x.stage.lead = none)
    (hrun : w'.refreshes.running = w.refreshes.running) {y : Holding} (hy : y.stage.lead = none)
    (hseat : ∀ t', w'.refreshes.seatOf t' = if t' = t then y.stage.waitsFor else w.refreshes.seatOf t')
    (hman : w'.refreshes.Manned) : Flights w' (Function.update τ t (some y)) := by
  apply h.update
  · intro key t'
    rw [hrun, Option.bind_some, hy]
    split
    · rename_i ht'
      subst ht'
      simp [h.not_leader ht hx key]
    · rfl
  · exact hseat
  · exact hman

/-- A thread takes the lead for a key that has no leader. -/
theorem lead (h : Flights w τ) (ht : τ t = some x) (hx : x.stage.lead = none)
    (hr : w.refreshes.running key = none)
    (hrun : w'.refreshes.running = Function.update w.refreshes.running key (some t))
    (hseat : ∀ t', w'.refreshes.seatOf t' = if t' = t then none else w.refreshes.seatOf t')
    (hman : w'.refreshes.Manned) {y : Holding} (hy : y.stage = .leads key false) :
    Flights w' (Function.update τ t (some y)) := by
  apply h.update
  · intro key' t'
    rw [hrun, Function.update_apply, Option.bind_some, hy]
    by_cases hk : key' = key
    · subst hk
      rw [if_pos rfl, hr]
      by_cases ht' : t' = t
      · simp [ht', Stage.lead]
      · simp [ht', Ne.symm ht']
    · rw [if_neg hk]
      by_cases ht' : t' = t
      · subst ht'
        simp [h.not_leader ht hx key', Stage.lead, Ne.symm hk]
      · simp [ht']
  · intro t'
    rw [hseat, Option.bind_some, hy]
    rfl
  · exact hman

/-- The leader of a key lands. -/
theorem land (h : Flights w τ) (ht : τ t = some x) {cleared : Bool} (hx : x.stage = .leads key cleared)
    {outcome : RefreshOutcome P} {y : Holding} (hy : y.stage = .idle) :
    Flights { w with refreshes := w.refreshes.land key outcome } (Function.update τ t (some y)) := by
  have hled : ∀ key', w.refreshes.running key' = some t ↔ key = key' := by
    intro key'
    rw [h.leaders, ht, Option.bind_some, hx]
    simp [Stage.lead]
  apply h.update
  · intro key' t'
    simp only [SingleFlight.land, Function.update_apply, Option.bind_some, hy, Stage.lead]
    by_cases hk : key' = key
    · subst hk
      rw [if_pos rfl, (hled key').2 rfl]
      by_cases ht' : t' = t
      · simp [ht']
      · simp [ht', Ne.symm ht']
    · rw [if_neg hk]
      by_cases ht' : t' = t
      · subst ht'
        simp [hled key', Ne.symm hk]
      · simp [ht']
  · intro t'
    simp only [SingleFlight.land_seatOf]
    split
    · rename_i ht'
      rw [ht', h.seats, ht, Option.bind_some, Option.bind_some, hx, hy]
      rfl
    · rfl
  · exact h.manned.land

theorem turn (h : Flights w τ) (ht : τ t = some x) {o : Op P} {outside : Outside} {a : Ans o} (hmay : x.may s o)
    (he : World.exec s t o outside w = some (a, w')) : Flights w' (Function.update τ t (some (x.move o a))) := by
  -- most calls leave the refreshes alone, and who leads or waits
  have hsame : w'.refreshes = w.refreshes → (x.move o a).stage.lead = x.stage.lead →
      (x.move o a).stage.waitsFor = x.stage.waitsFor → Flights w' (Function.update τ t (some (x.move o a))) := by
    intro hw hl hs
    apply h.same hw
    · rw [ht]
      exact hl
    · rw [ht]
      exact hs
  cases o with
  | acquireHandler =>
    simp only [World.exec] at he
    split at he
    all_goals
      obtain ⟨rfl, rfl⟩ := Prod.mk.inj (Option.some.inj he)
      exact hsame rfl rfl rfl
  | refreshesInvalidate key =>
    obtain ⟨rfl, rfl⟩ := Prod.mk.inj (Option.some.inj he)
    refine Flights.forget (w := w) ?_ key
    apply h.same rfl
    · rw [ht]
      rfl
    · rw [ht]
      rfl
  | getWith key =>
    obtain ⟨rfl, rfl⟩ := Prod.mk.inj (Option.some.inj he)
    have hidle : x.stage = .idle := hmay
    have hlead : x.stage.lead = none := by rw [hidle]; rfl
    rcases w.refreshes.enter_cases t key with ⟨v, -, hent⟩ | ⟨-, hr, hent⟩ | ⟨-, hent⟩
    · rw [hent] at hsame ⊢
      exact hsame rfl rfl rfl
    · rw [hent]
      refine h.lead ht hlead hr rfl (fun t' => ?_) h.manned.leadBy rfl
      split
      · rename_i ht'
        rw [ht']
        refine (h.seats t).trans ?_
        rw [ht, Option.bind_some, hidle]
        rfl
      · rfl
    · have hwait : (w.refreshes.running key).isSome := SingleFlight.enter_wait (t := t) (by rw [hent])
      rw [hent]
      refine h.reseat (y := ⟨x.handler, .parked key⟩) ht hlead ?_ rfl ?_ (h.manned.seat hwait)
      · rfl
      · exact fun t' => SingleFlight.seat_seatOf
  | awaitWith key =>
    obtain ⟨⟨r, refreshes⟩, hawait, hr⟩ := Option.map_eq_some_iff.1 he
    obtain ⟨rfl, rfl⟩ := Prod.mk.inj hr
    have hparked : x.stage = .parked key := hmay
    have hlead : x.stage.lead = none := by rw [hparked]; rfl
    rcases SingleFlight.await_cases hawait with ⟨v, rfl, rfl, -⟩ | ⟨rfl, rfl, -, hr⟩
    · refine h.reseat (y := ⟨x.handler, .idle⟩) ht hlead ?_ rfl ?_ h.manned.unseat
      · rfl
      · exact fun t' => SingleFlight.unseat_seatOf
    · exact h.lead ht hlead hr rfl (fun t' => SingleFlight.unseat_seatOf) h.manned.unseat.leadBy rfl
  | initDone key outcome =>
    obtain ⟨rfl, rfl⟩ := Prod.mk.inj (Option.some.inj he)
    obtain ⟨cleared, hleads⟩ := hmay
    exact h.land ht hleads rfl
  | beginFetch origin =>
    obtain ⟨rfl, rfl⟩ := Prod.mk.inj (Option.some.inj he)
    cases hb : (w.controls.beginFetch s.governor s.limits t origin w.instant).1 with
    | ok u =>
      rw [hb] at hsame
      exact hsame rfl (by simp [Holding.move]) (by simp [Holding.move])
    | error error =>
      rw [hb] at hsame
      exact hsame rfl rfl rfl
  | checkIp ip =>
    obtain ⟨rfl, rfl⟩ := Prod.mk.inj (Option.some.inj he)
    cases hb : (w.controls.checkIp s.governor s.limits ip w.instant).1 with
    | ok u =>
      rw [hb] at hsame
      exact hsame rfl (by simp [Holding.move]) (by simp [Holding.move])
    | error error =>
      rw [hb] at hsame
      exact hsame rfl rfl rfl
  | dropPermit | checkCircuit | success | failureBackoff =>
    obtain ⟨rfl, rfl⟩ := Prod.mk.inj (Option.some.inj he)
    exact hsame rfl (by simp [Holding.move]) (by simp [Holding.move])
  | resolveHost host port =>
    cases outside with
    | addresses answer =>
      obtain ⟨rfl, rfl⟩ := Prod.mk.inj (Option.some.inj he)
      exact hsame rfl rfl rfl
    | silent => cases he
    | response answer => cases he
  | fetch request =>
    cases outside with
    | response answer =>
      obtain ⟨rfl, rfl⟩ := Prod.mk.inj (Option.some.inj he)
      exact hsame rfl (by simp [Holding.move]) (by simp [Holding.move])
    | silent => cases he
    | addresses answer => cases he
  | _ =>
    obtain ⟨rfl, rfl⟩ := Prod.mk.inj (Option.some.inj he)
    exact hsame rfl rfl rfl

theorem env (h : Flights w τ) {e : Env} (he : World.env e w = some w') : Flights w' τ := by
  cases e with
  | clock wall instant =>
    simp only [World.env] at he
    split at he
    · obtain rfl := Option.some.inj he
      exact ⟨h.leaders, h.seats, h.manned⟩
    · cases he
  | park t =>
    obtain ⟨refreshes, hp, rfl⟩ := Option.map_eq_some_iff.1 he
    refine ⟨fun key t' => ?_, fun t' => ?_, h.manned.park hp⟩
    · rw [← h.leaders key t', SingleFlight.park_running hp]
    · rw [← h.seats t', SingleFlight.park_seatOf hp]
  | evictRefresh key =>
    obtain rfl := Option.some.inj he
    exact h.forget key
  | evictRepresentation | evictCircuit | evictOrigin | evictIp =>
    obtain rfl := Option.some.inj he
    exact ⟨h.leaders, h.seats, h.manned⟩

theorem moves (h : Flights w τ) {τ' : Nat → Option Holding} (hm : (conduct s).Moves s.system w τ w' τ') :
    Flights w' τ' := by
  cases hm with
  | call t ht =>
    apply h.same rfl
    · rw [ht]
      rfl
    · rw [ht]
      rfl
  | turn t x o y a w' ht hmay he => exact h.turn ht hmay he
  | finish t x ht hdone =>
    obtain rfl := hdone
    exact h.ends ht rfl rfl
  | drop t x ht =>
    apply h.update
    · intro key t'
      refine SingleFlight.leave_running.trans ?_
      split
      · rename_i ht'
        simp [ht']
      · rename_i ht'
        simp [ht']
    · exact fun t' => SingleFlight.leave_seatOf
    · exact h.manned.leave
  | env e w' he => exact h.env he

end Flights

theorem Reached.flights {state : ResolverState P L} (h : Reached s state) :
    Flights state.world (held state) := by
  obtain ⟨wall, instant, h⟩ := h
  exact (follows s).invariant (Flights.start wall instant) (fun _ _ _ _ h hm => h.moves hm) h

/-! ## One flight per key -/

/-- A live call that leads the refresh of the key. -/
def Leads (state : ResolverState P L) (t : Nat) (key : ResourceKey) : Prop :=
  ∃ x, held state t = some x ∧ x.stage.lead = some key

/-- The calls that look at DNS, at the limiter of an address, or fetch. -/
def Op.Outward : Op P → Prop
  | .resolveHost _ _ | .checkIp _ | .fetch _ => True
  | _ => False

theorem Reached.leader {state : ResolverState P L} (h : Reached s state) {t : Nat} {key : ResourceKey} :
    Leads state t key ↔ state.world.refreshes.running key = some t := by
  rw [h.flights.leaders, Option.bind_eq_some_iff]
  rfl

/-- A thread about to fetch leads for the key of the fetch, with a permit. -/
theorem Reached.fetching {state : ResolverState P L} (h : Reached s state) {t : Nat} {task : Task}
    {request : FetchRequest} {k : Except FetchError FetchResponse → Calls P (Answer P)}
    (ht : state.threads t = some (task, .op (.fetch request) k)) : Leads state t ⟨request.url, request.kind⟩ := by
  have hbegun : (holding t state.log).stage = .begun ⟨request.url, request.kind⟩ (some request.selectedIp) := h.may ht
  exact ⟨_, held_of_live ht, by rw [hbegun]; rfl⟩

/-- At most one live call refreshes a key. The fetches in progress, with what
leads up to them, are no more than their permits and for different keys. -/
theorem fetches_in_progress {state : ResolverState P L} (h : Reached s state) :
    (∀ t₁ t₂ key, Leads state t₁ key → Leads state t₂ key → t₁ = t₂) ∧
    (∀ ts : List Nat, ts.Nodup →
      (∀ t ∈ ts, ∃ task o k, state.threads t = some (task, .op o k) ∧ o.Outward) →
      ts.length ≤ s.limits.outboundFetches) ∧
    ∀ t₁ t₂ task₁ task₂ request₁ request₂ k₁ k₂, state.threads t₁ = some (task₁, .op (.fetch request₁) k₁) →
      state.threads t₂ = some (task₂, .op (.fetch request₂) k₂) → request₁.url = request₂.url →
      request₁.kind = request₂.kind → t₁ = t₂ := by
  have hone : ∀ t₁ t₂ key, Leads state t₁ key → Leads state t₂ key → t₁ = t₂ := by
    intro t₁ t₂ key h₁ h₂
    rw [h.leader] at h₁ h₂
    rw [h₁] at h₂
    exact Option.some.inj h₂
  refine ⟨hone, fun ts hn hts => ?_, ?_⟩
  · refine Nat.le_trans ?_ h.outbound.room
    rw [h.outbound.le_length_iff]
    refine ⟨ts, hn, Nat.le_refl _, fun t ht => ?_⟩
    obtain ⟨task, o, k, hlive, hout⟩ := hts t ht
    refine ⟨_, held_of_live hlive, ?_⟩
    -- all three are called with a permit
    have hmay := h.may hlive
    cases o with
    | resolveHost host port =>
      obtain ⟨key, hkey⟩ := hmay
      rw [hkey]
      trivial
    | checkIp ip =>
      obtain ⟨key, hkey⟩ := hmay
      rw [hkey]
      trivial
    | fetch request =>
      have hkey : (holding t state.log).stage = .begun ⟨request.url, request.kind⟩ (some request.selectedIp) := hmay
      rw [hkey]
      trivial
    | _ => exact hout.elim
  · intro t₁ t₂ task₁ task₂ request₁ request₂ k₁ k₂ h₁ h₂ hu hk
    have hlead := h.fetching h₂
    rw [← hu, ← hk] at hlead
    exact hone t₁ t₂ _ (h.fetching h₁) hlead

/-- Two loads of one key, the second of which waits for the first. -/
def joining : List SampleAction :=
  .call 1 (.load sampleKey) :: turns 1 4 ++ .call 2 (.load sampleKey) :: turns 2 4

theorem fetches_in_progress_sample : ∃ state, sampleRun joining = some state ∧ Leads state 1 sampleKey ∧
    ∀ t, Leads state t sampleKey → t = 1 := by
  have hrun : (sampleRun joining).map (fun state => state.world.refreshes.running sampleKey) = some (some 1) := by
    decide +kernel
  obtain ⟨state, hrun, hlead⟩ := Option.map_eq_some_iff.1 hrun
  have h := sampleRun_reached hrun
  have hone : Leads state 1 sampleKey := h.leader.2 hlead
  exact ⟨state, hrun, hone, fun t ht => (fetches_in_progress h).1 t 1 sampleKey ht hone⟩

/-! ## Nobody waits in vain -/

/-- Every call is answered at once, given what comes from outside, but the one
that waits for a leader. -/
theorem exec_answers (t : Nat) (o : Op P) (w : World P L) (ho : ∀ key, o ≠ .awaitWith key) :
    ∃ x r, World.exec s t o x w = some r := by
  cases o with
  | awaitWith key => exact absurd rfl (ho key)
  | resolveHost host port => exact ⟨.addresses (.error (.new .dns)), _, rfl⟩
  | fetch request => exact ⟨.response (.error (.new .transport)), _, rfl⟩
  | acquireHandler =>
    refine ⟨.silent, ?_⟩
    simp only [World.exec]
    split
    · exact ⟨_, rfl⟩
    · exact ⟨_, rfl⟩
  | _ => exact ⟨.silent, _, rfl⟩

theorem step_of_exec {state : ResolverState P L} {t : Nat} {task : Task} {o : Op P}
    {k : Ans o → Calls P (Answer P)} (ht : state.threads t = some (task, .op o k)) {x : Outside}
    {r : Ans o × World P L} (he : World.exec s t o x state.world = some r) :
    (s.system.step state (.turn t x)).isSome := by
  unfold System.step
  dsimp only
  rw [ht]
  show (Option.map _ (World.exec s t o x state.world)).isSome = true
  rw [he]
  rfl

theorem Leads.live {state : ResolverState P L} {t : Nat} {key : ResourceKey} (hl : Leads state t key) :
    state.threads t ≠ none := by
  obtain ⟨x, hheld, -⟩ := hl
  obtain ⟨task, p, ht, -⟩ := held_eq_some hheld
  rw [ht]
  exact nofun

/-- A thread that leads can go on. -/
theorem Leads.goes_on {state : ResolverState P L} (h : Reached s state) {t : Nat} {key : ResourceKey}
    (hl : Leads state t key) : ∃ x, (s.system.step state (.turn t x)).isSome := by
  obtain ⟨x, hheld, hlead⟩ := hl
  obtain ⟨task, p, ht, rfl⟩ := held_eq_some hheld
  cases p with
  | ret a =>
    -- a thread that ends leads for none
    obtain ⟨-, n, -, hdone⟩ := h.kept.threads t task _ ht
    have hidle : holding t state.log = ⟨false, .idle⟩ := hdone
    rw [hidle] at hlead
    cases hlead
  | op o k =>
    obtain ⟨x, r, he⟩ := exec_answers (s := s) t o state.world (by
      rintro key' rfl
      have hparked : (holding t state.log).stage = .parked key' := h.may ht
      rw [hparked] at hlead
      cases hlead)
    exact ⟨x, step_of_exec ht he⟩

/-- A wait is over, or another live call leads the refresh. -/
theorem Reached.awaits {state : ResolverState P L} (h : Reached s state) {t : Nat} {task : Task} {key : ResourceKey}
    {k : Option (RefreshOutcome P) → Calls P (Answer P)}
    (ht : state.threads t = some (task, .op (.awaitWith key) k)) :
    (s.system.step state (.turn t .silent)).isSome ∨ ∃ t', t' ≠ t ∧ Leads state t' key := by
  have hparked : (holding t state.log).stage = .parked key := h.may ht
  have hseat : state.world.refreshes.seatOf t = some key := by
    rw [h.flights.seats, held_of_live ht, Option.bind_some, hparked]
    rfl
  rcases SingleFlight.await_or_led h.flights.manned hseat with ⟨r, hr⟩ | ⟨t', ht'⟩
  · left
    refine step_of_exec ht (r := (r.1, { state.world with refreshes := r.2 })) ?_
    simp only [World.exec, hr, Option.map_some]
  · right
    have hleads := h.leader.2 ht'
    refine ⟨t', ?_, hleads⟩
    -- who waits does not lead
    rintro rfl
    obtain ⟨x, hheld, hlead⟩ := hleads
    rw [held_of_live ht] at hheld
    obtain rfl := Option.some.inj hheld
    rw [hparked] at hlead
    cases hlead

/-- A call that waits for a refresh gets its answer, or another live call leads
that refresh and can go on. -/
theorem waits_for_a_leader {state : ResolverState P L} (h : Reached s state) {t : Nat} {task : Task}
    {key : ResourceKey} {k : Option (RefreshOutcome P) → Calls P (Answer P)}
    (ht : state.threads t = some (task, .op (.awaitWith key) k)) :
    (∃ x, (s.system.step state (.turn t x)).isSome) ∨
    ∃ t', t' ≠ t ∧ Leads state t' key ∧ ∃ x, (s.system.step state (.turn t' x)).isSome := by
  rcases h.awaits ht with hstep | ⟨t', hne, hleads⟩
  · exact .inl ⟨.silent, hstep⟩
  · exact .inr ⟨t', hne, hleads, hleads.goes_on h⟩

/-- The key of the refresh a thread waits for. -/
def awaitedBy (t : Nat) (state : ResolverState SamplePolicy Unit) : Option ResourceKey :=
  match state.threads t with
  | some (_, .op (.awaitWith key) _) => some key
  | _ => none

theorem waits_for_a_leader_sample : ∃ state, sampleRun joining = some state ∧
    ((∃ x, (sampleService.system.step state (.turn 2 x)).isSome) ∨
      ∃ t, t ≠ 2 ∧ Leads state t sampleKey ∧ ∃ x, (sampleService.system.step state (.turn t x)).isSome) := by
  have hrun : (sampleRun joining).bind (awaitedBy 2) = some sampleKey := by decide +kernel
  obtain ⟨state, hrun, hwait⟩ := Option.bind_eq_some_iff.1 hrun
  refine ⟨state, hrun, ?_⟩
  unfold awaitedBy at hwait
  split at hwait
  · rename_i task key k ht
    obtain rfl := Option.some.inj hwait
    exact waits_for_a_leader (sampleRun_reached hrun) ht
  · cases hwait

/-! ## Every schedule completes -/

/-- While a call is live, one that is can go on. -/
theorem Reached.goes_on {state : ResolverState P L} (h : Reached s state) {t : Nat} (ht : state.threads t ≠ none) :
    ∃ t', state.threads t' ≠ none ∧
      ((∃ x, (s.system.step state (.turn t' x)).isSome) ∨ (s.system.step state (.finish t')).isSome) := by
  obtain ⟨⟨task, p⟩, hp⟩ := Option.ne_none_iff_exists'.1 ht
  cases p with
  | ret a =>
    refine ⟨t, ht, .inr ?_⟩
    simp [System.step, hp]
  | op o k =>
    by_cases ho : ∃ key, o = .awaitWith key
    · obtain ⟨key, rfl⟩ := ho
      rcases h.awaits hp with hstep | ⟨t', -, hleads⟩
      · exact ⟨t, ht, .inl ⟨.silent, hstep⟩⟩
      · exact ⟨t', hleads.live, .inl (hleads.goes_on h)⟩
    · obtain ⟨x, r, he⟩ := exec_answers (s := s) t o state.world (fun key hk => ho ⟨key, hk⟩)
      exact ⟨t, ht, .inl ⟨x, step_of_exec hp he⟩⟩

theorem Task.calls_le (task : Task) : task.calls ≤ 41 := by
  unfold Task.calls loadCalls
  split
  · omega
  · omega

/-- Without new calls no schedule of the threads goes on for ever, whatever the
surroundings do, and one that stops has brought every call to its end. -/
theorem schedules_complete {state state' : ResolverState P L} (h : Reached s state)
    {actions : List (Action Task Outside Env)} (hno : ∀ a ∈ actions, ∀ t task, a ≠ .call t task)
    (hrun : s.system.run state actions = some state') :
    (actions.filter (fun a => a.thread.isSome)).length + state.log.length ≤
      43 * (Conduct.started state.log).length ∧
    ((∀ t, (∀ x, s.system.step state' (.turn t x) = none) ∧ s.system.step state' (.finish t) = none) →
      ∀ t, state'.threads t = none) := by
  obtain ⟨wall, instant, h⟩ := h
  have h' : s.system.Reachable (World.start s wall instant) state' := h.run _ actions hrun
  constructor
  · have hle := ((follows s).counted Task.calls_le h').length_le
    rw [s.system.run_length hrun, Conduct.run_started hno hrun] at hle
    omega
  · intro hstuck t
    by_contra hlive
    obtain ⟨t', -, ⟨x, hx⟩ | hf⟩ := Reached.goes_on ⟨wall, instant, h'⟩ hlive
    · rw [(hstuck t').1 x] at hx
      cases hx
    · rw [(hstuck t').2] at hf
      cases hf

/-- A load that is called makes at most 43 steps. -/
theorem schedules_complete_sample : ∃ state state', sampleRun [.call 1 (.load sampleKey)] = some state ∧
    sampleService.system.run state (turns 1 6) = some state' ∧
    ((turns 1 6).filter (fun a => a.thread.isSome)).length + state.log.length ≤
      43 * (Conduct.started state.log).length := by
  have hreached := sampleRun_reached (show sampleRun [.call 1 (.load sampleKey)] = some _ from rfl)
  refine ⟨_, _, rfl, rfl, (schedules_complete hreached ?_ rfl).1⟩
  intro a ha t task
  obtain rfl := List.eq_of_mem_replicate ha
  exact nofun

end EnvoyWebBotAuth.Resolver
