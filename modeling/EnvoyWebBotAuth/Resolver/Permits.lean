import EnvoyWebBotAuth.Lib.Lending
import EnvoyWebBotAuth.Resolver.Conduct
import EnvoyWebBotAuth.Resolver.Tasks
/-!
# Permits

The two semaphores of the resolver over whole runs: the permits that are taken
are those of the live threads that hold one (`permits_are_held`), so a call
that times out or is dropped leaks none, and no more threads than permits are
admitted or fetch at a time (`overloaded_iff`).
-/
open EnvoyWebBotAuth.Lib EnvoyWebBotAuth.Protocol

namespace EnvoyWebBotAuth.Resolver

variable {P L : Type} {s : ResolverService P L}

/-- What a thread holds by its calls. -/
def holding (t : Nat) (log : Log P) : Holding := (own t log).foldr (fun e x => x.move e.1 e.2) ⟨false, .idle⟩

/-- What a live thread holds. -/
def held (state : ResolverState P L) (t : Nat) : Option Holding := (state.threads t).map (fun _ => holding t state.log)

theorem held_of_live {state : ResolverState P L} {t : Nat} {task : Task} {p : Calls P (Answer P)}
    (h : state.threads t = some (task, p)) : held state t = some (holding t state.log) := by
  rw [held, h]
  rfl

theorem held_eq_some {state : ResolverState P L} {t : Nat} {x : Holding} (h : held state t = some x) :
    ∃ task p, state.threads t = some (task, p) ∧ x = holding t state.log := by
  obtain ⟨⟨task, p⟩, hp, rfl⟩ := Option.map_eq_some_iff.1 h
  exact ⟨task, p, hp, rfl⟩

theorem Reached.kept {state : ResolverState P L} (h : Reached s state) : (conduct s).Kept Task.calls state := by
  obtain ⟨wall, instant, h⟩ := h
  exact (follows s).kept h

/-- What a live thread may call next. -/
theorem Reached.may {state : ResolverState P L} (h : Reached s state) {t : Nat} {task : Task} {o : Op P}
    {k : Ans o → Calls P (Answer P)} (ht : state.threads t = some (task, .op o k)) :
    (holding t state.log).may s o := by
  obtain ⟨-, n, -, -, hmay, -⟩ := h.kept.threads t task _ ht
  exact hmay

/-! ## The lists of the semaphores -/

namespace WorkControls

variable (g : Governor L) (limits : Limits) (w : WorkControls L) (t : Nat) (origin : String) (now : Instant)

theorem checkOrigin_outbound : (w.checkOrigin g limits origin now).2.outbound = w.outbound := rfl

theorem admitOrigin_outbound : (w.admitOrigin limits origin now).2.outbound = w.outbound := by
  unfold admitOrigin
  dsimp only
  split
  · rfl
  · split <;> rfl

/-- A fetch that is let in takes a permit, and one that is not takes none. -/
theorem beginFetch_outbound :
    ((w.beginFetch g limits t origin now).1 = .ok () ∧ w.outbound.length < limits.outboundFetches ∧
      (w.beginFetch g limits t origin now).2.outbound = t :: w.outbound) ∨
    ((∃ error, (w.beginFetch g limits t origin now).1 = .error error) ∧
      (w.beginFetch g limits t origin now).2.outbound = w.outbound) := by
  unfold beginFetch
  split
  · exact .inr ⟨⟨_, rfl⟩, rfl⟩
  · rename_i hroom
    dsimp only
    split
    · exact .inr ⟨⟨_, rfl⟩, rfl⟩
    · split
      · exact .inr ⟨⟨_, rfl⟩, admitOrigin_outbound ..⟩
      · split
        · refine .inr ⟨⟨_, rfl⟩, ?_⟩
          rw [checkOrigin_outbound, admitOrigin_outbound]
        · refine .inl ⟨rfl, by omega, ?_⟩
          simp only [checkOrigin_outbound, admitOrigin_outbound]

end WorkControls

section Permits

variable {t : Nat} {o : Op P} {x : Outside} {a : Ans o} {w w' : World P L}

/-- What a call does to the permits of the handlers. -/
theorem exec_handlers (h : World.exec s t o x w = some (a, w')) :
    (w'.handlers = w.handlers ∧ ∀ y : Holding, (y.move o a).handler = y.handler) ∨
    (w'.handlers = t :: w.handlers ∧ w.handlers.length < s.limits.activeHandlers ∧
      ∀ y : Holding, y.may s o → y.handler = false ∧ (y.move o a).handler = true) ∨
    (w'.handlers = w.handlers.erase t ∧ ∀ y : Holding, (y.move o a).handler = false) := by
  cases o with
  | acquireHandler =>
    simp only [World.exec] at h
    split at h
    · obtain ⟨rfl, rfl⟩ := Prod.mk.inj (Option.some.inj h)
      exact .inl ⟨rfl, fun _ => rfl⟩
    · obtain ⟨rfl, rfl⟩ := Prod.mk.inj (Option.some.inj h)
      refine .inr (.inl ⟨rfl, by omega, ?_⟩)
      rintro y rfl
      exact ⟨rfl, rfl⟩
  | endTimeout =>
    obtain ⟨rfl, rfl⟩ := Prod.mk.inj (Option.some.inj h)
    exact .inr (.inr ⟨rfl, fun _ => rfl⟩)
  | getWith key =>
    obtain ⟨rfl, rfl⟩ := Prod.mk.inj (Option.some.inj h)
    refine .inl ⟨rfl, fun y => ?_⟩
    cases (w.refreshes.enter t key).1 <;> rfl
  | awaitWith key =>
    obtain ⟨⟨r, refreshes⟩, -, hr⟩ := Option.map_eq_some_iff.1 h
    obtain ⟨rfl, rfl⟩ := Prod.mk.inj hr
    refine .inl ⟨rfl, fun y => ?_⟩
    cases r <;> rfl
  | beginFetch origin =>
    obtain ⟨rfl, rfl⟩ := Prod.mk.inj (Option.some.inj h)
    refine .inl ⟨rfl, fun y => ?_⟩
    cases (w.controls.beginFetch s.governor s.limits t origin w.instant).1 <;> rfl
  | checkIp ip =>
    obtain ⟨rfl, rfl⟩ := Prod.mk.inj (Option.some.inj h)
    refine .inl ⟨rfl, fun y => ?_⟩
    cases (w.controls.checkIp s.governor s.limits ip w.instant).1 <;> rfl
  | resolveHost host port =>
    cases x with
    | addresses answer =>
      obtain ⟨rfl, rfl⟩ := Prod.mk.inj (Option.some.inj h)
      exact .inl ⟨rfl, fun _ => rfl⟩
    | silent => cases h
    | response answer => cases h
  | fetch request =>
    cases x with
    | response answer =>
      obtain ⟨rfl, rfl⟩ := Prod.mk.inj (Option.some.inj h)
      exact .inl ⟨rfl, fun _ => rfl⟩
    | silent => cases h
    | addresses answer => cases h
  | _ =>
    obtain ⟨rfl, rfl⟩ := Prod.mk.inj (Option.some.inj h)
    exact .inl ⟨rfl, fun _ => rfl⟩

/-- What a call does to the permits of the fetches. -/
theorem exec_outbound (h : World.exec s t o x w = some (a, w')) :
    (w'.controls.outbound = w.controls.outbound ∧
      ∀ y : Holding, y.may s o → ((y.move o a).stage.Permitted ↔ y.stage.Permitted)) ∨
    (w'.controls.outbound = t :: w.controls.outbound ∧ w.controls.outbound.length < s.limits.outboundFetches ∧
      ∀ y : Holding, y.may s o → ¬ y.stage.Permitted ∧ (y.move o a).stage.Permitted) ∨
    (w'.controls.outbound = w.controls.outbound.erase t ∧
      ∀ y : Holding, y.may s o → ¬ (y.move o a).stage.Permitted) := by
  cases o with
  | acquireHandler =>
    simp only [World.exec] at h
    split at h
    all_goals
      obtain ⟨rfl, rfl⟩ := Prod.mk.inj (Option.some.inj h)
      exact .inl ⟨rfl, fun _ _ => .rfl⟩
  | getWith key =>
    obtain ⟨rfl, rfl⟩ := Prod.mk.inj (Option.some.inj h)
    refine .inl ⟨rfl, fun y hmay => ?_⟩
    have hidle : y.stage = .idle := hmay
    cases (w.refreshes.enter t key).1 <;> simp [Holding.move, hidle, Stage.Permitted]
  | awaitWith key =>
    obtain ⟨⟨r, refreshes⟩, -, hr⟩ := Option.map_eq_some_iff.1 h
    obtain ⟨rfl, rfl⟩ := Prod.mk.inj hr
    refine .inl ⟨rfl, fun y hmay => ?_⟩
    have hparked : y.stage = .parked key := hmay
    cases r <;> simp [Holding.move, hparked, Stage.Permitted]
  | initDone key outcome =>
    obtain ⟨rfl, rfl⟩ := Prod.mk.inj (Option.some.inj h)
    refine .inl ⟨rfl, fun y hmay => ?_⟩
    obtain ⟨cleared, hleads⟩ := hmay
    simp [Holding.move, hleads, Stage.Permitted]
  | beginFetch origin =>
    obtain ⟨rfl, rfl⟩ := Prod.mk.inj (Option.some.inj h)
    rcases WorkControls.beginFetch_outbound s.governor s.limits w.controls t origin w.instant with
      ⟨hr, hroom, hout⟩ | ⟨⟨error, hr⟩, hout⟩
    · refine .inr (.inl ⟨hout, hroom, ?_⟩)
      rintro y ⟨key, hy, -⟩
      rw [hr]
      simp [Holding.move, hy, Stage.beginFetch, Stage.Permitted]
    · refine .inl ⟨hout, fun y _ => ?_⟩
      rw [hr]
      rfl
  | checkIp ip =>
    obtain ⟨rfl, rfl⟩ := Prod.mk.inj (Option.some.inj h)
    refine .inl ⟨rfl, fun y hmay => ?_⟩
    obtain ⟨key, hy⟩ := hmay
    cases (w.controls.checkIp s.governor s.limits ip w.instant).1 <;>
      simp [Holding.move, hy, Stage.checkIp, Stage.Permitted]
  | dropPermit =>
    obtain ⟨rfl, rfl⟩ := Prod.mk.inj (Option.some.inj h)
    refine .inr (.inr ⟨rfl, fun y hmay => ?_⟩)
    obtain ⟨handler, stage⟩ := y
    cases stage with
    | begun key => exact id
    | fetched key => exact id
    | idle => exact hmay.elim
    | parked key => exact hmay.elim
    | leads key cleared => exact hmay.elim
  | resolveHost host port =>
    cases x with
    | addresses answer =>
      obtain ⟨rfl, rfl⟩ := Prod.mk.inj (Option.some.inj h)
      exact .inl ⟨rfl, fun _ _ => .rfl⟩
    | silent => cases h
    | response answer => cases h
  | fetch request =>
    cases x with
    | response answer =>
      obtain ⟨rfl, rfl⟩ := Prod.mk.inj (Option.some.inj h)
      refine .inl ⟨rfl, fun y hmay => ?_⟩
      have hbegun : y.stage = .begun ⟨request.url, request.kind⟩ (some request.selectedIp) := hmay
      simp [Holding.move, hbegun, Stage.fetch, Stage.Permitted]
    | silent => cases h
    | addresses answer => cases h
  | checkCircuit key =>
    obtain ⟨rfl, rfl⟩ := Prod.mk.inj (Option.some.inj h)
    exact .inl ⟨rfl, fun _ _ => Stage.checkCircuit_permitted _ _⟩
  | success key =>
    obtain ⟨rfl, rfl⟩ := Prod.mk.inj (Option.some.inj h)
    exact .inl ⟨rfl, fun _ _ => Stage.count_permitted _⟩
  | failureBackoff key retryAfter =>
    obtain ⟨rfl, rfl⟩ := Prod.mk.inj (Option.some.inj h)
    exact .inl ⟨rfl, fun _ _ => Stage.count_permitted _⟩
  | _ =>
    obtain ⟨rfl, rfl⟩ := Prod.mk.inj (Option.some.inj h)
    exact .inl ⟨rfl, fun _ _ => .rfl⟩

theorem env_permits {e : Env} (h : World.env e w = some w') :
    w'.handlers = w.handlers ∧ w'.controls.outbound = w.controls.outbound := by
  cases e with
  | clock wall instant =>
    simp only [World.env] at h
    split at h
    · obtain rfl := Option.some.inj h
      exact ⟨rfl, rfl⟩
    · cases h
  | park t =>
    obtain ⟨refreshes, -, rfl⟩ := Option.map_eq_some_iff.1 h
    exact ⟨rfl, rfl⟩
  | _ =>
    obtain rfl := Option.some.inj h
    exact ⟨rfl, rfl⟩

end Permits

theorem handlers_lend (s : ResolverService P L) :
    (conduct s).Lends s.system World.handlers (fun x => x.handler = true) s.limits.activeHandlers where
  start := nofun
  done := by
    rintro x rfl
    exact nofun
  exec t x o y a w w' hmay he := by
    rcases exec_handlers he with ⟨hw, hx⟩ | ⟨hw, hroom, hx⟩ | ⟨hw, hx⟩
    · refine .inl ⟨hw, ?_⟩
      rw [show (conduct s).move x o a = x.move o a from rfl, hx x]
    · obtain ⟨hno, hyes⟩ := hx x hmay
      exact .inr (.inl ⟨hw, hroom, hyes, by rw [hno]; exact nofun⟩)
    · refine .inr (.inr ⟨hw, ?_⟩)
      rw [show (conduct s).move x o a = x.move o a from rfl, hx x]
      exact nofun
  release _ _ := rfl
  env _ _ _ he := (env_permits he).1

theorem outbound_lend (s : ResolverService P L) :
    (conduct s).Lends s.system (fun w => w.controls.outbound) (fun x => x.stage.Permitted) s.limits.outboundFetches where
  start := id
  done := by
    rintro x rfl
    exact id
  exec t x o y a w w' hmay he := by
    rcases exec_outbound he with ⟨hw, hx⟩ | ⟨hw, hroom, hx⟩ | ⟨hw, hx⟩
    · exact .inl ⟨hw, hx x hmay⟩
    · exact .inr (.inl ⟨hw, hroom, (hx x hmay).2, (hx x hmay).1⟩)
    · exact .inr (.inr ⟨hw, hx x hmay⟩)
  release _ _ := rfl
  env _ _ _ he := (env_permits he).2

/-! ## Over whole runs -/

theorem Reached.handlers {state : ResolverState P L} (h : Reached s state) :
    Conduct.Lent World.handlers (fun x => x.handler = true) s.limits.activeHandlers state.world (held state) := by
  obtain ⟨wall, instant, h⟩ := h
  exact (follows s).lent (handlers_lend s) rfl h

theorem Reached.outbound {state : ResolverState P L} (h : Reached s state) :
    Conduct.Lent (fun w : World P L => w.controls.outbound) (fun x => x.stage.Permitted) s.limits.outboundFetches
      state.world (held state) := by
  obtain ⟨wall, instant, h⟩ := h
  exact (follows s).lent (outbound_lend s) rfl h

/-- A live call that was admitted and has not ended. -/
def Admitted (state : ResolverState P L) (t : Nat) : Prop :=
  ∃ x, held state t = some x ∧ x.handler = true

/-- A live call with a permit for a fetch. -/
def Permitted (state : ResolverState P L) (t : Nat) : Prop :=
  ∃ x, held state t = some x ∧ x.stage.Permitted

/-- The permits taken are those of the calls that hold one, each once. With no
call alive all of them are back. -/
theorem permits_are_held {state : ResolverState P L} (h : Reached s state) :
    state.world.handlers.Nodup ∧ state.world.controls.outbound.Nodup ∧
    (∀ t, t ∈ state.world.handlers ↔ Admitted state t) ∧
    (∀ t, t ∈ state.world.controls.outbound ↔ Permitted state t) ∧
    ((∀ t, state.threads t = none) → state.world.handlers = [] ∧ state.world.controls.outbound = []) := by
  refine ⟨h.handlers.nodup, h.outbound.nodup, h.handlers.mem, h.outbound.mem, fun hnone => ?_⟩
  have hheld : ∀ t, held state t = none := by
    intro t
    rw [held, hnone t]
    rfl
  constructor
  · apply List.eq_nil_iff_forall_not_mem.2
    intro t ht
    obtain ⟨x, hx, -⟩ := (h.handlers.mem t).1 ht
    rw [hheld t] at hx
    cases hx
  · apply List.eq_nil_iff_forall_not_mem.2
    intro t ht
    obtain ⟨x, hx, -⟩ := (h.outbound.mem t).1 ht
    rw [hheld t] at hx
    cases hx

/-- A load that looks up its host has a permit. -/
theorem permits_are_held_sample : ∃ state, sampleRun (.call 1 (.load sampleKey) :: turns 1 6) = some state ∧
    Permitted state 1 := by
  have hout : (sampleRun (.call 1 (.load sampleKey) :: turns 1 6)).map (fun state => state.world.controls.outbound) =
      some [1] := by decide +kernel
  obtain ⟨state, hrun, hout⟩ := Option.map_eq_some_iff.1 hout
  refine ⟨state, hrun, ((permits_are_held (sampleRun_reached hrun)).2.2.2.1 1).1 ?_⟩
  rw [hout]
  exact List.mem_singleton_self 1

/-- What a call was answered when it was made, by a thread that might make it. -/
theorem answered_of_turn {state state' : ResolverState P L} (h : Reached s state) {t : Nat} {x : Outside} {o : Op P}
    {a : Ans o} (hs : s.system.step state (.turn t x) = some state') (hl : state'.log = .did t o a :: state.log) :
    World.exec s t o x state.world = some (a, state'.world) ∧
      ∃ y, held state t = some y ∧ y.may s o := by
  cases s.system.step_effect hs with
  | did _ _ c o' k a' q ht he _ hl' =>
    rw [hl] at hl'
    obtain ⟨heq, -⟩ := List.cons.inj hl'
    cases heq
    exact ⟨he, _, held_of_live ht, h.may ht⟩
  | other _ _ q e _ hno _ _ hl' =>
    rw [hl] at hl'
    exact absurd (List.cons.inj hl').1.symm (hno t o a)

/-- The holders of permits are others than a thread that has none. -/
theorem holders_iff {t : Nat} {limit : Nat} {Holds : Nat → Prop} (hno : ¬Holds t) :
    (∃ ts : List Nat, ts.Nodup ∧ limit ≤ ts.length ∧ ∀ t' ∈ ts, Holds t') ↔
      ∃ ts : List Nat, ts.Nodup ∧ limit ≤ ts.length ∧ ∀ t' ∈ ts, t' ≠ t ∧ Holds t' := by
  constructor
  · rintro ⟨ts, hnodup, hle, hall⟩
    refine ⟨ts, hnodup, hle, fun t' ht' => ⟨?_, hall t' ht'⟩⟩
    rintro rfl
    exact hno (hall t' ht')
  · rintro ⟨ts, hnodup, hle, hall⟩
    exact ⟨ts, hnodup, hle, fun t' ht' => (hall t' ht').2⟩

/-- A call is turned away as one too many if and only if that many others are
at work: no permit is lost. -/
theorem overloaded_iff {state : ResolverState P L} (h : Reached s state) :
    (∀ t x state' answer, s.system.step state (.turn t x) = some state' →
      state'.log = .did t .acquireHandler answer :: state.log →
      (answer = .error (.new .overloaded) ↔
        ∃ ts : List Nat, ts.Nodup ∧ s.limits.activeHandlers ≤ ts.length ∧ ∀ t' ∈ ts, t' ≠ t ∧ Admitted state t')) ∧
    (∀ t x state' origin answer, s.system.step state (.turn t x) = some state' →
      state'.log = .did t (.beginFetch origin) answer :: state.log →
      (answer = .error (.new .overloaded) ↔
        ∃ ts : List Nat, ts.Nodup ∧ s.limits.outboundFetches ≤ ts.length ∧ ∀ t' ∈ ts, t' ≠ t ∧ Permitted state t')) := by
  constructor
  · intro t x state' answer hs hl
    obtain ⟨he, y, hy, hmay⟩ := answered_of_turn h hs hl
    have hno : ¬Admitted state t := by
      rintro ⟨y', hy', hadmitted⟩
      obtain rfl := Option.some.inj (hy.symm.trans hy')
      have hidle : y = ⟨false, .idle⟩ := hmay
      rw [hidle] at hadmitted
      cases hadmitted
    refine Iff.trans ?_ ((h.handlers.le_length_iff s.limits.activeHandlers).trans (holders_iff hno))
    simp only [World.exec] at he
    split at he
    · rename_i hfull
      obtain ⟨rfl, -⟩ := Prod.mk.inj (Option.some.inj he)
      exact ⟨fun _ => hfull, fun _ => rfl⟩
    · rename_i hroom
      obtain ⟨rfl, -⟩ := Prod.mk.inj (Option.some.inj he)
      exact ⟨by rintro ⟨⟩, fun hfull => absurd hfull hroom⟩
  · intro t x state' origin answer hs hl
    obtain ⟨he, y, hy, hmay⟩ := answered_of_turn h hs hl
    have hno : ¬Permitted state t := by
      rintro ⟨y', hy', hpermitted⟩
      obtain rfl := Option.some.inj (hy.symm.trans hy')
      obtain ⟨key, hleads, -⟩ := hmay
      rw [hleads] at hpermitted
      exact hpermitted
    refine Iff.trans ?_ ((h.outbound.le_length_iff s.limits.outboundFetches).trans (holders_iff hno))
    obtain ⟨rfl, -⟩ := Prod.mk.inj (Option.some.inj he)
    unfold WorkControls.beginFetch
    split
    · rename_i hfull
      exact ⟨fun _ => hfull, fun _ => rfl⟩
    · rename_i hroom
      refine ⟨fun herr => ?_, fun hfull => absurd hfull hroom⟩
      -- the limiters have another error
      dsimp only at herr
      split at herr
      · cases herr
      · split at herr
        · cases herr
        · split at herr
          · cases herr
          · cases herr

/-- One call at a time. -/
def narrowService : ResolverService SamplePolicy Unit :=
  { sampleService with limits := { Limits.standard with activeHandlers := 1 }, valid := by decide }

def narrowStart : ResolverState SamplePolicy Unit := System.start (World.start narrowService 0 0)

/-- The second of two calls is turned away, so the first is at work. -/
theorem overloaded_sample : ∃ (state state' : ResolverState SamplePolicy Unit) (request : ResolveRequest),
    narrowService.system.run narrowStart
      [.call 1 (.resolve request), .turn 1 .silent, .call 2 (.resolve request)] = some state ∧
    narrowService.system.step state (.turn 2 .silent) = some state' ∧
    ∃ ts : List Nat, ts.Nodup ∧ 1 ≤ ts.length ∧ ∀ t ∈ ts, t ≠ 2 ∧ Admitted state t := by
  refine ⟨_, _, ⟨.v1, .jwksUri, "https://agent.example/k", "key"⟩, rfl, rfl, ?_⟩
  have hreached : Reached narrowService _ := ⟨0, 0, System.Reachable.start.run _
    [.call 1 (.resolve ⟨.v1, .jwksUri, "https://agent.example/k", "key"⟩), .turn 1 .silent,
      .call 2 (.resolve ⟨.v1, .jwksUri, "https://agent.example/k", "key"⟩)] rfl⟩
  exact ((overloaded_iff hreached).1 2 .silent _ (.error (.new .overloaded)) rfl rfl).1 rfl

end EnvoyWebBotAuth.Resolver
