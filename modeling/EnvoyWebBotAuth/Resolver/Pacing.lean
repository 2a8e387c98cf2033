import EnvoyWebBotAuth.Resolver.Tasks
/-!
# Refreshes keep their distance

An outcome that was landed keeps others from refreshing its key until its time
is up, as long as nobody takes it out of the cache before (`timely`). A load
that finds an outcome whose time is up invalidates whatever is there by then,
also an outcome that landed in between (`backoff_broken`).
-/
open EnvoyWebBotAuth.Lib EnvoyWebBotAuth.Protocol

namespace EnvoyWebBotAuth.Resolver

variable {P L : Type}

/-- The time of every outcome that was landed for the key is up. -/
def WaitedOut (state : ResolverState P L) (key : ResourceKey) : Prop :=
  ∀ t outcome, .did t (.initDone key outcome) () ∈ state.log → outcome.validUntil ≤ state.world.instant

/-- A key is refreshed, looked up and fetched only when every earlier outcome has
had its time, and by one thread. -/
structure BacksOff (state : ResolverState P L) : Prop where
  refresh : ∀ t key, leadsFor t state.log = some key → WaitedOut state key
  shared : ∀ t t' key, leadsFor t state.log = some key → leadsFor t' state.log = some key → t = t'
  dns : ∀ t task host port k, state.threads t = some (task, .op (.resolveHost host port) k) →
    ∃ key, leadsFor t state.log = some key ∧ key.url.host = some host ∧ WaitedOut state key
  fetch : ∀ t task fetch k, state.threads t = some (task, .op (.fetch fetch) k) →
    leadsFor t state.log = some ⟨fetch.url, fetch.kind⟩ ∧ WaitedOut state ⟨fetch.url, fetch.kind⟩

/-- The outcome in the cache may go: its time is up. -/
def expired (w : World P L) (key : ResourceKey) : Bool :=
  (w.refreshes.entries key).all (fun outcome => outcome.validUntil ≤ w.instant)

/-- The step takes no outcome out of the cache before its time. -/
def timely (state : ResolverState P L) : Action Task Outside Env → Bool
  | .turn t _ =>
    match state.threads t with
    | some (_, .op (.refreshesInvalidate key) _) => expired state.world key
    | _ => true
  | .env (.evictRefresh key) => expired state.world key
  | _ => true

/-- The states of a run whose steps are all timely. -/
def Paced (s : ResolverService P L) (state : ResolverState P L) : Prop :=
  ∃ wall instant, s.system.ReachableBy timely (World.start s wall instant) state

variable {s : ResolverService P L}

theorem Paced.reached {state : ResolverState P L} (h : Paced s state) : Reached s state := by
  obtain ⟨wall, instant, h⟩ := h
  exact ⟨wall, instant, h.reachable⟩

/-- An outcome that was landed is in the cache until its time is up. -/
def Kept (w : World P L) (log : Log P) : Prop :=
  ∀ t key outcome, .did t (.initDone key outcome) () ∈ log →
    outcome.validUntil ≤ w.instant ∨ w.refreshes.entries key = some outcome

/-! ## What a step does to the outcomes -/

/-- A call leaves the clock alone, and the outcomes unless it is about one. -/
theorem World.exec_entries {t : Nat} {o : Op P} {x : Outside} {a : Ans o} {w w' : World P L}
    (h : World.exec s t o x w = some (a, w')) : w'.instant = w.instant ∧
      (((∀ key outcome, o ≠ .initDone key outcome) ∧ w'.refreshes.entries = w.refreshes.entries) ∨
        (∃ key, o = .refreshesInvalidate key ∧ w'.refreshes = w.refreshes.forget key) ∨
        ∃ key outcome, o = .initDone key outcome ∧ w'.refreshes = w.refreshes.land key outcome) := by
  cases o with
  | refreshesInvalidate key =>
    obtain ⟨rfl, rfl⟩ := Prod.mk.inj (Option.some.inj h)
    exact ⟨rfl, .inr (.inl ⟨key, rfl, rfl⟩)⟩
  | initDone key outcome =>
    obtain ⟨rfl, rfl⟩ := Prod.mk.inj (Option.some.inj h)
    exact ⟨rfl, .inr (.inr ⟨key, outcome, rfl, rfl⟩)⟩
  | getWith key =>
    obtain ⟨rfl, rfl⟩ := Prod.mk.inj (Option.some.inj h)
    refine ⟨rfl, .inl ⟨by rintro _ _ ⟨⟩, ?_⟩⟩
    rcases w.refreshes.enter_cases t key with ⟨v, -, hent⟩ | ⟨-, -, hent⟩ | ⟨-, hent⟩ <;> rw [hent] <;> rfl
  | awaitWith key =>
    simp only [World.exec, Option.map_eq_some_iff] at h
    obtain ⟨⟨r, refreshes⟩, hawait, hw⟩ := h
    obtain ⟨rfl, rfl⟩ := Prod.mk.inj hw
    refine ⟨rfl, .inl ⟨by rintro _ _ ⟨⟩, ?_⟩⟩
    rcases SingleFlight.await_cases hawait with ⟨v, -, rfl, -⟩ | ⟨-, rfl, -, -⟩ <;> rfl
  | resolveHost host port =>
    cases x with
    | addresses answer =>
      obtain ⟨rfl, rfl⟩ := Prod.mk.inj (Option.some.inj h)
      exact ⟨rfl, .inl ⟨by rintro _ _ ⟨⟩, rfl⟩⟩
    | silent => cases h
    | response answer => cases h
  | fetch request =>
    cases x with
    | response answer =>
      obtain ⟨rfl, rfl⟩ := Prod.mk.inj (Option.some.inj h)
      exact ⟨rfl, .inl ⟨by rintro _ _ ⟨⟩, rfl⟩⟩
    | silent => cases h
    | addresses answer => cases h
  | acquireHandler =>
    simp only [World.exec] at h
    split at h
    all_goals
      obtain ⟨rfl, rfl⟩ := Prod.mk.inj (Option.some.inj h)
      exact ⟨rfl, .inl ⟨by rintro _ _ ⟨⟩, rfl⟩⟩
  | systemNow | instantNow | startTimeout | endTimeout | representationsGet | representationsInsert
  | representationsInvalidate | refreshesGet | checkCircuit | success | failureBackoff | circuitRemaining | beginFetch
  | dropPermit | checkIp =>
    obtain ⟨rfl, rfl⟩ := Prod.mk.inj (Option.some.inj h)
    exact ⟨rfl, .inl ⟨by rintro _ _ ⟨⟩, rfl⟩⟩

variable {w w' : World P L} {log : Log P}

theorem Kept.same (h : Kept w log) (hi : w.instant ≤ w'.instant)
    (he : w'.refreshes.entries = w.refreshes.entries) : Kept w' log := by
  intro t key outcome hm
  rcases h t key outcome hm with hv | hk
  · exact .inl (hv.trans hi)
  · rw [he]
    exact .inr hk

theorem Kept.cons (h : Kept w log) {e : Entry (Op P) Ans Task (Answer P)}
    (he : ∀ t key outcome, e ≠ .did t (.initDone key outcome) ()) : Kept w (e :: log) := by
  intro t key outcome hm
  rcases List.mem_cons.1 hm with hm | hm
  · exact absurd hm.symm (he t key outcome)
  · exact h t key outcome hm

theorem Kept.did (h : Kept w log) {t : Nat} {o : Op P} {a : Ans o} (ho : ∀ key outcome, o ≠ .initDone key outcome) :
    Kept w (.did t o a :: log) := by
  apply h.cons
  intro t' key outcome he
  cases he
  exact ho key outcome rfl

theorem Kept.forget (h : Kept w log) {key : ResourceKey} (hx : expired w key = true) (hi : w'.instant = w.instant)
    (he : w'.refreshes = w.refreshes.forget key) : Kept w' log := by
  intro t key' outcome hm
  rw [hi, he]
  rcases h t key' outcome hm with hv | hk
  · exact .inl hv
  · by_cases hkey : key' = key
    · subst hkey
      rw [expired, hk] at hx
      exact .inl (of_decide_eq_true hx)
    · right
      simp only [SingleFlight.forget, Function.update_of_ne hkey]
      exact hk

/-- The leader of a key lands where no outcome is. -/
theorem Kept.land (h : Kept w log) {t : Nat} {key : ResourceKey} {outcome : RefreshOutcome P}
    (ha : w.refreshes.entries key = none) (hi : w'.instant = w.instant)
    (he : w'.refreshes = w.refreshes.land key outcome) : Kept w' (.did t (.initDone key outcome) () :: log) := by
  intro t' key' outcome' hm
  rw [hi, he]
  simp only [SingleFlight.land, Function.update_apply]
  rcases List.mem_cons.1 hm with hm | hm
  · cases hm
    simp
  · rcases h t' key' outcome' hm with hv | hk
    · exact .inl hv
    · right
      rw [if_neg, hk]
      rintro rfl
      rw [ha] at hk
      cases hk

theorem Kept.env {e : Env} (h : Kept w log) (ht : ∀ key, e = .evictRefresh key → expired w key = true)
    (he : World.env e w = some w') : Kept w' log := by
  cases e with
  | clock wall instant =>
    simp only [World.env] at he
    split at he
    · rename_i hle
      obtain rfl := Option.some.inj he
      exact h.same hle rfl
    · cases he
  | park t =>
    simp only [World.env, Option.map_eq_some_iff] at he
    obtain ⟨refreshes, hp, rfl⟩ := he
    exact h.same (Nat.le_refl _) (SingleFlight.park_entries hp)
  | evictRefresh key =>
    obtain rfl := Option.some.inj he
    exact h.forget (ht key rfl) rfl rfl
  | evictRepresentation | evictCircuit | evictOrigin | evictIp =>
    obtain rfl := Option.some.inj he
    exact h.same (Nat.le_refl _) rfl

/-- A timely step keeps the outcomes until their time is up. -/
theorem Kept.step {state state' : ResolverState P L} {a : Action Task Outside Env} (hr : Reached s state)
    (h : Kept state.world state.log) (ht : timely state a = true) (hs : s.system.step state a = some state') :
    Kept state'.world state'.log := by
  cases s.system.step_effect hs with
  | did t x task o k b _ hp he _ hl =>
    rw [hl]
    obtain ⟨hi, ⟨ho, hsame⟩ | ⟨key, rfl, hw⟩ | ⟨key, outcome, rfl, hw⟩⟩ := World.exec_entries he
    · exact (h.same (Nat.le_of_eq hi.symm) hsame).did ho
    · simp only [timely, hp] at ht
      exact (h.forget ht hi hw).did (by rintro _ _ ⟨⟩)
    · have hland : Landing s t key outcome state.log := hr.holds.pre hp
      exact h.land (hr.holds.inv.absent hland.leads) hi hw
  | other t _ _ e _ hno hw _ hl =>
    rw [hl]
    have hkept : Kept state'.world state.log := by
      rcases hw with hw | hw <;> rw [hw]
      · exact h
      · exact h.same (Nat.le_refl _) rfl
    exact hkept.cons fun t' key outcome => hno t' (.initDone key outcome) ()
  | env e he _ hl =>
    rw [hl]
    refine h.env ?_ he
    rintro key rfl
    exact ht

/-- In a paced run every outcome is kept until its time is up. -/
theorem Paced.kept {state : ResolverState P L} (h : Paced s state) : Kept state.world state.log := by
  obtain ⟨wall, instant, h⟩ := h
  induction h with
  | start => rintro t key outcome ⟨⟩
  | step a hr ht hs ih => exact ih.step ⟨wall, instant, hr.reachable⟩ ht hs

/-- A thread that leads for a key found no outcome of it. -/
theorem Paced.waitedOut {state : ResolverState P L} (h : Paced s state) {t : Nat} {key : ResourceKey}
    (hl : leadsFor t state.log = some key) : WaitedOut state key := by
  intro t' outcome hm
  rcases h.kept t' key outcome hm with hv | hk
  · exact hv
  · rw [h.reached.holds.inv.absent hl] at hk
    cases hk

theorem paced_backs_off {state : ResolverState P L} (h : Paced s state) : BacksOff state where
  refresh t key hl := h.waitedOut hl
  shared t t' key hl hl' := by
    have hinv := h.reached.holds.inv
    exact Option.some.inj ((hinv.leaders t key hl).symm.trans (hinv.leaders t' key hl'))
  dns t task host port k ht := by
    obtain ⟨key, hl, hhost⟩ : ∃ key, leadsFor t state.log = some key ∧ key.url.host = some host := h.reached.holds.pre ht
    exact ⟨key, hl, hhost, h.waitedOut hl⟩
  fetch t task fetch k ht := by
    have hl := leads_of_fetch h.reached ht
    exact ⟨hl, h.waitedOut hl⟩

/-! ## Three loads -/

/-- Load 1 fails, so the key is due for a refresh 5 s later. -/
def firstFailure : List SampleAction :=
  sampleFetch 1 4 1 (.error (.new .transport)) ++ turns 1 4 ++ [.env (.clock (fromSecs 5) (fromSecs 5))]

/-- A load goes on up to its fetch, from the invalidation of the outcome it found. -/
def upToFetch (t : Nat) : List SampleAction :=
  turns t 4 ++ [.turn t (.addresses (.ok [.v4 0x08080808#32]))] ++ turns t 1

/-- Both other loads find the outcome of load 1. Load 2 refreshes and fails; then
load 3 invalidates the outcome of load 2. -/
def overtaken : List SampleAction :=
  firstFailure ++ .call 3 (.load sampleKey) :: turns 3 4 ++
    .call 2 (.load sampleKey) :: turns 2 4 ++ upToFetch 2 ++
    [.turn 2 (.response (.error (.new .transport)))] ++ turns 2 4 ++ upToFetch 3

def isEviction : SampleAction → Bool
  | .env (.clock _ _) => false
  | .env (.park _) => false
  | .env _ => true
  | _ => false

def landedOf : Entry (Op P) Ans Task (Answer P) → Option (Nat × ResourceKey × Instant)
  | .did t (.initDone key outcome) _ => some (t, key, outcome.validUntil)
  | _ => none

theorem landedOf_eq {e : Entry (Op P) Ans Task (Answer P)} {t : Nat} {key : ResourceKey} {valid : Instant}
    (h : landedOf e = some (t, key, valid)) :
    ∃ outcome, e = .did t (.initDone key outcome) () ∧ outcome.validUntil = valid := by
  unfold landedOf at h
  split at h
  · cases h
    exact ⟨_, rfl, rfl⟩
  · cases h

/-- A load that finds the time of the first outcome up may refresh. -/
theorem paced_backs_off_sample : ∃ state : ResolverState SamplePolicy Unit,
    leadsFor 2 state.log = some sampleKey ∧ BacksOff state := by
  have hrun : (sampleService.system.runBy timely (System.start (World.start sampleService 0 0))
      (firstFailure ++ .call 2 (.load sampleKey) :: turns 2 4 ++ upToFetch 2)).bind
        (fun state => leadsFor 2 state.log) = some sampleKey := by decide +kernel
  obtain ⟨state, hrun, hlead⟩ := Option.bind_eq_some_iff.1 hrun
  exact ⟨state, hlead, paced_backs_off ⟨0, 0, System.ReachableBy.start.run _ hrun⟩⟩

/-- Without an eviction, a refresh begins at 5 s though one failed that is good
for 10 s more. -/
theorem backoff_broken : ¬∀ actions state, (∀ a ∈ actions, isEviction a = false) → sampleRun actions = some state →
    BacksOff state := by
  intro h
  have hlead : (sampleRun overtaken).bind (fun state => leadsFor 3 state.log) = some sampleKey := by decide +kernel
  have hland : (sampleRun overtaken).bind (fun state => (state.log.findSome? landedOf).map (·, state.world.instant)) =
      some ((2, sampleKey, fromSecs 15), fromSecs 5) := by decide +kernel
  obtain ⟨state, hrun, hlead⟩ := Option.bind_eq_some_iff.1 hlead
  rw [hrun, Option.bind_some, Option.map_eq_some_iff] at hland
  obtain ⟨found, hfound, hat⟩ := hland
  obtain ⟨rfl, hinstant⟩ := Prod.mk.inj hat
  obtain ⟨e, he, hlanded⟩ := List.exists_of_findSome?_eq_some hfound
  obtain ⟨outcome, rfl, hvalid⟩ := landedOf_eq hlanded
  have hle := (h overtaken state (by decide) hrun).refresh 3 sampleKey hlead 2 outcome he
  rw [hvalid, hinstant] at hle
  exact absurd hle (by decide)

end EnvoyWebBotAuth.Resolver
