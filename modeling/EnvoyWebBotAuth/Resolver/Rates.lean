import EnvoyWebBotAuth.Lib.Gates
import EnvoyWebBotAuth.Resolver.Permits
/-!
# Fetch rates

The three rate limiters over whole runs: one for all fetches, one for each
origin, one for each address. In any stretch of a run fetches keep to the bound
of each of them (`fetches_keep_to_rates`), up to the fetches that were past it
when the stretch began; the caches of the limiters may drop one for an origin or
an address, after which a new one counts from nothing.

The limiters are of the crate `governor`, which is outside: what bound they keep
to is a hypothesis.
-/
open EnvoyWebBotAuth.Lib EnvoyWebBotAuth.Protocol

namespace EnvoyWebBotAuth.Resolver

variable {P L : Type} {s : ResolverService P L}

/-! ## The gates -/

/-- Admission of a fetch from an origin. -/
def begins (p : String → Bool) : (o : Op P) → Ans o → Bool
  | .beginFetch origin, .ok () => p origin
  | _, _ => false

/-- The check of an address that lets it pass. -/
def allows (ip : IpAddr) : (o : Op P) → Ans o → Bool
  | .checkIp ip', .ok () => ip' = ip
  | _, _ => false

def fetches (p : FetchRequest → Bool) : (o : Op P) → Ans o → Bool
  | .fetch request, _ => p request
  | _, _ => false

/-- The key a thread has a permit to fetch. -/
def Stage.toFetch : Stage → Option ResourceKey
  | .begun key _ => some key
  | _ => none

/-- The address a thread may fetch from. -/
def Stage.checked : Stage → Option IpAddr
  | .begun _ ip => ip
  | _ => none

def Holding.Begun (s : ResolverService P L) (p : String → Bool) (x : Holding) : Prop :=
  ∃ key, x.stage.toFetch = some key ∧ p (s.crates.resource.url.originAscii key.url) = true

namespace Stage

variable (stage : Stage) (ip : IpAddr)

@[simp] theorem checkIp_toFetch : (stage.checkIp ip).toFetch = stage.toFetch := by cases stage <;> rfl
@[simp] theorem fetch_toFetch : stage.fetch.toFetch = none := by cases stage <;> rfl
@[simp] theorem dropPermit_toFetch : stage.dropPermit.toFetch = none := by cases stage <;> rfl
@[simp] theorem fetch_checked : stage.fetch.checked = none := by cases stage <;> rfl
@[simp] theorem dropPermit_checked : stage.dropPermit.checked = none := by cases stage <;> rfl
@[simp] theorem checkCircuit_toFetch (answer : Except FetchError Unit) :
    (stage.checkCircuit answer).toFetch = stage.toFetch := by
  cases answer <;> cases stage <;> rfl
@[simp] theorem checkCircuit_checked (answer : Except FetchError Unit) :
    (stage.checkCircuit answer).checked = stage.checked := by
  cases answer <;> cases stage <;> rfl
@[simp] theorem count_toFetch : stage.count.toFetch = stage.toFetch := by cases stage <;> rfl
@[simp] theorem count_checked : stage.count.checked = stage.checked := by cases stage <;> rfl

theorem permitted_of_toFetch {key : ResourceKey} (h : stage.toFetch = some key) : stage.Permitted := by
  cases stage with
  | begun => trivial
  | _ => cases h

theorem permitted_of_checked (h : stage.checked = some ip) : stage.Permitted := by
  cases stage with
  | begun => trivial
  | _ => cases h

end Stage

/-- A fetch is of a key that was admitted with its origin. -/
theorem begins_gated (s : ResolverService P L) (p : String → Bool) :
    (conduct s).Gated (Holding.Begun s p) (begins p)
      (fetches (fun request => p (s.crates.resource.url.originAscii request.url))) where
  start := by
    rintro ⟨key, hkey, -⟩
    cases hkey
  uses x o a hmay hu := by
    cases o with
    | fetch request =>
      have hbegun : x.stage = .begun ⟨request.url, request.kind⟩ (some request.selectedIp) := hmay
      refine ⟨⟨⟨request.url, request.kind⟩, by rw [hbegun]; rfl, hu⟩, ?_⟩
      rintro ⟨key, hkey, -⟩
      simp [conduct, Holding.move] at hkey
    | _ => cases hu
  ready x o a hmay hr := by
    obtain ⟨key, hkey, hp⟩ := hr
    have hsame : ((conduct s).move x o a).stage.toFetch = x.stage.toFetch → Holding.Begun s p x ∨ begins p o a = true :=
      fun h => .inl ⟨key, h ▸ hkey, hp⟩
    cases o with
    | beginFetch origin =>
      obtain ⟨key', hlead, rfl⟩ := hmay
      cases a with
      | error error => exact hsame rfl
      | ok u =>
        right
        simp only [conduct, Holding.move, hlead, Stage.beginFetch, Stage.toFetch, Option.some.injEq] at hkey
        subst hkey
        exact hp
    | checkIp ip =>
      cases a with
      | error error => exact hsame rfl
      | ok u => exact hsame (Stage.checkIp_toFetch _ ip)
    | fetch request => simp [conduct, Holding.move] at hkey
    | dropPermit => simp [conduct, Holding.move] at hkey
    | getWith key' =>
      cases a with
      | value v => exact hsame rfl
      | lead => cases hkey
      | wait => cases hkey
    | awaitWith key' => cases a <;> cases hkey
    | initDone key' outcome => cases hkey
    | acquireHandler => cases a <;> exact hsame rfl
    | checkCircuit | success | failureBackoff => exact hsame (by simp [conduct, Holding.move])
    | _ => exact hsame rfl

/-- A fetch is from the address that was checked. -/
theorem allows_gated (s : ResolverService P L) (ip : IpAddr) :
    (conduct s).Gated (fun x => x.stage.checked = some ip) (allows ip) (fetches (fun request => request.selectedIp = ip))
    where
  start := nofun
  uses x o a hmay hu := by
    cases o with
    | fetch request =>
      have hbegun : x.stage = .begun ⟨request.url, request.kind⟩ (some request.selectedIp) := hmay
      have hip : request.selectedIp = ip := of_decide_eq_true hu
      refine ⟨?_, ?_⟩
      · rw [hbegun, hip]
        rfl
      · simp [conduct, Holding.move]
    | _ => cases hu
  ready x o a hmay hr := by
    have hsame : ((conduct s).move x o a).stage.checked = x.stage.checked → x.stage.checked = some ip ∨ allows ip o a = true :=
      fun h => .inl (h ▸ hr)
    cases o with
    | beginFetch origin =>
      obtain ⟨key', hlead, rfl⟩ := hmay
      cases a with
      | error error => exact hsame rfl
      | ok u => simp [conduct, Holding.move, hlead, Stage.beginFetch, Stage.checked] at hr
    | checkIp ip' =>
      obtain ⟨key', hbegun⟩ := hmay
      cases a with
      | error error => exact hsame rfl
      | ok u =>
        right
        simp only [conduct, Holding.move, hbegun, Stage.checkIp, Stage.checked, Option.some.injEq] at hr
        exact decide_eq_true hr
    | fetch request => simp [conduct, Holding.move] at hr
    | dropPermit => simp [conduct, Holding.move] at hr
    | getWith key' =>
      cases a with
      | value v => exact hsame rfl
      | lead => cases hr
      | wait => cases hr
    | awaitWith key' => cases a <;> cases hr
    | initDone key' outcome => cases hr
    | acquireHandler => cases a <;> exact hsame rfl
    | checkCircuit | success | failureBackoff => exact hsame (by simp [conduct, Holding.move])
    | _ => exact hsame rfl

/-! ## The limiters -/

def originLimiter (s : ResolverService P L) (origin : String) (w : World P L) : L :=
  (w.controls.origins origin).getD (s.governor.direct s.limits.originFetchRate s.limits.originFetchBurst)

def ipLimiter (s : ResolverService P L) (ip : IpAddr) (w : World P L) : L :=
  (w.controls.ips ip).getD (s.governor.direct s.limits.ipFetchRate s.limits.ipFetchBurst)

namespace WorkControls

variable (g : Governor L) (limits : Limits) (w : WorkControls L) (t : Nat) (origin : String) (now : Instant)

theorem admitOrigin_limiters : (w.admitOrigin limits origin now).2.global = w.global ∧
    (w.admitOrigin limits origin now).2.origins = w.origins ∧ (w.admitOrigin limits origin now).2.ips = w.ips := by
  unfold admitOrigin
  dsimp only
  split
  · exact ⟨rfl, rfl, rfl⟩
  · split <;> exact ⟨rfl, rfl, rfl⟩

theorem beginFetch_ips : (w.beginFetch g limits t origin now).2.ips = w.ips := by
  unfold beginFetch
  split
  · rfl
  · dsimp only
    split
    · rfl
    · split
      · exact (admitOrigin_limiters ..).2.2
      · split <;> exact (admitOrigin_limiters ..).2.2

/-- A fetch is admitted after a check of the limiter of all. -/
theorem beginFetch_global :
    ((w.beginFetch g limits t origin now).2.global = w.global ∧ (w.beginFetch g limits t origin now).1 ≠ .ok ()) ∨
    ((w.beginFetch g limits t origin now).2.global = (g.check w.global now).2 ∧
      ((w.beginFetch g limits t origin now).1 = .ok () → (g.check w.global now).1 = true)) := by
  unfold beginFetch
  split
  · exact .inl ⟨rfl, nofun⟩
  · dsimp only
    split
    · exact .inr ⟨rfl, nofun⟩
    · rename_i hallowed
      have hyes : (g.check w.global now).1 = true := by simpa using hallowed
      split
      · exact .inr ⟨(admitOrigin_limiters ..).1, nofun⟩
      · split <;> exact .inr ⟨(admitOrigin_limiters ..).1, fun _ => hyes⟩

/-- And after a check of the limiter of its origin. -/
theorem beginFetch_origins :
    ((w.beginFetch g limits t origin now).2.origins = w.origins ∧ (w.beginFetch g limits t origin now).1 ≠ .ok ()) ∨
    ∃ limiter, limiter = (w.origins origin).getD (g.direct limits.originFetchRate limits.originFetchBurst) ∧
      (w.beginFetch g limits t origin now).2.origins =
        Function.update w.origins origin (some (g.check limiter now).2) ∧
      ((w.beginFetch g limits t origin now).1 = .ok () → (g.check limiter now).1 = true) := by
  unfold beginFetch
  split
  · exact .inl ⟨rfl, nofun⟩
  · dsimp only
    split
    · exact .inl ⟨rfl, nofun⟩
    · split
      · exact .inl ⟨(admitOrigin_limiters ..).2.1, nofun⟩
      · refine .inr ⟨_, rfl, ?_⟩
        unfold checkOrigin
        dsimp only
        rw [(admitOrigin_limiters ..).2.1]
        split
        · exact ⟨rfl, nofun⟩
        · rename_i hallowed
          exact ⟨rfl, fun _ => by simpa using hallowed⟩

end WorkControls

section Limiters

variable {t : Nat} {o : Op P} {x : Outside} {a : Ans o} {w w' : World P L}

/-- Only the admission of a fetch and the check of an address use a limiter. -/
theorem exec_limiters (h : World.exec s t o x w = some (a, w')) (ho : ∀ origin, o ≠ .beginFetch origin)
    (hip : ∀ ip, o ≠ .checkIp ip) :
    w'.instant = w.instant ∧ w'.controls.global = w.controls.global ∧ w'.controls.origins = w.controls.origins ∧
      w'.controls.ips = w.controls.ips := by
  cases o with
  | beginFetch origin => exact absurd rfl (ho origin)
  | checkIp ip => exact absurd rfl (hip ip)
  | acquireHandler =>
    simp only [World.exec] at h
    split at h
    all_goals
      obtain ⟨rfl, rfl⟩ := Prod.mk.inj (Option.some.inj h)
      exact ⟨rfl, rfl, rfl, rfl⟩
  | awaitWith key =>
    obtain ⟨⟨r, refreshes⟩, -, hr⟩ := Option.map_eq_some_iff.1 h
    obtain ⟨rfl, rfl⟩ := Prod.mk.inj hr
    exact ⟨rfl, rfl, rfl, rfl⟩
  | resolveHost host port =>
    cases x with
    | addresses answer =>
      obtain ⟨rfl, rfl⟩ := Prod.mk.inj (Option.some.inj h)
      exact ⟨rfl, rfl, rfl, rfl⟩
    | silent => cases h
    | response answer => cases h
  | fetch request =>
    cases x with
    | response answer =>
      obtain ⟨rfl, rfl⟩ := Prod.mk.inj (Option.some.inj h)
      exact ⟨rfl, rfl, rfl, rfl⟩
    | silent => cases h
    | addresses answer => cases h
  | _ =>
    obtain ⟨rfl, rfl⟩ := Prod.mk.inj (Option.some.inj h)
    exact ⟨rfl, rfl, rfl, rfl⟩

theorem env_limiters {e : Env} (h : World.env e w = some w') :
    w.instant ≤ w'.instant ∧ w'.controls.global = w.controls.global ∧
      (∀ origin, e ≠ .evictOrigin origin → w'.controls.origins origin = w.controls.origins origin) ∧
      (∀ ip, e ≠ .evictIp ip → w'.controls.ips ip = w.controls.ips ip) := by
  cases e with
  | clock wall instant =>
    simp only [World.env] at h
    split at h
    · rename_i hle
      obtain rfl := Option.some.inj h
      exact ⟨hle, rfl, fun _ _ => rfl, fun _ _ => rfl⟩
    · cases h
  | park t =>
    obtain ⟨refreshes, -, rfl⟩ := Option.map_eq_some_iff.1 h
    exact ⟨Nat.le_refl _, rfl, fun _ _ => rfl, fun _ _ => rfl⟩
  | evictOrigin origin =>
    obtain rfl := Option.some.inj h
    refine ⟨Nat.le_refl _, rfl, fun origin' hne => ?_, fun _ _ => rfl⟩
    exact Function.update_of_ne (fun he => hne (by rw [he])) _ _
  | evictIp ip =>
    obtain rfl := Option.some.inj h
    refine ⟨Nat.le_refl _, rfl, fun _ _ => rfl, fun ip' hne => ?_⟩
    exact Function.update_of_ne (fun he => hne (by rw [he])) _ _
  | _ =>
    obtain rfl := Option.some.inj h
    exact ⟨Nat.le_refl _, rfl, fun _ _ => rfl, fun _ _ => rfl⟩

end Limiters

theorem begins_of_ne {o : Op P} (h : ∀ origin, o ≠ .beginFetch origin) (p : String → Bool) (a : Ans o) :
    begins p o a = false := by
  cases o with
  | beginFetch origin => exact absurd rfl (h origin)
  | _ => rfl

theorem allows_of_ne {o : Op P} (h : ∀ ip, o ≠ .checkIp ip) (ip : IpAddr) (a : Ans o) : allows ip o a = false := by
  cases o with
  | checkIp ip' => exact absurd rfl (h ip')
  | _ => rfl

theorem begins_eq_true {p : String → Bool} {origin : String} {a : Ans (.beginFetch origin : Op P)}
    (h : begins p (.beginFetch origin : Op P) a = true) : a = .ok () ∧ p origin = true := by
  cases a with
  | error error => cases h
  | ok u => exact ⟨rfl, h⟩

/-- The limiter of all fetches is in place for good. -/
theorem global_limited (s : ResolverService P L) :
    Limited s.system s.governor.check (s.governor.direct s.limits.globalFetchRate s.limits.globalFetchBurst)
      (fun w => w.controls.global) World.instant (begins (fun _ => true)) (fun _ => True) where
  exec t o x a w w' h := by
    by_cases ho : ∃ origin, o = .beginFetch origin
    · obtain ⟨origin, rfl⟩ := ho
      obtain ⟨rfl, rfl⟩ := Prod.mk.inj (Option.some.inj h)
      refine ⟨rfl, ?_⟩
      rcases WorkControls.beginFetch_global s.governor s.limits w.controls t origin w.instant with ⟨hg, hne⟩ | ⟨hg, hok⟩
      · refine .inl ⟨hg, Bool.eq_false_of_not_eq_true (fun hb => hne (begins_eq_true hb).1)⟩
      · exact .inr ⟨hg, fun hb => hok (begins_eq_true hb).1⟩
    · have hne : ∀ origin, o ≠ .beginFetch origin := fun origin he => ho ⟨origin, he⟩
      by_cases hip : ∃ ip, o = .checkIp ip
      · obtain ⟨ip, rfl⟩ := hip
        obtain ⟨rfl, rfl⟩ := Prod.mk.inj (Option.some.inj h)
        exact ⟨rfl, .inl ⟨rfl, begins_of_ne hne _ _⟩⟩
      · obtain ⟨ht, hg, -⟩ := exec_limiters h hne (fun ip he => hip ⟨ip, he⟩)
        exact ⟨ht, .inl ⟨hg, begins_of_ne hne _ _⟩⟩
  release _ _ := ⟨rfl, rfl⟩
  env e w w' h := by
    obtain ⟨ht, hg, -⟩ := env_limiters h
    exact ⟨ht, .inl hg⟩

/-- The limiter of an origin is in place until it is dropped from its cache. -/
theorem origin_limited (s : ResolverService P L) (origin : String) :
    Limited s.system s.governor.check (s.governor.direct s.limits.originFetchRate s.limits.originFetchBurst)
      (originLimiter s origin) World.instant (begins (· = origin)) (· ≠ .evictOrigin origin) where
  exec t o x a w w' h := by
    by_cases ho : ∃ origin', o = .beginFetch origin'
    · obtain ⟨origin', rfl⟩ := ho
      obtain ⟨rfl, rfl⟩ := Prod.mk.inj (Option.some.inj h)
      refine ⟨rfl, ?_⟩
      rcases WorkControls.beginFetch_origins s.governor s.limits w.controls t origin' w.instant with
        ⟨hg, hne⟩ | ⟨limiter, hl, hg, hok⟩
      · refine .inl ⟨by simp only [originLimiter, hg], Bool.eq_false_of_not_eq_true ?_⟩
        exact fun hb => hne (begins_eq_true hb).1
      · by_cases hsame : origin' = origin
        · subst hsame
          refine .inr ⟨?_, fun hb => ?_⟩
          · simp only [originLimiter, hg, Function.update_self, Option.getD_some, hl]
          · simp only [originLimiter, ← hl]
            exact hok (begins_eq_true hb).1
        · refine .inl ⟨?_, Bool.eq_false_of_not_eq_true ?_⟩
          · simp only [originLimiter, hg, Function.update_of_ne (Ne.symm hsame)]
          · exact fun hb => hsame (of_decide_eq_true (begins_eq_true hb).2)
    · have hne : ∀ origin, o ≠ .beginFetch origin := fun origin he => ho ⟨origin, he⟩
      by_cases hip : ∃ ip, o = .checkIp ip
      · obtain ⟨ip, rfl⟩ := hip
        obtain ⟨rfl, rfl⟩ := Prod.mk.inj (Option.some.inj h)
        exact ⟨rfl, .inl ⟨rfl, begins_of_ne hne _ _⟩⟩
      · obtain ⟨ht, -, hg, -⟩ := exec_limiters h hne (fun ip he => hip ⟨ip, he⟩)
        exact ⟨ht, .inl ⟨by simp only [originLimiter, hg], begins_of_ne hne _ _⟩⟩
  release _ _ := ⟨rfl, rfl⟩
  env e w w' h := by
    obtain ⟨ht, -, hg, -⟩ := env_limiters h
    refine ⟨ht, ?_⟩
    by_cases he : e = .evictOrigin origin
    · subst he
      obtain rfl := Option.some.inj h
      exact .inr ⟨by simp [originLimiter], fun hne => hne rfl⟩
    · exact .inl (by simp only [originLimiter, hg origin he])

/-- The limiter of an address is in place until it is dropped from its cache. -/
theorem ip_limited (s : ResolverService P L) (ip : IpAddr) :
    Limited s.system s.governor.check (s.governor.direct s.limits.ipFetchRate s.limits.ipFetchBurst)
      (ipLimiter s ip) World.instant (allows ip) (· ≠ .evictIp ip) where
  exec t o x a w w' h := by
    by_cases hip : ∃ ip', o = .checkIp ip'
    · obtain ⟨ip', rfl⟩ := hip
      obtain ⟨rfl, rfl⟩ := Prod.mk.inj (Option.some.inj h)
      refine ⟨rfl, ?_⟩
      by_cases hsame : ip' = ip
      · subst hsame
        refine .inr ⟨?_, fun hb => ?_⟩
        · simp [ipLimiter, WorkControls.checkIp]
        · simp only [WorkControls.checkIp] at hb
          by_contra hno
          simp only [ipLimiter] at hno
          simp [hno, allows] at hb
      · refine .inl ⟨?_, ?_⟩
        · simp [ipLimiter, WorkControls.checkIp, Function.update_of_ne (Ne.symm hsame)]
        · cases (w.controls.checkIp s.governor s.limits ip' w.instant).1 with
          | error error => rfl
          | ok u => exact decide_eq_false hsame
    · have hne : ∀ ip, o ≠ .checkIp ip := fun ip he => hip ⟨ip, he⟩
      by_cases ho : ∃ origin, o = .beginFetch origin
      · obtain ⟨origin, rfl⟩ := ho
        obtain ⟨rfl, rfl⟩ := Prod.mk.inj (Option.some.inj h)
        refine ⟨rfl, .inl ⟨?_, allows_of_ne hne _ _⟩⟩
        simp only [ipLimiter, WorkControls.beginFetch_ips]
      · obtain ⟨ht, -, -, hg⟩ := exec_limiters h (fun origin he => ho ⟨origin, he⟩) hne
        exact ⟨ht, .inl ⟨by simp only [ipLimiter, hg], allows_of_ne hne _ _⟩⟩
  release _ _ := ⟨rfl, rfl⟩
  env e w w' h := by
    obtain ⟨ht, -, -, hg⟩ := env_limiters h
    refine ⟨ht, ?_⟩
    by_cases he : e = .evictIp ip
    · subst he
      obtain rfl := Option.some.inj h
      exact .inr ⟨by simp [ipLimiter], fun hne => hne rfl⟩
    · exact .inl (by simp only [ipLimiter, hg ip he])

/-! ## Over whole runs -/

/-- How many fetches of a kind were answered so far. -/
def fetchCount (p : FetchRequest → Bool) (state : ResolverState P L) : Nat := calls (fetches p) state.log

/-- A call waits for the answer of a fetch of a kind. -/
def AtFetch (p : FetchRequest → Bool) (state : ResolverState P L) (t : Nat) : Prop :=
  ∃ task request k, state.threads t = some (task, .op (.fetch request) k) ∧ p request = true

/-- From one state to a later one no more fetches of a kind are made than `cap`,
those counted that are not answered yet. -/
def FetchesWithin (p : FetchRequest → Bool) (cap : Nat) (state state' : ResolverState P L) : Prop :=
  ∀ ts : List Nat, ts.Nodup → (∀ t ∈ ts, AtFetch p state' t) → fetchCount p state' + ts.length ≤ fetchCount p state + cap

/-- A bound on the checks that a limiter of the rate lets through. -/
def Governor.Bound (g : Governor L) (rate burst : Nat) (bound : Nat → Nat) : Prop :=
  Bounds g.check (g.direct rate burst) bound

/-- The threads past a gate of the fetches have permits. -/
theorem Reached.ready_le {state : ResolverState P L} (h : Reached s state) {ready : Holding → Prop}
    (hready : ∀ x, ready x → x.stage.Permitted) {ts : List Nat} (hts : (conduct s).ReadyList ready state ts) :
    ts.length ≤ s.limits.outboundFetches := by
  obtain ⟨hnodup, hall⟩ := hts
  refine Nat.le_trans ?_ h.outbound.room
  apply List.Subperm.length_le
  apply hnodup.subperm
  intro t ht
  obtain ⟨x, hx, hr⟩ := hall t ht
  exact (h.outbound.mem t).2 ⟨x, hx, hready x hr⟩

/-- A gate of the fetches, with a limiter. -/
theorem Reached.fetchesWithin {state state' : ResolverState P L} (h : Reached s state)
    {actions : List (Action Task Outside Env)} (hr : s.system.run state actions = some state') {ready : Holding → Prop}
    {opens : (o : Op P) → Ans o → Bool} {p : FetchRequest → Bool} (hg : (conduct s).Gated ready opens (fetches p))
    (hready : ∀ x, ready x → x.stage.Permitted) {rate burst : Nat} {limiter : World P L → L} {spares : Env → Prop}
    (hl : Limited s.system s.governor.check (s.governor.direct rate burst) limiter World.instant opens spares)
    (hstart : ∀ wall instant, limiter (.start s wall instant) = s.governor.direct rate burst) {bound : Nat → Nat}
    (hb : s.governor.Bound rate burst bound) (hspared : ∀ e, .env e ∈ actions → spares e) :
    FetchesWithin p (s.limits.outboundFetches + bound (state'.world.instant - state.world.instant)) state state' := by
  obtain ⟨wall, instant, hreach⟩ := id h
  have h' := h.run hr
  intro ts hnodup hall
  have hts : (conduct s).ReadyList ready state' ts := by
    refine ⟨hnodup, fun t ht => ?_⟩
    obtain ⟨task, request, k, hlive, hp⟩ := hall t ht
    refine ⟨_, held_of_live hlive, ?_⟩
    exact (hg.uses _ (.fetch request) (.error (.new .transport)) (h'.may hlive) hp).1
  have hle := hg.limited (follows s) hl hb (hstart wall instant) hreach
    (fun ts hts => h.ready_le hready hts) hspared hr hts
  unfold fetchCount
  omega

/-- In any stretch of a run fetches keep to the rate of all fetches; to the rate
of their origin, and to the rate of their address, as long as its limiter stays
in the cache. Up to as many as there are permits were past a limiter before. -/
theorem fetches_keep_to_rates {state state' : ResolverState P L} (h : Reached s state)
    {actions : List (Action Task Outside Env)} (hr : s.system.run state actions = some state') :
    (∀ bound, s.governor.Bound s.limits.globalFetchRate s.limits.globalFetchBurst bound →
      FetchesWithin (fun _ => true)
        (s.limits.outboundFetches + bound (state'.world.instant - state.world.instant)) state state') ∧
    (∀ bound, s.governor.Bound s.limits.originFetchRate s.limits.originFetchBurst bound →
      ∀ origin, .env (.evictOrigin origin) ∉ actions →
        FetchesWithin (fun request => s.crates.resource.url.originAscii request.url = origin)
          (s.limits.outboundFetches + bound (state'.world.instant - state.world.instant)) state state') ∧
    ∀ bound, s.governor.Bound s.limits.ipFetchRate s.limits.ipFetchBurst bound →
      ∀ ip, .env (.evictIp ip) ∉ actions →
        FetchesWithin (fun request => request.selectedIp = ip)
          (s.limits.outboundFetches + bound (state'.world.instant - state.world.instant)) state state' := by
  have hbegun : ∀ (p : String → Bool) (x : Holding), x.Begun s p → x.stage.Permitted := by
    rintro p x ⟨key, hkey, -⟩
    exact x.stage.permitted_of_toFetch hkey
  refine ⟨?_, ?_, ?_⟩
  · intro bound hb
    exact h.fetchesWithin hr (begins_gated s (fun _ => true)) (hbegun _) (global_limited s) (fun _ _ => rfl) hb
      (fun _ _ => trivial)
  · intro bound hb origin hspared
    exact h.fetchesWithin hr (begins_gated s (· = origin)) (hbegun _) (origin_limited s origin) (fun _ _ => rfl) hb
      (fun e he hev => hspared (hev ▸ he))
  · intro bound hb ip hspared
    exact h.fetchesWithin hr (allows_gated s ip) (fun x hx => x.stage.permitted_of_checked ip hx) (ip_limited s ip)
      (fun _ _ => rfl) hb (fun e he hev => hspared (hev ▸ he))

/-- `Quota::per_second` with a burst. -/
def gcraGovernor : Governor Gcra where
  direct rate burst := ⟨fromSecs 1 / rate, burst * (fromSecs 1 / rate), none⟩
  check := Gcra.check

theorem gcraGovernor_bound {rate : Nat} (burst : Nat) (hpos : 0 < rate) (hle : rate ≤ fromSecs 1) :
    gcraGovernor.Bound rate burst (fun d => burst + 1 + d / (fromSecs 1 / rate)) :=
  Gcra.bounds _ burst (Nat.div_pos hle hpos)

/-- The sample resolver with limiters that count, and one permit for a fetch. -/
def ratedService : ResolverService SamplePolicy Gcra where
  crates := sampleService.crates
  governor := gcraGovernor
  destinationPolicy := sampleService.destinationPolicy
  limits := { Limits.standard with outboundFetches := 1 }
  allowTestKeys := false
  valid := by decide

/-- Thread `t` loads a key set of the sample origin, whose fetch fails. -/
def failedLoad (t : Nat) (c : Char) : List SampleAction :=
  .call t (.load ⟨sampleUrl [c], .jwks⟩) :: turns t 6 ++ [.turn t (.addresses (.ok [.v4 0x08080808#32])), .turn t .silent,
    .turn t (.response (.error (.new .transport)))] ++ turns t 4 ++ [.finish t]

/-- Thread `t` loads a key set of the sample origin and is refused a fetch. -/
def refusedLoad (t : Nat) (c : Char) : List SampleAction :=
  .call t (.load ⟨sampleUrl [c], .jwks⟩) :: turns t 8 ++ [.finish t]

/-- The burst of the origin is used up, and after a second what came in since. -/
def atTheRate : List SampleAction :=
  failedLoad 1 'a' ++ failedLoad 2 'b' ++ failedLoad 3 'c' ++ failedLoad 4 'd' ++ refusedLoad 5 'e' ++
    [.env (.clock (fromSecs 1) (fromSecs 1))] ++ failedLoad 6 'f' ++ failedLoad 7 'g' ++ refusedLoad 8 'h'

def rateLimitedOf : Entry (Op P) Ans Task (Answer P) → Option Nat
  | .returned t _ (.representation (.error error)) => if error.kind = .rateLimited then some t else none
  | _ => none

/-- Six fetches of at most eight, and two loads that are refused one. -/
theorem fetches_keep_to_rates_sample : ∃ state',
    ratedService.system.run (System.start (World.start ratedService 0 0)) atTheRate = some state' ∧
      fetchCount (fun request => sampleUrls.originAscii request.url = "https://agent.example") state' = 6 ∧
      state'.log.filterMap rateLimitedOf = [8, 5] ∧
      FetchesWithin (fun request => sampleUrls.originAscii request.url = "https://agent.example") (1 + (4 + 1 + 2))
        (System.start (World.start ratedService 0 0)) state' := by
  have hrun : (ratedService.system.run (System.start (World.start ratedService 0 0)) atTheRate).map (fun state =>
      (fetchCount (fun request => sampleUrls.originAscii request.url = "https://agent.example") state,
        state.log.filterMap rateLimitedOf, state.world.instant)) = some (6, [8, 5], fromSecs 1) := by decide +kernel
  obtain ⟨state', hrun, hstate⟩ := Option.map_eq_some_iff.1 hrun
  obtain ⟨hcount, hrest⟩ := Prod.mk.inj hstate
  obtain ⟨hrefused, hinstant⟩ := Prod.mk.inj hrest
  refine ⟨state', hrun, hcount, hrefused, ?_⟩
  have hspared : Action.env (.evictOrigin "https://agent.example") ∉ atTheRate := by
    simp [atTheRate, failedLoad, refusedLoad, turns]
  have hwithin := (fetches_keep_to_rates (s := ratedService) ⟨0, 0, .start⟩ hrun).2.1 _
    (gcraGovernor_bound 4 (show 0 < 2 by decide) (by decide)) _ hspared
  rw [hinstant] at hwithin
  exact hwithin

end EnvoyWebBotAuth.Resolver
