import EnvoyWebBotAuth.Resolver.Facts
/-!
# The proof outline of the resolver

The invariant of the shared state (`Inv`), what a thread owes before each call
(`Pre`), and that every step keeps the invariant. Trusted: of `moka`, that each
cache call is atomic and `get_with` computes a value once; of `tokio`, that a
dropped future makes no further call.
-/
open EnvoyWebBotAuth.Lib EnvoyWebBotAuth.Protocol

namespace EnvoyWebBotAuth.Resolver

variable {P L : Type} (s : ResolverService P L)

/-- How long the outcome of a success is good for. -/
def successTtl (r : Representation P) : Duration :=
  if s.crates.policy.isStorable r.policy then fromMillis 50 else 0

/-- The destination a fetch was checked for. -/
structure Destination (request : FetchRequest) (key : ResourceKey) (before trace : Trace P) : Prop where
  url : request.url = key.url
  kind : request.kind = key.kind
  safe : SafeUrl s.crates.resource.url s.destinationPolicy key.url
  /-- The calls from the start of the refresh on. -/
  calls : ∃ host port addresses origin,
    key.url.host = some host ∧ s.crates.resource.url.portOrKnownDefault key.url = some port ∧
    request.selectedIp ∈ addresses ∧ (∀ ip ∈ addresses, globallyReachable ip = true) ∧
    trace = ⟨.checkIp request.selectedIp, .ok ()⟩ :: ⟨.resolveHost host port, .ok addresses⟩ ::
      ⟨.beginFetch origin, .ok ()⟩ :: ⟨.checkCircuit key, .ok ()⟩ :: before

/-- Where the headers of a fetch come from; `asked` are the calls this takes. -/
def HeadersFrom (request : Request) (previous : Option (Representation P)) (headers : Headers)
    (asked : Trace P) : Prop :=
  match previous with
  | none => headers = request.headers ∧ asked = []
  | some old => ∃ now, asked = [⟨.systemNow, now⟩] ∧
      (s.crates.policy.beforeRequest old.policy request now = .fresh headers ∨
        s.crates.policy.beforeRequest old.policy request now = .stale headers)

/-- A thread is about to fetch for the key it leads. -/
structure Fetching (t : Nat) (fetch : FetchRequest) (k : Except FetchError FetchResponse → Calls P (Answer P))
    (key : ResourceKey) (request : Request) (previous : Option (Representation P)) (now : SystemTime)
    (log : Log P) : Prop where
  leads : leadsFor t log = some key
  requested : cacheRequest s.crates key = .ok request
  calls : ∃ asked trace before began, own t log = asked ++ trace ∧ Destination s fetch key before trace ∧
    HeadersFrom s request previous fetch.headers asked ∧ loading before = some ⟨key, previous, now, began⟩
  held : ∀ old, previous = some old → Held s log key old
  rest : ∃ task resume, callOf t log = some task ∧ Resumes s task key resume ∧
    k = fun a => afterFetch s key request previous now a >>= resume

/-- A thread has made `r` for the key it leads. -/
structure Publishing (t : Nat) (key : ResourceKey) (r : Representation P) (log : Log P) : Prop where
  leads : leadsFor t log = some key
  made : ∃ response, Made s (own t log) key response r

/-- What is landed comes of a reading of the clock, and a success of a
representation held, which was published last. -/
structure Landing (t : Nat) (key : ResourceKey) (outcome : RefreshOutcome P) (log : Log P) : Prop where
  leads : leadsFor t log = some key
  success : ∀ r, outcome.result = .ok r → Held s log key r ∧
    ∃ now, .did t .instantNow now ∈ log ∧ outcome.validUntil = now + successTtl s r
  latest : ∀ r, outcome.result = .ok r → Latest s log key r

def Pre (t : Nat) : (o : Op P) → (Ans o → Calls P (Answer P)) → Log P → Prop
  | .fetch fetch, k, log => ∃ key request previous now, Fetching s t fetch k key request previous now log
  | .resolveHost host _, _, log => ∃ key, leadsFor t log = some key ∧ key.url.host = some host
  | .representationsInsert key r, _, log => Publishing s t key r log ∧ Held s log key r
  | .representationsInvalidate key, _, log => ∃ r, Publishing s t key r log
  | .initDone key outcome, _, log => Landing s t key outcome log
  | .getWith key, _, log => ∃ task, callOf t log = some task ∧ Hop s task (led t log) key log
  | .awaitWith key, _, log => ∃ task, callOf t log = some task ∧ Hop s task (led t log) key log
  | _, _, _ => True

structure Inv (w : World P L) (log : Log P) : Prop where
  representations : ∀ key r, w.representations key = some r → Held s log key r
  stored : ∀ key r, w.representations key = some r → Latest s log key r
  refreshes : w.refreshes.Traced (history log)
  settled : ∀ key outcome r, w.refreshes.entries key = some outcome → outcome.result = .ok r → Latest s log key r
  /-- A thread that leads is the leader. -/
  leaders : ∀ t key, leadsFor t log = some key → w.refreshes.running key = some t
  instants : ∀ t now, .did t .instantNow now ∈ log → now ≤ w.instant
  deadlines : ∀ t d, w.deadlines t = some d → d ≤ w.instant + s.limits.resolutionTimeout

def outline : Outline s.system where
  Inv := Inv s
  Pre := Pre s

variable {s}

/-- Nothing a refresh calls before its fetch begins another load. -/
theorem Destination.loading {fetch : FetchRequest} {key : ResourceKey} {before trace : Trace P}
    (h : Destination s fetch key before trace) : loading trace = loading before := by
  obtain ⟨host, port, addresses, origin, -, -, -, -, rfl⟩ := h.calls
  rfl

theorem Fetching.loading {t : Nat} {fetch : FetchRequest} {k : Except FetchError FetchResponse → Calls P (Answer P)}
    {key : ResourceKey} {request : Request} {previous : Option (Representation P)} {now : SystemTime} {log : Log P}
    (h : Fetching s t fetch k key request previous now log) :
    ∃ began, loading (own t log) = some ⟨key, previous, now, began⟩ := by
  obtain ⟨asked, trace, before, began, hown, hdest, hfrom, hload⟩ := h.calls
  refine ⟨began, ?_⟩
  rw [hown]
  cases previous with
  | none =>
    rw [hfrom.2, List.nil_append]
    exact hdest.loading.trans hload
  | some old =>
    obtain ⟨read, rfl, -⟩ := hfrom
    exact hdest.loading.trans hload

theorem Fetching.captured {t : Nat} {fetch : FetchRequest} {k : Except FetchError FetchResponse → Calls P (Answer P)}
    {key : ResourceKey} {request : Request} {previous : Option (Representation P)} {now : SystemTime} {log : Log P}
    (h : Fetching s t fetch k key request previous now log) : captured (own t log) = previous := by
  obtain ⟨began, hload⟩ := h.loading
  rw [Resolver.captured, hload, Option.bind_some]

/-- While a thread leads for a key, there is no outcome of it. -/
theorem Inv.absent {w : World P L} {log : Log P} {t : Nat} {key : ResourceKey} (h : Inv s w log)
    (hl : leadsFor t log = some key) : w.refreshes.entries key = none :=
  h.refreshes.absent key t (h.leaders t key hl)

/-! ## Steps keep the invariant -/

theorem Inv.step {w w' : World P L} {log : Log P} {e : Entry (Op P) Ans Task (Answer P)} (h : Inv s w log)
    (hrep : ∀ key r, w'.representations key = some r → (w.representations key = some r ∧ publishedKey e ≠ some key) ∨
      (Held s (e :: log) key r ∧ Latest s (e :: log) key r))
    (href : w'.refreshes.Traced (history (e :: log)))
    (hent : ∀ key outcome r, w'.refreshes.entries key = some outcome → outcome.result = .ok r →
      (w.refreshes.entries key = some outcome ∧ publishedKey e ≠ some key) ∨ Latest s (e :: log) key r)
    (hlead : ∀ t key, leadsFor t (e :: log) = some key → w'.refreshes.running key = some t)
    (hinst : w.instant ≤ w'.instant) (he : ∀ t now, e = .did t .instantNow now → now ≤ w'.instant)
    (hdead : ∀ t d, w'.deadlines t = some d → w.deadlines t = some d ∨ d ≤ w'.instant + s.limits.resolutionTimeout) :
    Inv s w' (e :: log) where
  representations key r hk := by
    rcases hrep key r hk with ⟨hk, -⟩ | ⟨hheld, -⟩
    · exact (h.representations key r hk).mono (List.suffix_cons e log)
    · exact hheld
  stored key r hk := by
    rcases hrep key r hk with ⟨hk, hne⟩ | ⟨-, hlatest⟩
    · exact (h.stored key r hk).cons hne
    · exact hlatest
  refreshes := href
  settled key outcome r hk hr := by
    rcases hent key outcome r hk hr with ⟨hk, hne⟩ | hlatest
    · exact (h.settled key outcome r hk hr).cons hne
    · exact hlatest
  leaders := hlead
  instants t now hm := by
    rcases List.mem_cons.1 hm with hm | hm
    · exact he t now hm.symm
    · exact (h.instants t now hm).trans hinst
  deadlines t d hd := by
    rcases hdead t d hd with hd | hd
    · exact (h.deadlines t d hd).trans (Nat.add_le_add_right hinst _)
    · exact hd

/-- An entry that tells nothing about refreshes and leaders. -/
structure Silent (e : Entry (Op P) Ans Task (Answer P)) : Prop where
  flight : flightEvent e = none
  lead : leadChange e = none

theorem Silent.history {e : Entry (Op P) Ans Task (Answer P)} (he : Silent e) (log : Log P) :
    history (e :: log) = history log := by
  rw [Resolver.history, List.filterMap_cons_none he.flight, Resolver.history]

theorem Silent.leadsFor {e : Entry (Op P) Ans Task (Answer P)} (he : Silent e) (t : Nat) (log : Log P) :
    leadsFor t (e :: log) = leadsFor t log := by
  rw [Resolver.leadsFor, he.lead, Option.getD_none, ite_self]

/-- A step that leaves the caches alone. -/
theorem Inv.silent {w w' : World P L} {log : Log P} {e : Entry (Op P) Ans Task (Answer P)} (h : Inv s w log)
    (he : Silent e) (hp : publishedKey e = none) (hf : w'.refreshes = w.refreshes)
    (hrep : w'.representations = w.representations)
    (hi : w.instant = w'.instant) (hn : ∀ t now, e = .did t .instantNow now → now = w.instant)
    (hd : ∀ t d, w'.deadlines t = some d → w.deadlines t = some d ∨ d ≤ w'.instant + s.limits.resolutionTimeout) :
    Inv s w' (e :: log) := by
  have hne := Option.eq_none_iff_forall_ne_some.1 hp
  apply h.step
  · intro key r hk
    rw [hrep] at hk
    exact .inl ⟨hk, hne key⟩
  · rw [hf, he.history]
    exact h.refreshes
  · intro key outcome r hk _
    rw [hf] at hk
    exact .inl ⟨hk, hne key⟩
  · intro t key hl
    rw [hf]
    exact h.leaders t key (he.leadsFor t log ▸ hl)
  · exact Nat.le_of_eq hi
  · intro t now hm
    exact Nat.le_of_eq ((hn t now hm).trans hi)
  · exact hd

/-- A call that touches the controls at most. -/
theorem Inv.controls {w w' : World P L} {log : Log P} {t : Nat} {o : Op P} {a : Ans o} (h : Inv s w log)
    (he : Silent (.did t o a : Entry (Op P) Ans Task (Answer P)))
    (hp : publishedKey (.did t o a : Entry (Op P) Ans Task (Answer P)) = none) (ho : o ≠ .instantNow)
    (hw : ∃ handlers controls, w' = { w with handlers := handlers, controls := controls }) :
    Inv s w' (.did t o a :: log) := by
  obtain ⟨handlers, controls, rfl⟩ := hw
  refine h.silent he hp rfl rfl rfl ?_ (fun _ _ hd => .inl hd)
  rintro t' now hm
  cases hm
  exact absurd rfl ho

/-- A step of the refreshes that leaves the outcomes and the leaders alone. -/
theorem Inv.flight {w w' : World P L} {log : Log P} {e : Entry (Op P) Ans Task (Answer P)} (h : Inv s w log)
    (hp : publishedKey e = none) (hl : leadChange e = none) (hn : ∀ t now, e ≠ .did t .instantNow now)
    (hw : ∃ refreshes, w' = { w with refreshes := refreshes }) (href : w'.refreshes.Traced (history (e :: log)))
    (hent : ∀ key outcome, w'.refreshes.entries key = some outcome → w.refreshes.entries key = some outcome)
    (hrun : w'.refreshes.running = w.refreshes.running) : Inv s w' (e :: log) := by
  have hne := Option.eq_none_iff_forall_ne_some.1 hp
  obtain ⟨refreshes, rfl⟩ := hw
  apply h.step
  · exact fun key r hk => .inl ⟨hk, hne key⟩
  · exact href
  · exact fun key outcome r hk _ => .inl ⟨hent key outcome hk, hne key⟩
  · intro t key hk
    rw [leadsFor, hl, Option.getD_none, ite_self] at hk
    rw [hrun]
    exact h.leaders t key hk
  · exact Nat.le_refl _
  · exact fun t now he => absurd he (hn t now)
  · exact fun _ _ hd => .inl hd

/-- A step of the refreshes by a thread after which it leads for `key`. -/
theorem Inv.lead {w : World P L} {log : Log P} {e : Entry (Op P) Ans Task (Answer P)} {key : ResourceKey}
    (h : Inv s w log) (hp : publishedKey e = none) (he : leadChange e = some (some key))
    (hn : ∀ t now, e ≠ .did t .instantNow now) (hr : w.refreshes.running key = none)
    {refreshes : SingleFlight ResourceKey (RefreshOutcome P)} (href : refreshes.Traced (history (e :: log)))
    (hent : refreshes.entries = w.refreshes.entries)
    (hrun : refreshes.running = Function.update w.refreshes.running key (some e.thread)) :
    Inv s { w with refreshes := refreshes } (e :: log) := by
  have hne := Option.eq_none_iff_forall_ne_some.1 hp
  apply h.step
  · exact fun key r hk => .inl ⟨hk, hne key⟩
  · exact href
  · intro key outcome r hk _
    simp only [hent] at hk
    exact .inl ⟨hk, hne key⟩
  · intro t k hl
    rw [leadsFor, he, Option.getD_some] at hl
    simp only [hrun, Function.update_apply]
    split at hl
    · rename_i ht
      obtain rfl := Option.some.inj hl
      rw [if_pos rfl, ht]
    · have hk := h.leaders t k hl
      rw [if_neg, hk]
      -- nobody led for the key
      rintro rfl
      rw [hr] at hk
      cases hk
  · exact Nat.le_refl _
  · exact fun t now he => absurd he (hn t now)
  · exact fun _ _ hd => .inl hd

/-- A publication by the leader of the key. -/
theorem Inv.publish {w : World P L} {log : Log P} {t : Nat} {o : Op P} {a : Ans o} {key : ResourceKey}
    {r : Representation P} (h : Inv s w log) (hpub : Publishing s t key r log)
    (he : Silent (.did t o a : Entry (Op P) Ans Task (Answer P))) (ho : o ≠ .instantNow)
    (hp : publishedKey (.did t o a : Entry (Op P) Ans Task (Answer P)) = some key)
    {stored : Option (Representation P)}
    (hs : ∀ r, stored = some r → Held s (.did t o a :: log) key r ∧ Latest s (.did t o a :: log) key r) :
    Inv s { w with representations := Function.update w.representations key stored } (.did t o a :: log) := by
  have hne : ∀ key', key' ≠ key →
      publishedKey (.did t o a : Entry (Op P) Ans Task (Answer P)) ≠ some key' := by
    intro key' hk he
    rw [hp] at he
    exact hk (Option.some.inj he).symm
  apply h.step
  · intro key' r' hk
    simp only [Function.update_apply] at hk
    split at hk
    · rename_i hkey
      subst hkey
      exact .inr (hs r' hk)
    · rename_i hkey
      exact .inl ⟨hk, hne key' hkey⟩
  · rw [he.history]
    exact h.refreshes
  · intro key' outcome r' hk _
    refine .inl ⟨hk, hne key' ?_⟩
    -- the key has a leader, so it has no outcome
    rintro rfl
    rw [h.absent hpub.leads] at hk
    cases hk
  · intro t' key' hl
    exact h.leaders t' key' (he.leadsFor t' log ▸ hl)
  · exact Nat.le_refl _
  · intro t' now hm
    cases hm
    exact absurd rfl ho
  · exact fun _ _ hd => .inl hd

/-- The leader of the key lands an outcome. -/
theorem Inv.land {w : World P L} {log : Log P} {t : Nat} {key : ResourceKey} {outcome : RefreshOutcome P}
    (h : Inv s w log) (hland : Landing s t key outcome log) :
    Inv s { w with refreshes := w.refreshes.land key outcome } (.did t (.initDone key outcome) () :: log) := by
  have hne : ∀ key', publishedKey (.did t (.initDone key outcome) () : Entry (Op P) Ans Task (Answer P)) ≠ some key' :=
    Option.eq_none_iff_forall_ne_some.1 rfl
  apply h.step
  · exact fun key' _ hk => .inl ⟨hk, hne key'⟩
  · exact h.refreshes.land t key outcome
  · intro key' outcome' r hk hr
    simp only [SingleFlight.land, Function.update_apply] at hk
    split at hk
    · rename_i hkey
      obtain rfl := Option.some.inj hk
      subst hkey
      exact .inr ((hland.latest r hr).cons (hne key'))
    · exact .inl ⟨hk, hne key'⟩
  · intro t' key' hl
    rw [leadsFor] at hl
    split at hl
    · simp [leadChange] at hl
    · rename_i ht
      have hk := h.leaders t' key' hl
      simp only [SingleFlight.land, Function.update_apply]
      rw [if_neg, hk]
      -- only `t` led for the key it landed
      rintro rfl
      rw [h.leaders t key' hland.leads] at hk
      exact ht (Option.some.inj hk)
  · exact Nat.le_refl _
  · rintro t' now ⟨⟩
  · exact fun _ _ hd => .inl hd

theorem Inv.did {w w' : World P L} {log : Log P} {t : Nat} {o : Op P} {k : Ans o → Calls P (Answer P)} {x : Outside}
    {a : Ans o} (h : Inv s w log) (hpre : Pre s t o k log) (he : World.exec s t o x w = some (a, w')) :
    Inv s w' (.did t o a :: log) := by
  cases o with
  | instantNow =>
    obtain ⟨rfl, rfl⟩ := Prod.mk.inj (Option.some.inj he)
    refine h.silent ⟨rfl, rfl⟩ rfl rfl rfl rfl ?_ (fun _ _ hd => .inl hd)
    rintro t' now hm
    cases hm
    rfl
  | startTimeout =>
    obtain ⟨rfl, rfl⟩ := Prod.mk.inj (Option.some.inj he)
    refine h.silent ⟨rfl, rfl⟩ rfl rfl rfl rfl (by rintro _ _ ⟨⟩) (fun t' d hd => ?_)
    simp only [Function.update_apply] at hd
    split at hd
    · exact .inr (Nat.le_of_eq (Option.some.inj hd).symm)
    · exact .inl hd
  | endTimeout =>
    obtain ⟨rfl, rfl⟩ := Prod.mk.inj (Option.some.inj he)
    refine h.silent ⟨rfl, rfl⟩ rfl rfl rfl rfl (by rintro _ _ ⟨⟩) (fun t' d hd => ?_)
    simp only [Function.update_apply] at hd
    split at hd
    · cases hd
    · exact .inl hd
  | representationsInsert key r =>
    obtain ⟨rfl, rfl⟩ := Prod.mk.inj (Option.some.inj he)
    obtain ⟨hpub, hheld⟩ : Publishing s t key r log ∧ Held s log key r := hpre
    apply Inv.publish (o := .representationsInsert key r) (a := ()) h hpub ⟨rfl, rfl⟩ nofun rfl
    intro r' hr
    obtain rfl := Option.some.inj hr
    obtain ⟨response, hmade⟩ := hpub.made
    have hq : Publication s (.did t (.representationsInsert key r) () :: log) key r :=
      ⟨t, log, response, hmade, .inl rfl⟩
    exact ⟨hheld.mono (List.suffix_cons _ log), hq.latest⟩
  | representationsInvalidate key =>
    obtain ⟨rfl, rfl⟩ := Prod.mk.inj (Option.some.inj he)
    obtain ⟨r, hpub⟩ : ∃ r, Publishing s t key r log := hpre
    apply Inv.publish (o := .representationsInvalidate key) (a := ()) h hpub ⟨rfl, rfl⟩ nofun rfl
    rintro r' ⟨⟩
  | refreshesGet key =>
    obtain ⟨rfl, rfl⟩ := Prod.mk.inj (Option.some.inj he)
    cases hk : w.refreshes.entries key with
    | some outcome => exact h.controls ⟨rfl, rfl⟩ rfl (by rintro ⟨⟩) ⟨w.handlers, w.controls, rfl⟩
    | none => exact h.flight rfl rfl (by rintro _ _ ⟨⟩) ⟨_, rfl⟩ (h.refreshes.missed hk) (fun _ _ hk => hk) rfl
  | refreshesInvalidate key =>
    obtain ⟨rfl, rfl⟩ := Prod.mk.inj (Option.some.inj he)
    refine h.flight rfl rfl (by rintro _ _ ⟨⟩) ⟨_, rfl⟩ (h.refreshes.forget_missed key) ?_ rfl
    intro key' outcome hk
    simp only [SingleFlight.forget, Function.update_apply] at hk
    split at hk
    · cases hk
    · exact hk
  | getWith key =>
    obtain ⟨rfl, rfl⟩ := Prod.mk.inj (Option.some.inj he)
    rcases w.refreshes.enter_cases t key with ⟨v, -, hent⟩ | ⟨hk, hr, hent⟩ | ⟨hk, hent⟩
    · rw [hent]
      exact h.controls ⟨rfl, rfl⟩ rfl (by rintro ⟨⟩) ⟨w.handlers, w.controls, rfl⟩
    · rw [hent]
      exact h.lead rfl rfl (by rintro _ _ ⟨⟩) hr (h.refreshes.leadBy hk t) rfl rfl
    · rw [hent]
      exact h.flight rfl rfl (by rintro _ _ ⟨⟩) ⟨_, rfl⟩ (h.refreshes.waits t key) (fun _ _ hk => hk) rfl
  | awaitWith key =>
    simp only [World.exec, Option.map_eq_some_iff] at he
    obtain ⟨⟨r, refreshes⟩, hawait, hw⟩ := he
    obtain ⟨rfl, rfl⟩ := Prod.mk.inj hw
    rcases SingleFlight.await_cases hawait with ⟨v, rfl, rfl, -⟩ | ⟨rfl, rfl, hk, hr⟩
    · exact h.flight rfl rfl (by rintro _ _ ⟨⟩) ⟨_, rfl⟩ (h.refreshes.unseat t) (fun _ _ hk => hk) rfl
    · exact h.lead rfl rfl (by rintro _ _ ⟨⟩) hr ((h.refreshes.unseat t).leadBy hk t) rfl rfl
  | initDone key outcome =>
    obtain ⟨rfl, rfl⟩ := Prod.mk.inj (Option.some.inj he)
    exact h.land hpre
  | resolveHost host port =>
    cases x with
    | addresses answer =>
      obtain ⟨rfl, rfl⟩ := Prod.mk.inj (Option.some.inj he)
      exact h.controls ⟨rfl, rfl⟩ rfl (by rintro ⟨⟩) ⟨w.handlers, w.controls, rfl⟩
    | silent => cases he
    | response answer => cases he
  | fetch request =>
    cases x with
    | response answer =>
      obtain ⟨rfl, rfl⟩ := Prod.mk.inj (Option.some.inj he)
      exact h.controls ⟨rfl, rfl⟩ rfl (by rintro ⟨⟩) ⟨w.handlers, w.controls, rfl⟩
    | silent => cases he
    | addresses answer => cases he
  | acquireHandler =>
    simp only [World.exec] at he
    split at he
    all_goals
      obtain ⟨rfl, rfl⟩ := Prod.mk.inj (Option.some.inj he)
      exact h.controls ⟨rfl, rfl⟩ rfl (by rintro ⟨⟩) ⟨_, w.controls, rfl⟩
  | systemNow | representationsGet | checkCircuit | success | failureBackoff | circuitRemaining | beginFetch
  | dropPermit | checkIp =>
    obtain ⟨rfl, rfl⟩ := Prod.mk.inj (Option.some.inj he)
    exact h.controls ⟨rfl, rfl⟩ rfl (by rintro ⟨⟩) ⟨w.handlers, _, rfl⟩

theorem Inv.env {w w' : World P L} {log : Log P} {e : Env} (h : Inv s w log) (he : World.env e w = some w') :
    Inv s w' log := by
  obtain ⟨hrep, hstored, href, hsettled, hlead, hinst, hdead⟩ := h
  cases e with
  | clock wall instant =>
    simp only [World.env] at he
    split at he
    · rename_i hle
      obtain rfl := Option.some.inj he
      exact ⟨hrep, hstored, href, hsettled, hlead, fun t now hm => (hinst t now hm).trans hle,
        fun t d hd => (hdead t d hd).trans (Nat.add_le_add_right hle _)⟩
    · cases he
  | park t =>
    simp only [World.env, Option.map_eq_some_iff] at he
    obtain ⟨refreshes, hp, rfl⟩ := he
    refine ⟨hrep, hstored, href.park hp, fun key outcome r hk => ?_, fun t' key hl => ?_, hinst, hdead⟩
    · rw [SingleFlight.park_entries hp] at hk
      exact hsettled key outcome r hk
    · rw [SingleFlight.park_running hp]
      exact hlead t' key hl
  | evictRepresentation key =>
    obtain rfl := Option.some.inj he
    have hkept : ∀ key' r, Function.update w.representations key none key' = some r → w.representations key' = some r := by
      intro key' r hk
      rw [Function.update_apply] at hk
      split at hk
      · cases hk
      · exact hk
    exact ⟨fun key' r hk => hrep key' r (hkept key' r hk), fun key' r hk => hstored key' r (hkept key' r hk), href,
      hsettled, hlead, hinst, hdead⟩
  | evictRefresh key =>
    obtain rfl := Option.some.inj he
    refine ⟨hrep, hstored, href.forget key, fun key' outcome r hk => ?_, hlead, hinst, hdead⟩
    simp only [SingleFlight.forget, Function.update_apply] at hk
    split at hk
    · cases hk
    · exact hsettled key' outcome r hk
  | evictCircuit | evictOrigin | evictIp =>
    obtain rfl := Option.some.inj he
    exact ⟨hrep, hstored, href, hsettled, hlead, hinst, hdead⟩

theorem Inv.dropped {w : World P L} {log : Log P} {t : Nat} {c : Task} {x : Option (Answer P)} (h : Inv s w log) :
    Inv s (World.release t w) (.dropped t c x :: log) := by
  have hne : ∀ key, publishedKey (.dropped t c x : Entry (Op P) Ans Task (Answer P)) ≠ some key := by
    rintro key ⟨⟩
  refine h.step (fun key _ hk => .inl ⟨hk, hne key⟩) (h.refreshes.leave t) (fun key _ _ hk _ => .inl ⟨hk, hne key⟩)
    (fun t' key hl => ?_) (Nat.le_refl _) nofun (fun t' d hd => ?_)
  · rw [leadsFor] at hl
    split at hl
    · simp [leadChange] at hl
    · rename_i ht
      have hk := h.leaders t' key hl
      simp only [World.release, SingleFlight.leave, hk]
      rw [if_neg]
      intro he
      exact ht (Option.some.inj he).symm
  · simp only [World.release, Function.update_apply] at hd
    split at hd
    · cases hd
    · exact .inl hd

/-- Calls and results of threads tell the shared state nothing. -/
theorem Inv.ends {w : World P L} {log : Log P} {e : Entry (Op P) Ans Task (Answer P)} (h : Inv s w log)
    (he : Silent e) (hp : publishedKey e = none) (hn : ∀ t now, e ≠ .did t .instantNow now) : Inv s w (e :: log) :=
  h.silent he hp rfl rfl rfl (fun t now hm => absurd hm (hn t now)) (fun _ _ hd => .inl hd)

theorem Inv.start (wall : SystemTime) (instant : Instant) : Inv s (World.start s wall instant) [] where
  representations := by rintro key r ⟨⟩
  stored := by rintro key r ⟨⟩
  refreshes := .empty
  settled := by rintro key outcome r ⟨⟩
  leaders := by rintro t key ⟨⟩
  instants := by rintro t now ⟨⟩
  deadlines := by rintro t d ⟨⟩

/-- It is left to show that every task keeps to the outline. -/
theorem outline_sound {Q : Nat → Task → Answer P → Log P → Prop} {wall : SystemTime} {instant : Instant}
    (hbody : ∀ t c log, (∀ e ∈ log, e.thread ≠ t) → (outline s).wp t (Q t c) (Task.body s c) (.called t c :: log)) :
    (outline s).Sound Q (World.start s wall instant) where
  start := Inv.start wall instant
  called _ _ _ _ h := Inv.ends h ⟨rfl, rfl⟩ rfl nofun
  did _ _ _ _ _ _ _ _ h _ hpre he := Inv.did h hpre he
  returned _ _ _ _ _ h := Inv.ends h ⟨rfl, rfl⟩ rfl nofun
  dropped _ _ _ _ _ h := Inv.dropped h
  env _ _ _ _ h he := Inv.env h he
  body := hbody

end EnvoyWebBotAuth.Resolver
