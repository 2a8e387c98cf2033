import EnvoyWebBotAuth.Resolver.Service
/-!
# What a log tells

Facts about representations and refreshes that stay true as a log grows: where
a representation came from (`Sourced`, `Held`), that a refresh of a key was
landed (`LandedSince`), and what a thread is about (`leadsFor`, `Hop`,
`Resumes`). `Inv` ties the shared state to them, `Pre` is what a thread owes
before a call.
-/
open EnvoyWebBotAuth.Lib EnvoyWebBotAuth.Protocol

namespace EnvoyWebBotAuth.Resolver

variable {P L : Type}

/-- The calls of one thread, newest first. -/
abbrev Trace (P : Type) := List ((o : Op P) × Ans o)

/-! ## Where a representation came from -/

/-- A load of `key` that began at `now` and captured `previous`. -/
structure Loading (P : Type) where
  key : ResourceKey
  previous : Option (Representation P)
  now : SystemTime
  /-- The calls before the load. -/
  before : Trace P

/-- The load the last calls are of. -/
def loading : Trace P → Option (Loading P)
  | ⟨.representationsGet key, previous⟩ :: ⟨.systemNow, now⟩ :: before => some ⟨key, previous, now, before⟩
  | _ :: trace => loading trace
  | [] => none

def captured (trace : Trace P) : Option (Representation P) := (loading trace).bind Loading.previous

section Held

variable (s : ResolverService P L)

/-- The resource was parsed from a body fetched for the key. -/
def Sourced (log : Log P) (key : ResourceKey) (resource : ParsedResource) : Prop :=
  ∃ t request response, .did t (.fetch request) (.ok response) ∈ log ∧
    request.url = key.url ∧ request.kind = key.kind ∧ response.status ≠ notModifiedStatus ∧
    parseResource s.crates.resource key.kind key.url response.body s.limits.maxKeys = .ok resource

/-- The last calls of a thread are a fetch of the key and a reading of the
clock, and its response gives the representation. -/
def Made (trace : Trace P) (key : ResourceKey) (response : FetchResponse) (r : Representation P) : Prop :=
  ∃ now headers ip request rest,
    trace = ⟨.systemNow, now⟩ :: ⟨.fetch ⟨key.url, key.kind, headers, ip⟩, .ok response⟩ :: rest ∧
    cacheRequest s.crates key = .ok request ∧
    representationFromResponse s.crates key request (captured rest) response s.limits.maxKeys now = .ok r

structure Held (log : Log P) (key : ResourceKey) (r : Representation P) : Prop where
  sourced : Sourced s log key r.resource
  made : ∃ t older response, older <:+ log ∧ Made s (own t older) key response r

variable {s}

theorem Sourced.mono {log log' : Log P} {key : ResourceKey} {resource : ParsedResource}
    (h : Sourced s log key resource) (hl : log <:+ log') : Sourced s log' key resource := by
  obtain ⟨t, request, response, hm, hr⟩ := h
  exact ⟨t, request, response, hl.subset hm, hr⟩

theorem Held.mono {log log' : Log P} {key : ResourceKey} {r : Representation P} (h : Held s log key r)
    (hl : log <:+ log') : Held s log' key r := by
  obtain ⟨hs, t, older, response, ho, hm⟩ := h
  exact ⟨hs.mono hl, t, older, response, ho.trans hl, hm⟩

/-- What a response gives is held if what it revalidates is. -/
theorem Held.of_response {log : Log P} {t : Nat} {key : ResourceKey} {now : SystemTime} {headers : Headers}
    {ip : IpAddr} {response : FetchResponse} {request : Request} {rest : Trace P} {r : Representation P}
    (ho : own t log = ⟨.systemNow, now⟩ :: ⟨.fetch ⟨key.url, key.kind, headers, ip⟩, .ok response⟩ :: rest)
    (hreq : cacheRequest s.crates key = .ok request)
    (hp : ∀ old, captured rest = some old → Held s log key old)
    (h : representationFromResponse s.crates key request (captured rest) response s.limits.maxKeys now = .ok r) :
    Held s log key r := by
  refine ⟨?_, t, log, response, List.suffix_refl log, now, headers, ip, request, rest, ho, hreq, h⟩
  unfold representationFromResponse at h
  split at h
  · -- a revalidation: the resource is the one the previous representation had
    simp only [bind_ok, okOr_ok] at h
    obtain ⟨old, hold, h⟩ := h
    unfold revalidated at h
    split at h
    · obtain rfl := Except.ok.inj h
      exact (hp old hold).sourced
    · cases h
  · rename_i hstatus
    simp only [fetched, bind_ok] at h
    obtain ⟨resource, hparse, h⟩ := h
    obtain rfl := Except.ok.inj h
    have hm : (⟨.fetch ⟨key.url, key.kind, headers, ip⟩, .ok response⟩ : (o : Op P) × Ans o) ∈ own t log := by
      rw [ho]
      simp
    exact ⟨t, _, response, mem_of_mem_own hm, rfl, rfl, hstatus, hparse⟩

end Held

/-! ## Publications -/

/-- The key an entry publishes for: a refresh stores what it made, or clears
the key if that is not storable. -/
def publishedKey : Entry (Op P) Ans Task (Answer P) → Option ResourceKey
  | .did _ (.representationsInsert key _) _ => some key
  | .did _ (.representationsInvalidate key) _ => some key
  | _ => none

section Publication

variable (s : ResolverService P L)

/-- A log that ends with the publication of `r`. -/
def Publication (log : Log P) (key : ResourceKey) (r : Representation P) : Prop :=
  ∃ t older response, Made s (own t older) key response r ∧
    (log = .did t (.representationsInsert key r) () :: older ∨ log = .did t (.representationsInvalidate key) () :: older)

/-- Of what was published for the key, `r` is the latest. -/
def Latest (log : Log P) (key : ResourceKey) (r : Representation P) : Prop :=
  ∃ newer q, log = newer ++ q ∧ Publication s q key r ∧ ∀ e ∈ newer, publishedKey e ≠ some key

/-- Nothing that was published for the key at `start` is later than `r`. -/
def Current (start log : Log P) (key : ResourceKey) (r : Representation P) : Prop :=
  ∃ q, q <:+ log ∧ Publication s q key r ∧ ∀ q' r', q' <:+ start → Publication s q' key r' → q' <:+ q

variable {s} {log log' start : Log P} {key : ResourceKey} {r : Representation P}

theorem Publication.published (h : Publication s log key r) :
    ∃ e older, log = e :: older ∧ publishedKey e = some key := by
  obtain ⟨t, older, response, -, hlog | hlog⟩ := h
  · exact ⟨_, older, hlog, rfl⟩
  · exact ⟨_, older, hlog, rfl⟩

theorem Latest.cons (h : Latest s log key r) {e : Entry (Op P) Ans Task (Answer P)} (he : publishedKey e ≠ some key) :
    Latest s (e :: log) key r := by
  obtain ⟨newer, q, rfl, hq, hn⟩ := h
  refine ⟨e :: newer, q, rfl, hq, ?_⟩
  intro e' he'
  rcases List.mem_cons.1 he' with rfl | he'
  · exact he
  · exact hn e' he'

theorem Publication.latest (h : Publication s log key r) : Latest s log key r := by
  refine ⟨[], log, rfl, h, ?_⟩
  intro e he
  cases he

/-- What is the latest now is later than what was published before. -/
theorem Latest.current (h : Latest s log key r) (hs : start <:+ log) : Current s start log key r := by
  obtain ⟨newer, q, rfl, hq, hn⟩ := h
  refine ⟨q, List.suffix_append newer q, hq, ?_⟩
  intro q' r' hs' hq'
  obtain ⟨e, older, rfl, he⟩ := hq'.published
  -- a longer suffix would begin with one of the newer entries
  rcases List.suffix_or_suffix_of_suffix (hs'.trans hs) (List.suffix_append newer q) with hle | hle
  · exact hle
  · obtain ⟨between, hb⟩ := hle
    cases between with
    | nil =>
      rw [List.nil_append] at hb
      rw [hb]
    | cons e' between =>
      obtain ⟨rfl, -⟩ := List.cons.inj hb
      exfalso
      obtain ⟨more, hmore⟩ := hs'.trans hs
      rw [← hb, ← List.append_assoc] at hmore
      have hnewer : newer = more ++ e' :: between := (List.append_cancel_right hmore).symm
      exact hn e' (by rw [hnewer]; simp) he

theorem Current.mono (h : Current s start log key r) (hl : log <:+ log') : Current s start log' key r := by
  obtain ⟨q, hq, hp⟩ := h
  exact ⟨q, hq.trans hl, hp⟩

theorem Current.from_later (h : Current s start log key r) {start' : Log P} (hs : start' <:+ start) :
    Current s start' log key r := by
  obtain ⟨q, hq, hp, hn⟩ := h
  exact ⟨q, hq, hp, fun q' r' hs' => hn q' r' (hs'.trans hs)⟩

end Publication

/-! ## Refreshes -/

/-- What a call tells about the refreshes of keys. -/
def flightEvent : Entry (Op P) Ans Task (Answer P) → Option (SingleFlight.Event ResourceKey (RefreshOutcome P))
  | .did _ (.refreshesGet key) none => some (.missed key)
  | .did _ (.refreshesInvalidate key) _ => some (.missed key)
  | .did t (.getWith key) .wait => some (.waits t key)
  | .did t (.initDone key outcome) _ => some (.landed t key outcome)
  | _ => none

def history (log : Log P) : List (SingleFlight.Event ResourceKey (RefreshOutcome P)) := log.filterMap flightEvent

theorem mem_history_landed {log : Log P} {t : Nat} {key : ResourceKey} {outcome : RefreshOutcome P}
    (h : .landed t key outcome ∈ history log) : .did t (.initDone key outcome) () ∈ log := by
  obtain ⟨e, he, hf⟩ := List.mem_filterMap.1 h
  unfold flightEvent at hf
  split at hf <;> simp only [Option.some.injEq, reduceCtorEq, SingleFlight.Event.landed.injEq] at hf
  obtain ⟨rfl, rfl, rfl⟩ := hf
  exact he

/-- A refresh of the key landed with `outcome` since `start`. -/
def LandedSince (start log : Log P) (key : ResourceKey) (outcome : RefreshOutcome P) : Prop :=
  ∃ t older, (.did t (.initDone key outcome) () :: older) <:+ log ∧ start <:+ older

theorem LandedSince.mono {start log log' : Log P} {key : ResourceKey} {outcome : RefreshOutcome P}
    (h : LandedSince start log key outcome) (hl : log <:+ log') : LandedSince start log' key outcome := by
  obtain ⟨t, older, ho, hs⟩ := h
  exact ⟨t, older, ho.trans hl, hs⟩

theorem landedSince_of_mem {start newer : Log P} {t : Nat} {key : ResourceKey} {outcome : RefreshOutcome P}
    (h : .did t (.initDone key outcome) () ∈ newer) : LandedSince start (newer ++ start) key outcome := by
  obtain ⟨a, b, rfl⟩ := List.append_of_mem h
  exact ⟨t, b ++ start, ⟨a, by simp⟩, ⟨b, rfl⟩⟩

theorem LandedSince.from_later {start start' log : Log P} {key : ResourceKey} {outcome : RefreshOutcome P}
    (h : LandedSince start' log key outcome) (hs : start <:+ start') : LandedSince start log key outcome := by
  obtain ⟨t, older, ho, hs'⟩ := h
  exact ⟨t, older, ho, hs.trans hs'⟩

theorem LandedSince.mem {start log : Log P} {key : ResourceKey} {outcome : RefreshOutcome P}
    (h : LandedSince start log key outcome) : ∃ t, .did t (.initDone key outcome) () ∈ log := by
  obtain ⟨t, older, ho, -⟩ := h
  exact ⟨t, ho.subset List.mem_cons_self⟩

/-- Since an event that clears the history for the key or the thread, a landing
in the history is in the log. -/
theorem landedSince_of_since {start log older : Log P} {e : Entry (Op P) Ans Task (Answer P)}
    {x : SingleFlight.Event ResourceKey (RefreshOutcome P)}
    {p : SingleFlight.Event ResourceKey (RefreshOutcome P) → Bool} {t : Nat} {key : ResourceKey}
    {outcome : RefreshOutcome P} (h : Since p (.landed t key outcome) (history log)) (he : flightEvent e = some x)
    (hx : p x = true) (ho : (e :: older) <:+ log) (hs : start <:+ older) : LandedSince start log key outcome := by
  obtain ⟨newer, rfl⟩ := ho
  have hh : history (newer ++ e :: older) = history newer ++ x :: history older := by
    simp only [history, List.filterMap_append, List.filterMap_cons_some he]
  rw [hh] at h
  exact (landedSince_of_mem (mem_history_landed (h.mem_newer hx))).from_later (hs.trans (List.suffix_cons e older))

/-! ## What a thread is about -/

/-- The key an entry makes its thread lead for, or that it leads for none. -/
def leadChange : Entry (Op P) Ans Task (Answer P) → Option (Option ResourceKey)
  | .did _ (.getWith key) .lead => some (some key)
  | .did _ (.awaitWith key) none => some (some key)
  | .did _ (.initDone _ _) _ => some none
  | .dropped _ _ _ => some none
  | _ => none

/-- The key a thread leads for. -/
def leadsFor (t : Nat) : Log P → Option ResourceKey
  | [] => none
  | e :: log => if e.thread = t then (leadChange e).getD (leadsFor t log) else leadsFor t log

/-- The keys a thread led for, newest first. -/
def led (t : Nat) : Log P → List ResourceKey
  | [] => []
  | e :: log => if e.thread = t then ((leadChange e).join).toList ++ led t log else led t log

theorem leadsFor_did (t : Nat) (o : Op P) (a : Ans o) (log : Log P) :
    leadsFor t (.did t o a :: log) = (leadChange (.did t o a)).getD (leadsFor t log) := if_pos rfl

theorem led_did (t : Nat) (o : Op P) (a : Ans o) (log : Log P) :
    led t (.did t o a :: log) = (leadChange (.did t o a)).join.toList ++ led t log := if_pos rfl

theorem Later.leadsFor {t : Nat} {log log' : Log P} (h : Later t log log') :
    leadsFor t log' = leadsFor t log := by
  obtain ⟨m, rfl, hm⟩ := h
  induction m with
  | nil => rfl
  | cons e m ih =>
    rw [List.cons_append, Resolver.leadsFor, if_neg (hm e (by simp))]
    exact ih (fun e he => hm e (by simp [he]))

theorem Later.led {t : Nat} {log log' : Log P} (h : Later t log log') : led t log' = led t log := by
  obtain ⟨m, rfl, hm⟩ := h
  induction m with
  | nil => rfl
  | cons e m ih =>
    rw [List.cons_append, Resolver.led, if_neg (hm e (by simp))]
    exact ih (fun e he => hm e (by simp [he]))

variable (s : ResolverService P L)

/-- The first document a request is resolved by. -/
def firstKey (request : ResolveRequest) (target : DiscoveryTarget) : ResourceKey :=
  ⟨target.fetchUrl, if request.discovery = .cimd then .cimd else .jwks⟩

/-- Metadata fetched for `first` names `second`. -/
def NamedBy (log : Log P) (first second : Url) : Prop :=
  ∃ cimd : CimdResource, Sourced s log ⟨first, .cimd⟩ (.cimd cimd) ∧ cimd.jwksUri = some second

theorem NamedBy.mono {log log' : Log P} {first second : Url} (h : NamedBy s log first second) (hl : log <:+ log') :
    NamedBy s log' first second := by
  obtain ⟨cimd, hc, hu⟩ := h
  exact ⟨cimd, hc.mono hl, hu⟩

/-- The keys a thread may load and refresh, given those it led for so far. -/
def Hop (task : Task) (ledSoFar : List ResourceKey) (key : ResourceKey) (log : Log P) : Prop :=
  match task with
  | .load key' => key = key' ∧ ledSoFar = []
  | .resolve request => ∃ target, validateRequest s.crates.resource.url request = .ok target ∧
      ((key = firstKey request target ∧ ledSoFar = []) ∨
        (request.discovery = .cimd ∧ key.kind = .jwks ∧ NamedBy s log target.fetchUrl key.url ∧
          ledSoFar.Sublist [firstKey request target]))

theorem Hop.mono {task : Task} {ledSoFar : List ResourceKey} {key : ResourceKey} {log log' : Log P}
    (h : Hop s task ledSoFar key log) (hl : log <:+ log') : Hop s task ledSoFar key log' := by
  cases task with
  | load key' => exact h
  | resolve request =>
    obtain ⟨target, hv, h | ⟨hd, hk, hn, hled⟩⟩ := h
    · exact ⟨target, hv, .inl h⟩
    · exact ⟨target, hv, .inr ⟨hd, hk, hn.mono s hl, hled⟩⟩

/-- The rest of a resolve call whose keys are being loaded. -/
def concluded (request : ResolveRequest) (target : DiscoveryTarget)
    (keys : Calls P (Except FetchError (List ResourceKeyEntry))) : Calls P (Answer P) := do
  let keys ← keys
  call .endTimeout
  return .response (keys.map (respond s request target))

/-- How a task goes on after the load of `key`. -/
def Resumes (task : Task) (key : ResourceKey) (k : Except FetchError (Representation P) → Calls P (Answer P)) :
    Prop :=
  match task with
  | .load key' => key = key' ∧ k = fun r => .ret (.representation r)
  | .resolve request => ∃ target, validateRequest s.crates.resource.url request = .ok target ∧
      ((key.kind = .jwks ∧ k = fun r => concluded s request target (.ret (r.bind jwksOf))) ∨
        (key.kind = .cimd ∧ k = fun r => concluded s request target
          (Prog.orReturn (r.bind cimdOf) (fun cimd => (cimdKeys s cimd).run))))

/-- A load that leads its key, from the answer of the fetch on. -/
def afterFetch (key : ResourceKey) (request : Request) (previous : Option (Representation P)) (now : SystemTime)
    (response : Except FetchError FetchResponse) : Calls P (Except FetchError (Representation P)) := do
  let result ← (settleFetch s key request previous response).run
  call .dropPermit
  let outcome ← refreshOutcome s key result
  call (.initDone key outcome)
  return resultOrStale outcome.result previous now

end EnvoyWebBotAuth.Resolver
