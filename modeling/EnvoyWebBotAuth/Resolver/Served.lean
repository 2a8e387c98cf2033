import EnvoyWebBotAuth.Resolver.Tasks
/-!
# What the cache serves

A load gives out a representation that was fresh, or the result of a refresh
that landed while it was going on or just before (`Live`), or what it captured
when it began, because of an error an origin gets over (`StaleOnError`).
-/
open EnvoyWebBotAuth.Lib EnvoyWebBotAuth.Protocol

namespace EnvoyWebBotAuth.Resolver

variable {P L : Type} (s : ResolverService P L)

/-- The clock read `r.storedAt` when a response for the key was turned into `r`. -/
def StoredAt (log : Log P) (key : ResourceKey) (r : Representation P) : Prop :=
  ∃ t older headers ip response rest, older <:+ log ∧
    own t older = ⟨.systemNow, r.storedAt⟩ :: ⟨.fetch ⟨key.url, key.kind, headers, ip⟩, .ok response⟩ :: rest

/-- The reasons a load of `key` by `t`, from `start` to `log`, has to give out
`r` whatever an origin fails at. -/
inductive Live (t : Nat) (start log : Log P) (key : ResourceKey) (r : Representation P) : Prop where
  /-- Fresh when the load began, and fetched or revalidated less than a day before. -/
  | fresh (request now headers) : cacheRequest s.crates key = .ok request →
      loading (own t log) = some ⟨key, some r, now, own t start⟩ →
      s.crates.policy.beforeRequest r.policy request now = .fresh headers →
      now < r.storedAt + maxFreshness → Live t start log key r
  /-- The result of a refresh that landed during the load. -/
  | overlapped (outcome) : outcome.result = .ok r → LandedSince start log key outcome → Live t start log key r
  /-- The storable result of a refresh that ended less than 50 ms before the load looked. -/
  | recorded (t' outcome ended instant older) : outcome.result = .ok r →
      s.crates.policy.isStorable r.policy = true → .did t' (.initDone key outcome) () ∈ log →
      .did t' .instantNow ended ∈ log → outcome.validUntil = ended + fromMillis 50 →
      (.did t .instantNow instant :: older) <:+ log → start <:+ older → instant < outcome.validUntil →
      Live t start log key r

/-- The load captured `r`, used a refresh that failed, and `r` was inside its
stale window when the load began. -/
def StaleOnError (t : Nat) (start log : Log P) (key : ResourceKey) (r : Representation P) : Prop :=
  ∃ outcome error now staleFor, Used s t start log key outcome ∧ outcome.result = .error error ∧
    (error.class = .transient ∨ error.class = .circuitOpen) ∧
    loading (own t log) = some ⟨key, some r, now, own t start⟩ ∧ r.staleIfError = some staleFor ∧
    r.storedAt ≤ now ∧ now - r.storedAt ≤ r.freshFor + staleFor

structure Served (t : Nat) (start log : Log P) (key : ResourceKey) (r : Representation P) : Prop where
  since : start <:+ log
  began : ∃ previous now, loading (own t log) = some ⟨key, previous, now, own t start⟩
  stored : StoredAt log key r
  reason : Live s t start log key r ∨ StaleOnError s t start log key r

variable {s}

theorem representationFromResponse_storedAt {c : CacheCrates P} {key : ResourceKey} {request : Request}
    {previous : Option (Representation P)} {response : FetchResponse} {maxKeys : Nat} {now : SystemTime}
    {r : Representation P} (h : representationFromResponse c key request previous response maxKeys now = .ok r) :
    r.storedAt = now := by
  unfold representationFromResponse at h
  split at h
  · simp only [bind_ok, okOr_ok] at h
    obtain ⟨old, -, h⟩ := h
    unfold revalidated at h
    split at h
    · obtain rfl := Except.ok.inj h
      rfl
    · cases h
  · simp only [fetched, bind_ok] at h
    obtain ⟨resource, -, h⟩ := h
    obtain rfl := Except.ok.inj h
    rfl

theorem Held.storedAt {log : Log P} {key : ResourceKey} {r : Representation P} (h : Held s log key r) :
    StoredAt log key r := by
  obtain ⟨-, t, older, response, ho, now, headers, ip, request, rest, hown, -, hr⟩ := h
  obtain rfl := representationFromResponse_storedAt hr
  exact ⟨t, older, headers, ip, response, rest, ho, hown⟩

theorem Used.from_later {t : Nat} {start base log : Log P} {key : ResourceKey} {outcome : RefreshOutcome P}
    (h : Used s t base log key outcome) (hs : start <:+ base) : Used s t start log key outcome := by
  rcases h with h | ⟨hl, ⟨instant, older, ho, hb, hv⟩, hst⟩
  · exact .inl (h.from_later hs)
  · exact .inr ⟨hl, ⟨instant, older, ho, hs.trans hb, hv⟩, hst⟩

/-- A success a load used landed during it, or just before. -/
theorem Used.live {t : Nat} {start log : Log P} {key : ResourceKey} {outcome : RefreshOutcome P}
    {r : Representation P} (h : Used s t start log key outcome) (hg : (outline s).Good log)
    (hr : outcome.result = .ok r) : Live s t start log key r := by
  rcases h with h | ⟨⟨t', hm⟩, ⟨instant, older, ho, hs, hv⟩, hst⟩
  · exact .overlapped outcome hr h
  · -- the leader read the clock before it landed the outcome
    obtain ⟨before, hb, hland⟩ := landing_of_mem hg hm
    obtain ⟨-, ended, hended, hvalid⟩ := hland.success r hr
    rw [successTtl, if_pos (hst r hr)] at hvalid
    exact .recorded t' outcome ended instant older hr (hst r hr) hm (hb.subset hended) hvalid ho hs hv

/-- Each way a load has to a representation is a reason to serve it. -/
theorem Loaded.reason {t : Nat} {start log : Log P} {key : ResourceKey}
    {result : Except FetchError (Representation P)} {r : Representation P} (h : Loaded s t start key log result)
    (hg : (outline s).Good log) (hr : result = .ok r) :
    Live s t start log key r ∨ StaleOnError s t start log key r := by
  cases h with
  | invalid error he => cases hr
  | fresh r' request now hreq hload hfresh hheld =>
    obtain rfl := Except.ok.inj hr
    obtain ⟨hage, headers, hb⟩ := freshRequest_isSome.1 hfresh
    refine .inl (.fresh request now headers hreq hload hb ?_)
    exact Nat.lt_of_le_of_lt (Nat.sub_le_iff_le_add'.1 (Nat.le_refl _)) (Nat.add_lt_add_left hage _)
  | used outcome previous now base hb hload hprev hused =>
    rcases resultOrStale_ok hr with hok | ⟨error, herr, rfl, hallows, hstale⟩
    · exact .inl ((hused.from_later hb).live hg hok)
    · obtain ⟨staleFor, hsome, hle, hage⟩ := staleAllowedAfterError_iff.1 hstale
      refine .inr ⟨outcome, error, now, staleFor, hused.from_later hb, herr, allowsStale_iff.1 hallows, hload, hsome,
        hle, ?_⟩
      exact hage.trans (Nat.min_le_left _ _)

theorem Loaded.began {t : Nat} {start log : Log P} {key : ResourceKey}
    {result : Except FetchError (Representation P)} {r : Representation P} (h : Loaded s t start key log result)
    (hr : result = .ok r) : ∃ previous now, loading (own t log) = some ⟨key, previous, now, own t start⟩ := by
  cases h with
  | invalid error he => cases hr
  | fresh r' request now hreq hload hfresh hheld => exact ⟨_, _, hload⟩
  | used outcome previous now base hb hload hprev hused => exact ⟨_, _, hload⟩

theorem Reached.load_served {state : ResolverState P L} (h : Reached s state) {t : Nat} {key : ResourceKey}
    {r : Representation P} {older : Log P}
    (hl : (.returned t (.load key) (.representation (.ok r)) :: older) <:+ state.log) :
    ∃ start, (.called t (.load key) :: start) <:+ older ∧ Served s t (.called t (.load key) :: start) older key r := by
  have hg : (outline s).Good older := h.holds.good.suffix ((List.suffix_cons _ older).trans hl)
  obtain ⟨newer, hl⟩ := hl
  obtain ⟨start, hs, hload, hgives⟩ := h.holds.met.returned hl.symm
  exact ⟨start, hs, hs, hload.began rfl, (hgives r rfl).held.storedAt, hload.reason hg rfl⟩

theorem Reached.resolve_served {state : ResolverState P L} (h : Reached s state) {t : Nat} {request : ResolveRequest}
    {response : ResolveResponse} {older : Log P}
    (hl : (.returned t (.resolve request) (.response (.ok response)) :: older) <:+ state.log) :
    RespondedBy s (fun key r => ∃ start log, log <:+ older ∧ Served s t start log key r) request response := by
  have hg : (outline s).Good older := h.holds.good.suffix ((List.suffix_cons _ older).trans hl)
  obtain ⟨newer, hl⟩ := hl
  refine RespondedBy.imp (h.holds.met.returned hl.symm).1 ?_
  rintro key r ⟨start, log, ho, hs, hload, hgives⟩
  exact ⟨start, log, ho, hs, hload.began rfl, hgives.held.storedAt, hload.reason (hg.suffix ho) rfl⟩

/-- Whatever a load gives out, it has a reason to, and so has each load of a
resolve call that answers. -/
theorem loads_are_served {state : ResolverState P L} (h : Reached s state) :
    (∀ t key r older, (.returned t (.load key) (.representation (.ok r)) :: older) <:+ state.log →
      ∃ start, (.called t (.load key) :: start) <:+ older ∧ Served s t (.called t (.load key) :: start) older key r) ∧
    ∀ t request response older, (.returned t (.resolve request) (.response (.ok response)) :: older) <:+ state.log →
      RespondedBy s (fun key r => ∃ start log, log <:+ older ∧ Served s t start log key r) request response :=
  ⟨fun _ _ _ _ hl => h.load_served hl, fun _ _ _ _ hl => h.resolve_served hl⟩

/-- The load a result is of, if it is a representation. -/
def loadedOf : Entry (Op P) Ans Task (Answer P) → Option (Nat × ResourceKey × Representation P)
  | .returned t (.load key) (.representation (.ok r)) => some (t, key, r)
  | _ => none

theorem loadedOf_eq {e : Entry (Op P) Ans Task (Answer P)} {t : Nat} {key : ResourceKey} {r : Representation P}
    (h : loadedOf e = some (t, key, r)) : e = .returned t (.load key) (.representation (.ok r)) := by
  unfold loadedOf at h
  split at h
  · cases h
    rfl
  · cases h

/-- A run that ends with the result of a load. -/
theorem sampleRun_loaded {actions : List SampleAction} {t : Nat} {key : ResourceKey} {r : Representation SamplePolicy}
    (h : (sampleRun actions).bind (fun state => state.log.head?.bind loadedOf) = some (t, key, r)) :
    ∃ state older, sampleRun actions = some state ∧
      state.log = .returned t (.load key) (.representation (.ok r)) :: older := by
  obtain ⟨state, e, older, hrun, hl, hf⟩ := sampleService.system.run_head h
  obtain rfl := loadedOf_eq hf
  exact ⟨state, older, hrun, hl⟩

/-- A load of thread `t` that fetches this response and is done. -/
def sampleLoad (t looks asks : Nat) (response : FetchResponse) : List SampleAction :=
  sampleFetch t looks asks (.ok response) ++ turns t 6 ++ [.finish t]

def sampleRepresentation (cacheControl : String) (maxAge : Nat) : Representation SamplePolicy where
  resource := .jwks []
  policy := ⟨(sampleResponse 200 cacheControl).headers, 0, fromSecs maxAge⟩
  storedAt := 0
  freshFor := fromSecs maxAge
  staleIfError := none

theorem loads_are_served_sample : ∃ start older : Log SamplePolicy,
    Served sampleService 1 (.called 1 (.load sampleKey) :: start) older sampleKey
      (sampleRepresentation "max-age=60" 60) := by
  obtain ⟨state, older, hrun, hl⟩ := sampleRun_loaded (show
    (sampleRun (sampleLoad 1 4 1 (sampleResponse 200 "max-age=60"))).bind (fun state => state.log.head?.bind loadedOf) =
      some (1, sampleKey, sampleRepresentation "max-age=60" 60) by decide +kernel)
  obtain ⟨start, -, hserved⟩ := (loads_are_served (sampleRun_reached hrun)).1 1 sampleKey _ older ⟨[], hl.symm⟩
  exact ⟨start, older, hserved⟩

end EnvoyWebBotAuth.Resolver
