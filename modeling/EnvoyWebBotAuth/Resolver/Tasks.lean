import EnvoyWebBotAuth.Protocol.Identifier
import EnvoyWebBotAuth.Resolver.Walk
/-!
# Every run keeps to the outline

`Loaded` is what a load returns. With it a load and a resolve call are walked
through, and `reached` has what holds in every state of every run.
-/
open EnvoyWebBotAuth.Lib EnvoyWebBotAuth.Protocol

namespace EnvoyWebBotAuth.Resolver

variable {P L : Type} {s : ResolverService P L}

/-- The results of a load of `key` by thread `t` that began at `start`. -/
inductive Loaded (s : ResolverService P L) (t : Nat) (start : Log P) (key : ResourceKey) (log : Log P) :
    Except FetchError (Representation P) → Prop where
  | invalid (error) : cacheRequest s.crates key = .error error → Loaded s t start key log (.error error)
  | fresh (r request now) : cacheRequest s.crates key = .ok request →
      loading (own t log) = some ⟨key, some r, now, own t start⟩ → (r.freshRequest s.crates.policy request now).isSome →
      Held s log key r → Loaded s t start key log (.ok r)
  /-- `base` is when the load had captured the representation of the time. -/
  | used (outcome previous now base) : start <:+ base →
      loading (own t log) = some ⟨key, previous, now, own t start⟩ →
      (∀ old, previous = some old → Held s log key old) → Used s t base log key outcome →
      Loaded s t start key log (resultOrStale outcome.result previous now)

/-- What a representation a load returns comes from. -/
theorem Used.held {t : Nat} {start log : Log P} {key : ResourceKey} {outcome : RefreshOutcome P} {r : Representation P}
    (h : Used s t start log key outcome) (hg : (outline s).Good log) (hr : outcome.result = .ok r) :
    Held s log key r := by
  have hm : ∃ t', .did t' (.initDone key outcome) () ∈ log := h.elim LandedSince.mem Recorded.landed
  obtain ⟨t', hm⟩ := hm
  obtain ⟨older, ho, hland⟩ := landing_of_mem hg hm
  exact (hland.success r hr).1.mono ho

theorem Loaded.later {t : Nat} {start log log' : Log P} {key : ResourceKey}
    {result : Except FetchError (Representation P)} (h : Loaded s t start key log result) (hl : Later t log log') :
    Loaded s t start key log' result := by
  cases h with
  | invalid error he => exact .invalid error he
  | fresh r request now hreq hload hfresh hheld =>
    exact .fresh r request now hreq (hl.own ▸ hload) hfresh (hheld.mono hl.suffix)
  | used outcome previous now base hb hload hprev hused =>
    exact .used outcome previous now base hb (hl.own ▸ hload) (fun old hold => (hprev old hold).mono hl.suffix)
      (hused.mono hl.suffix)

/-- `t` gets `r` from a load of `key`, and nothing published for the key when
that load began is later. -/
def UpToDate (s : ResolverService P L) (t : Nat) (log : Log P) (key : ResourceKey) (r : Representation P) : Prop :=
  ∃ start previous now, (.did t .systemNow now :: start) <:+ log ∧
    loading (own t log) = some ⟨key, previous, now, own t start⟩ ∧ Current s start log key r

theorem UpToDate.later {t : Nat} {log log' : Log P} {key : ResourceKey} {r : Representation P}
    (h : UpToDate s t log key r) (hl : Later t log log') : UpToDate s t log' key r := by
  obtain ⟨start, previous, now, hs, hload, hcurrent⟩ := h
  refine ⟨start, previous, now, hs.trans hl.suffix, ?_, hcurrent.mono hl.suffix⟩
  rw [hl.own]
  exact hload

/-- What a load gives. -/
structure Gives (s : ResolverService P L) (t : Nat) (log : Log P) (key : ResourceKey) (r : Representation P) :
    Prop where
  held : Held s log key r
  upToDate : UpToDate s t log key r

theorem Gives.later {t : Nat} {log log' : Log P} {key : ResourceKey} {r : Representation P} (h : Gives s t log key r)
    (hl : Later t log log') : Gives s t log' key r := ⟨h.held.mono hl.suffix, h.upToDate.later hl⟩

section Load

variable {t : Nat} {start : Log P} {task : Task} {ledSoFar : List ResourceKey} {trace : Trace P} {log : Log P}
  {Q : Answer P → Log P → Prop} {K : Except FetchError (Representation P) → Calls P (Answer P)}
  {key : ResourceKey}

theorem wp_load (h : Knows t start task none ledSoFar trace log) (hop : Hop s task ledSoFar key log)
    (hresume : Resumes s task key K)
    (hK : ∀ result log' trace' led', Knows t start task none led' trace' log' →
      (led' = ledSoFar ∨ led' = key :: ledSoFar) → Loaded s t log key log' result →
      (∀ r, result = .ok r → Gives s t log' key r) → log <:+ log' → (outline s).wp t Q (K result) log') :
    (outline s).wp t Q ((load s key).run >>= K) log := by
  simp only [load, Prog.run_bind, Prog.run_check, Prog.run_ask, Prog.op_bind, Prog.ret_bind]
  cases hreq : cacheRequest s.crates key with
  | error error => exact hK _ _ _ _ h (.inl rfl) (.invalid error hreq) nofun (List.suffix_refl _)
  | ok request =>
    refine wp_step h (fun log₁ hl₁ _ h₁ => ⟨trivial, fun now _ h₁' => ?_⟩)
    refine wp_step h₁' (fun log₂ hl₂ _ h₂ => ⟨trivial, fun previous hans h₂' => ?_⟩)
    have hbegan : (.did t .systemNow now :: log₁) <:+ .did t (.representationsGet key) previous :: log₂ :=
      hl₂.suffix.trans (List.suffix_cons _ _)
    have hbase : log <:+ .did t (.representationsGet key) previous :: log₂ :=
      hl₁.suffix.trans ((List.suffix_cons _ _).trans hbegan)
    have hown : own t log₁ = own t log := hl₁.own
    have hprev : ∀ old, previous = some old → Held s (.did t (.representationsGet key) previous :: log₂) key old ∧
        Current s log₁ (.did t (.representationsGet key) previous :: log₂) key old := by
      obtain ⟨w, x, w', hinv, he⟩ := hans
      obtain ⟨hget, -⟩ := Prod.mk.inj (Option.some.inj he)
      intro old hold
      have hstored := hinv.stored key old (hget.trans hold)
      exact ⟨(hinv.representations key old (hget.trans hold)).mono (List.suffix_cons _ _),
        (hstored.current ((List.suffix_cons _ _).trans hl₂.suffix)).mono (List.suffix_cons _ _)⟩
    simp only [Prog.orReturn_ok]
    cases hf : previous.filter (fun old => (old.freshRequest s.crates.policy request now).isSome) with
    | some old =>
      obtain ⟨hold, hfresh⟩ := Option.filter_eq_some_iff.1 hf
      have hload : loading (own t (.did t (.representationsGet key) previous :: log₂)) =
          some ⟨key, some old, now, own t log⟩ := by
        rw [h₂'.own, ← hold, h.own]
        rfl
      refine hK _ _ _ _ h₂' (.inl rfl) (.fresh old request now hreq hload hfresh (hprev old hold).1) ?_ hbase
      rintro r hr
      obtain rfl := Except.ok.inj hr
      exact ⟨(hprev old hold).1, log₁, some old, now, hbegan, hown.symm ▸ hload, (hprev old hold).2⟩
    | none =>
      -- from here on the thread knows the log since it captured `previous`
      have hb : Knows t (.did t (.representationsGet key) previous :: log₂) task none ledSoFar
          (⟨.representationsGet key, previous⟩ :: ⟨.systemNow, now⟩ :: trace)
          (.did t (.representationsGet key) previous :: log₂) :=
        ⟨List.suffix_refl _, h₂'.own, h₂'.call, h₂'.leads, h₂'.led⟩
      refine wp_loadStale hb rfl (fun old hold => (hprev old hold).1) (hop.mono s hbase) hresume ?_
      intro outcome log' trace' led' h' hled hload hused hcurrent
      have hload' : loading (own t log') = some ⟨key, previous, now, own t log⟩ := by
        rw [h'.own, h.own]
        exact hload
      have hprev' : ∀ old, previous = some old → Held s log' key old := fun old hold => (hprev old hold).1.mono h'.since
      refine Outline.wp_of_good (fun hg => hK _ log' trace' led'
        ⟨h.since.trans (hbase.trans h'.since), h'.own, h'.call, h'.leads, h'.led⟩ hled
        (.used outcome previous now _ hbase hload' hprev' hused) ?_ (hbase.trans h'.since))
      intro r hr
      have hgives : ∀ r, Held s log' key r → Current s log₁ log' key r → Gives s t log' key r := fun r hheld hcur =>
        ⟨hheld, log₁, previous, now, hbegan.trans h'.since, hown.symm ▸ hload', hcur⟩
      rcases resultOrStale_ok hr with hok | ⟨error, -, hold, -⟩
      · exact hgives r (hused.held hg hok)
          ((hcurrent r hok).from_later ((List.suffix_cons _ _).trans hbegan))
      · exact hgives r (hprev' r hold) ((hprev r hold).2.mono h'.since)

end Load

/-! ## Tasks -/

/-- A load of `key` by thread `t` gave `r`. -/
def Given (s : ResolverService P L) (t : Nat) (log : Log P) (key : ResourceKey) (r : Representation P) : Prop :=
  ∃ start log', log' <:+ log ∧ start <:+ log' ∧ Loaded s t start key log' (.ok r) ∧ Gives s t log' key r

theorem Given.mono {t : Nat} {log log' : Log P} {key : ResourceKey} {r : Representation P} (h : Given s t log key r)
    (hl : log <:+ log') : Given s t log' key r := by
  obtain ⟨start, log₀, ho, hload⟩ := h
  exact ⟨start, log₀, ho.trans hl, hload⟩

/-- The keys a resolve call selects from, and the representations given to it. -/
inductive KeysFrom (given : ResourceKey → Representation P → Prop) (request : ResolveRequest)
    (target : DiscoveryTarget) (keys : List ResourceKeyEntry) : Prop where
  | jwks (r) : request.discovery ≠ .cimd → given ⟨target.fetchUrl, .jwks⟩ r → jwksOf r = .ok keys →
      KeysFrom given request target keys
  | inline (metadata cimd) : request.discovery = .cimd → given ⟨target.fetchUrl, .cimd⟩ metadata →
      cimdOf metadata = .ok cimd → cimd.inlineJwks = some keys → KeysFrom given request target keys
  | named (metadata cimd second r) : request.discovery = .cimd → given ⟨target.fetchUrl, .cimd⟩ metadata →
      cimdOf metadata = .ok cimd → cimd.inlineJwks = none → cimd.jwksUri = some second →
      given ⟨second, .jwks⟩ r → jwksOf r = .ok keys → KeysFrom given request target keys

theorem KeysFrom.imp {given given' : ResourceKey → Representation P → Prop} {request : ResolveRequest}
    {target : DiscoveryTarget} {keys : List ResourceKeyEntry} (h : KeysFrom given request target keys)
    (hg : ∀ key r, given key r → given' key r) : KeysFrom given' request target keys := by
  cases h with
  | jwks r hd hr hk => exact .jwks r hd (hg _ _ hr) hk
  | inline metadata cimd hd hm hc hi => exact .inline metadata cimd hd (hg _ _ hm) hc hi
  | named metadata cimd second r hd hm hc hi hu hr hk =>
    exact .named metadata cimd second r hd (hg _ _ hm) hc hi hu (hg _ _ hr) hk

/-- How a resolve call gets at a response, if not by an error. -/
def RespondedBy (s : ResolverService P L) (given : ResourceKey → Representation P → Prop) (request : ResolveRequest)
    (response : ResolveResponse) : Prop :=
  ∃ target, validateRequest s.crates.resource.url request = .ok target ∧
    ((s.allowTestKeys = false ∧ knownTestKey request.keyId = true ∧ response = .keyNotFound target.normalizedIdentifier) ∨
      ∃ keys, KeysFrom given request target keys ∧ response = respond s request target keys)

theorem RespondedBy.imp {given given' : ResourceKey → Representation P → Prop} {request : ResolveRequest}
    {response : ResolveResponse} (h : RespondedBy s given request response)
    (hg : ∀ key r, given key r → given' key r) : RespondedBy s given' request response := by
  obtain ⟨target, hv, htest | ⟨keys, hkeys, hr⟩⟩ := h
  · exact ⟨target, hv, .inl htest⟩
  · exact ⟨target, hv, .inr ⟨keys, hkeys.imp hg, hr⟩⟩

/-- A load of `key` by thread `t` failed. -/
def Failed (s : ResolverService P L) (t : Nat) (log : Log P) (key : ResourceKey) (error : FetchError) : Prop :=
  ∃ start log', log' <:+ log ∧ start <:+ log' ∧ Loaded s t start key log' (.error error)

theorem Failed.mono {t : Nat} {log log' : Log P} {key : ResourceKey} {error : FetchError}
    (h : Failed s t log key error) (hl : log <:+ log') : Failed s t log' key error := by
  obtain ⟨start, log₀, ho, hload⟩ := h
  exact ⟨start, log₀, ho.trans hl, hload⟩

/-- How a resolve call fails. That a resource is not of the kind of its key, or
metadata has no key set and names none, is no way. -/
inductive FailedBy (s : ResolverService P L) (failed : ResourceKey → FetchError → Prop) (request : ResolveRequest)
    (error : FetchError) : Prop where
  | shed : error = .new .overloaded → FailedBy s failed request error
  | invalid : validateRequest s.crates.resource.url request = .error error → FailedBy s failed request error
  | first (target) : validateRequest s.crates.resource.url request = .ok target →
      failed (firstKey request target) error → FailedBy s failed request error
  | second (key) : request.discovery = .cimd → key.kind = .jwks → failed key error → FailedBy s failed request error

theorem FailedBy.imp {failed failed' : ResourceKey → FetchError → Prop} {request : ResolveRequest} {error : FetchError}
    (h : FailedBy s failed request error) (hf : ∀ key error, failed key error → failed' key error) :
    FailedBy s failed' request error := by
  cases h with
  | shed he => exact .shed he
  | invalid hv => exact .invalid hv
  | first target hv he => exact .first target hv (hf _ _ he)
  | second key hd hk he => exact .second key hd hk (hf _ _ he)

/-- The key id is a known test key's, and these are not looked up. -/
def Withheld (s : ResolverService P L) (request : ResolveRequest) : Prop :=
  s.allowTestKeys = false ∧ knownTestKey request.keyId = true

/-- How a resolve call ends. -/
def Concludes (s : ResolverService P L) (t : Nat) (log : Log P) (request : ResolveRequest) :
    Except FetchError ResolveResponse → Prop
  | .ok response => RespondedBy s (Given s t log) request response ∧
      (Withheld s request → ∃ identifier, response = .keyNotFound identifier)
  | .error error => FailedBy s (Failed s t log) request error

theorem Concludes.mono {t : Nat} {log log' : Log P} {request : ResolveRequest}
    {result : Except FetchError ResolveResponse} (h : Concludes s t log request result) (hl : log <:+ log') :
    Concludes s t log' request result := by
  cases result with
  | ok response => exact ⟨RespondedBy.imp h.1 (fun _ _ hg => hg.mono hl), h.2⟩
  | error error => exact FailedBy.imp h (fun _ _ hf => hf.mono hl)

/-- What holds of the result of a task. -/
def Post (s : ResolverService P L) (t : Nat) : Task → Answer P → Log P → Prop
  | .load key, .representation result, log =>
    ∃ start, (.called t (.load key) :: start) <:+ log ∧ Loaded s t (.called t (.load key) :: start) key log result ∧
      ∀ r, result = .ok r → Gives s t log key r
  | .resolve request, .response result, log => Concludes s t log request result
  | .load _, .response _, _ => False
  | .resolve _, .representation _, _ => False

section Body

variable {t : Nat} {log : Log P}

/-- A thread that is called knows only that. -/
theorem Knows.called (task : Task) (hf : ∀ e ∈ log, e.thread ≠ t) :
    Knows t (.called t task :: log) task none [] [] (.called t task :: log) := by
  have hl : Later t [] log := ⟨log, (List.append_nil log).symm, hf⟩
  constructor
  · exact List.suffix_refl _
  · exact hl.own
  · exact if_pos rfl
  · exact (if_pos rfl).trans (Later.leadsFor hl)
  · exact (if_pos rfl).trans (Later.led hl)

theorem wp_loadTask {key : ResourceKey} (hf : ∀ e ∈ log, e.thread ≠ t) :
    (outline s).wp t (Post s t (.load key)) (Task.body s (.load key)) (.called t (.load key) :: log) := by
  refine wp_load (Knows.called (.load key) hf) ⟨rfl, rfl⟩ ⟨rfl, rfl⟩ (fun result log' _ _ h' _ hload hgives _ => ?_)
  refine Outline.wp_ret (fun log'' hl _ => ?_)
  exact ⟨log, h'.since.trans hl.suffix, hload.later hl, fun r hr => (hgives r hr).later hl⟩

variable {request : ResolveRequest} {target : DiscoveryTarget} {task : Task} {start : Log P}
  {lead : Option ResourceKey} {ledSoFar : List ResourceKey} {trace : Trace P}

/-- The end of a resolve call. -/
theorem wp_endTimeout {result : Except FetchError ResolveResponse}
    (h : Knows t start task lead ledSoFar trace log) (hr : Concludes s t log request result) :
    (outline s).wp t (Post s t (.resolve request)) (.op .endTimeout (fun _ => .ret (.response result))) log := by
  refine wp_step h (fun log' hs _ _ => ⟨trivial, fun _ _ _ => Outline.wp_ret (fun log'' hl _ => ?_)⟩)
  exact hr.mono (hs.suffix.trans ((List.suffix_cons _ _).trans hl.suffix))

theorem wp_loadedKeys {keys : List ResourceKeyEntry} (h : Knows t start task lead ledSoFar trace log)
    (hv : validateRequest s.crates.resource.url request = .ok target) (hw : ¬ Withheld s request)
    (hkeys : KeysFrom (Given s t log) request target keys) :
    (outline s).wp t (Post s t (.resolve request)) (concluded s request target (.ret (.ok keys))) log :=
  wp_endTimeout h ⟨⟨target, hv, .inr ⟨keys, hkeys, rfl⟩⟩, fun h => absurd h hw⟩

theorem wp_noKeys {error : FetchError} (h : Knows t start task lead ledSoFar trace log)
    (hf : FailedBy s (Failed s t log) request error) :
    (outline s).wp t (Post s t (.resolve request)) (concluded s request target (.ret (.error error))) log :=
  wp_endTimeout h hf

theorem resolved_concluded (keys : Fallible P (List ResourceKeyEntry)) :
    ((keys >>= fun keys => pure (respond s request target keys)).run >>= fun result =>
        Prog.op .endTimeout (fun _ => .ret result)) >>= (fun result => .ret (.response result)) =
      concluded s request target keys.run := by
  simp only [concluded, Prog.run_bind, Prog.bind_assoc]
  congr 1
  funext r
  cases r <;> rfl

/-- The load of a key set, as the last of a resolve call. -/
theorem concluded_jwks (key : ResourceKey) :
    concluded s request target ((load s key).run >>= fun r => Prog.orReturn r (fun jwks => .ret (jwksOf jwks))) =
      (load s key).run >>= fun r => concluded s request target (.ret (r.bind jwksOf)) := by
  rw [concluded, Prog.bind_assoc]
  congr 1
  funext r
  cases r <;> rfl

/-- The load of metadata, as the first of a resolve call. -/
theorem concluded_cimd (key : ResourceKey) :
    concluded s request target ((load s key).run >>= fun r => Prog.orReturn r (fun metadata =>
        Prog.orReturn (cimdOf metadata) (fun cimd => (cimdKeys s cimd).run))) =
      (load s key).run >>= fun r => concluded s request target
        (Prog.orReturn (r.bind cimdOf) (fun cimd => (cimdKeys s cimd).run)) := by
  rw [concluded, Prog.bind_assoc]
  congr 1
  funext r
  cases r <;> rfl

/-- What is loaded for a key is of its kind. -/
theorem Sourced.kind {key : ResourceKey} {resource : ParsedResource} (h : Sourced s log key resource) :
    (key.kind = .jwks ∧ ∃ keys, resource = .jwks keys) ∨ (key.kind = .cimd ∧ ∃ cimd, resource = .cimd cimd) := by
  obtain ⟨_, _, _, -, -, -, -, hp⟩ := h
  exact parseResource_kind s.crates.resource hp

theorem Gives.jwksOf {url : Url} {r : Representation P} (h : Gives s t log ⟨url, .jwks⟩ r) :
    ∃ keys, jwksOf r = .ok keys := by
  rcases h.held.sourced.kind with ⟨-, keys, hr⟩ | ⟨hk, -⟩
  · refine ⟨keys, ?_⟩
    rw [Resolver.jwksOf, hr]
  · cases hk

theorem Gives.cimdOf {url : Url} {r : Representation P} (h : Gives s t log ⟨url, .cimd⟩ r) :
    ∃ cimd, r.resource = .cimd cimd ∧ cimdOf r = .ok cimd := by
  rcases h.held.sourced.kind with ⟨hk, -⟩ | ⟨-, cimd, hr⟩
  · cases hk
  · refine ⟨cimd, hr, ?_⟩
    rw [Resolver.cimdOf, hr]

/-- The load of a key set, as the last of a resolve call. -/
theorem wp_jwks {url : Url} (h : Knows t start (.resolve request) none ledSoFar trace log)
    (hop : Hop s (.resolve request) ledSoFar ⟨url, .jwks⟩ log)
    (hv : validateRequest s.crates.resource.url request = .ok target) (hw : ¬ Withheld s request)
    (hkeys : ∀ log' r keys, log <:+ log' → Given s t log' ⟨url, .jwks⟩ r → jwksOf r = .ok keys →
      KeysFrom (Given s t log') request target keys)
    (hfail : ∀ log' error, log <:+ log' → Failed s t log' ⟨url, .jwks⟩ error →
      FailedBy s (Failed s t log') request error) :
    (outline s).wp t (Post s t (.resolve request))
      (concluded s request target ((load s ⟨url, .jwks⟩).run >>= fun r =>
        Prog.orReturn r (fun jwks => .ret (jwksOf jwks)))) log := by
  rw [concluded_jwks]
  refine wp_load h hop ⟨target, hv, .inl ⟨rfl, rfl⟩⟩ ?_
  intro result log' trace' led' h' _ hload hgives hsince
  cases result with
  | error error =>
    exact wp_noKeys h' (hfail log' error hsince ⟨log, log', List.suffix_refl _, hsince, hload⟩)
  | ok r =>
    obtain ⟨keys, hk⟩ := (hgives r rfl).jwksOf
    simp only [Except.bind, hk]
    exact wp_loadedKeys h' hv hw (hkeys log' r keys hsince ⟨log, log', List.suffix_refl _, hsince, hload, hgives r rfl⟩ hk)

/-- The second document of a resolve call, which the first one names. -/
theorem wp_cimdKeys {metadata : Representation P} {cimd : CimdResource}
    (h : Knows t start (.resolve request) none ledSoFar trace log)
    (hv : validateRequest s.crates.resource.url request = .ok target) (hw : ¬ Withheld s request)
    (hd : request.discovery = .cimd) (hg : Given s t log ⟨target.fetchUrl, .cimd⟩ metadata) (hc : cimdOf metadata = .ok cimd)
    (hs : Sourced s log ⟨target.fetchUrl, .cimd⟩ (.cimd cimd))
    (hled : ledSoFar.Sublist [firstKey request target]) :
    (outline s).wp t (Post s t (.resolve request)) (concluded s request target (cimdKeys s cimd).run) log := by
  have hkeys : cimd.inlineJwks.isSome ∨ cimd.jwksUri.isSome := by
    obtain ⟨_, _, _, -, -, -, -, hp⟩ := hs
    exact parseResource_keys s.crates.resource hp
  unfold cimdKeys
  cases hi : cimd.inlineJwks with
  | some keys => exact wp_loadedKeys h hv hw (.inline metadata cimd hd hg hc hi)
  | none =>
    simp only [Prog.run_bind, Prog.run_check, Prog.ret_bind]
    cases hu : cimd.jwksUri with
    | none =>
      rw [hi, hu] at hkeys
      exact absurd hkeys (by decide)
    | some second =>
      simp only [okOr, Prog.orReturn_ok]
      refine wp_jwks h ⟨target, hv, .inr ⟨hd, rfl, ⟨cimd, hs, hu⟩, hled⟩⟩ hv hw ?_ ?_
      · intro log' r keys hsince hr hk
        exact .named metadata cimd second r hd (hg.mono hsince) hc hi hu hr hk
      · intro log' error _ hf
        exact .second ⟨second, .jwks⟩ hd rfl hf

theorem wp_loadKeys (h : Knows t start (.resolve request) none [] trace log)
    (hv : validateRequest s.crates.resource.url request = .ok target) (hw : ¬ Withheld s request) :
    (outline s).wp t (Post s t (.resolve request))
      (concluded s request target (loadKeys s request.discovery target.fetchUrl).run) log := by
  -- one document, unless discovery is by metadata
  have hone : request.discovery ≠ .cimd → (outline s).wp t (Post s t (.resolve request))
      (concluded s request target ((load s ⟨target.fetchUrl, .jwks⟩).run >>= fun r =>
        Prog.orReturn r (fun jwks => .ret (jwksOf jwks)))) log := by
    intro hd
    have hfirst : firstKey request target = ⟨target.fetchUrl, .jwks⟩ := by rw [firstKey, if_neg hd]
    refine wp_jwks h ⟨target, hv, .inl ⟨hfirst.symm, rfl⟩⟩ hv hw ?_ ?_
    · intro log' r keys _ hr hk
      exact .jwks r hd hr hk
    · intro log' error _ hf
      exact .first target hv (hfirst ▸ hf)
  unfold loadKeys
  cases hd : request.discovery with
  | directory =>
    simp only [Prog.run_bind, Prog.run_check]
    exact hone (by rw [hd]; decide)
  | jwksUri =>
    simp only [Prog.run_bind, Prog.run_check]
    exact hone (by rw [hd]; decide)
  | cimd =>
    have hfirst : firstKey request target = ⟨target.fetchUrl, .cimd⟩ := by rw [firstKey, if_pos hd]
    simp only [Prog.run_bind, Prog.run_check, Prog.ret_bind]
    rw [concluded_cimd]
    refine wp_load h ⟨target, hv, .inl ⟨hfirst.symm, rfl⟩⟩ ⟨target, hv, .inr ⟨rfl, rfl⟩⟩ ?_
    intro result log' trace' led' h' hled hload hgives hsince
    cases result with
    | error error =>
      have hf : Failed s t log' ⟨target.fetchUrl, .cimd⟩ error := ⟨log, log', List.suffix_refl _, hsince, hload⟩
      exact wp_noKeys h' (.first target hv (hfirst ▸ hf))
    | ok metadata =>
      obtain ⟨cimd, hres, hc⟩ := (hgives metadata rfl).cimdOf
      have hs := (hgives metadata rfl).held.sourced
      rw [hres] at hs
      have hg : Given s t log' ⟨target.fetchUrl, .cimd⟩ metadata :=
        ⟨log, log', List.suffix_refl _, hsince, hload, hgives metadata rfl⟩
      simp only [Except.bind, hc]
      refine wp_cimdKeys h' hv hw hd hg hc hs ?_
      rcases hled with rfl | rfl
      · exact List.nil_sublist _
      · rw [hfirst]

theorem wp_resolveTask (hf : ∀ e ∈ log, e.thread ≠ t) :
    (outline s).wp t (Post s t (.resolve request)) (Task.body s (.resolve request))
      (.called t (.resolve request) :: log) := by
  simp only [Task.body, Resolver.resolve, resolveInner, Prog.run_bind, Prog.run_check, Prog.call_bind, Prog.op_bind,
    Prog.ret_bind, ExceptT.run_mk]
  refine wp_step (Knows.called (.resolve request) hf) (fun log₁ _ _ _ => ⟨trivial, fun answer hans h₁ => ?_⟩)
  cases answer with
  | error error =>
    have hshed : error = .new .overloaded := by
      obtain ⟨w, x, w', -, he⟩ := hans
      simp only [ResolverService.system, World.exec] at he
      split at he
      · exact (Except.error.inj (Prod.mk.inj (Option.some.inj he)).1).symm
      · cases he
    exact Outline.wp_ret (fun _ _ _ => .shed hshed)
  | ok u =>
    refine wp_step h₁ (fun log₂ _ _ _ => ⟨trivial, fun _ _ h₂ => ?_⟩)
    cases hv : validateRequest s.crates.resource.url request with
    | error error => exact wp_endTimeout h₂ (.invalid hv)
    | ok target =>
      simp only [Prog.orReturn_ok]
      split
      · rename_i htest
        rw [Bool.and_eq_true, Bool.not_eq_true'] at htest
        exact wp_endTimeout h₂ ⟨⟨target, hv, .inl ⟨htest.1, htest.2, rfl⟩⟩, fun _ => ⟨_, rfl⟩⟩
      · rename_i hallowed
        have hw : ¬ Withheld s request := by
          rintro ⟨hoff, htest⟩
          exact hallowed (by rw [hoff, htest]; rfl)
        have hkeys := wp_loadKeys h₂ hv hw
        rw [← resolved_concluded] at hkeys
        exact hkeys

end Body

/-! ## The machine -/

/-- What holds in every state of every run. -/
theorem Reached.holds {state : ResolverState P L} (h : Reached s state) : (outline s).Holds (Post s) state := by
  obtain ⟨wall, instant, h⟩ := h
  refine (outline_sound (fun t task log hf => ?_)).run h
  cases task with
  | load key => exact wp_loadTask hf
  | resolve request => exact wp_resolveTask hf

/-- A call that waits at its fetch leads for the key of the fetch. -/
theorem leads_of_fetch {t : Nat} {task : Task} {fetch : FetchRequest}
    {k : Except FetchError FetchResponse → Calls P (Answer P)} {state : ResolverState P L} (h : Reached s state)
    (ht : state.threads t = some (task, .op (.fetch fetch) k)) :
    leadsFor t state.log = some ⟨fetch.url, fetch.kind⟩ := by
  obtain ⟨key, request, previous, now, hf⟩ := h.holds.pre ht
  obtain ⟨_, _, _, _, -, hdest, -⟩ := hf.calls
  rw [hdest.url, hdest.kind]
  exact hf.leads

/-! ## A sample resolver -/

/-- A policy that knows the `max-age` of a response and when it came. -/
structure SamplePolicy where
  headers : Headers
  receivedAt : SystemTime
  maxAge : Duration
  deriving DecidableEq

def sampleMaxAge (headers : Headers) : Duration :=
  fromSecs (((cacheDirectives headers).findSome? (fun directive =>
    (splitOnce '=' (trimAscii directive)).bind (fun d => if isNamed "max-age" d.1 then parseU64 d.2 else none))).getD 0)

def SamplePolicy.of (response : ResponseMeta) (now : SystemTime) : SamplePolicy :=
  ⟨response.headers, now, sampleMaxAge response.headers⟩

def samplePolicy : CachePolicy SamplePolicy where
  newOptions _ response now := .of response now
  isStorable policy := !(cacheDirectives policy.headers).any (fun d => isNamed "no-store" (trimAscii d))
  timeToLive policy now := policy.maxAge - (now - policy.receivedAt)
  beforeRequest policy request now :=
    if now - policy.receivedAt < policy.maxAge then
      .fresh (policy.headers.set "age" (headerValue (toString ((now - policy.receivedAt) / fromSecs 1))))
    else .stale (request.headers ++ (policy.headers.getAll "etag").map (fun tag => ("if-none-match", tag)))
  afterResponse policy _ response now :=
    if response.status = notModifiedStatus then .notModified (.of response now) else .modified policy

def sampleBody : Bytes := headerValue "\x7b\"keys\":[]\x7d"

def sampleService : ResolverService SamplePolicy Unit where
  crates :=
    { resource :=
        { url := sampleUrls
          digest := ⟨id, fun _ => "", fun _ => none⟩
          jwksFromSlice := fun body => if body = sampleBody then some ⟨[]⟩ else none
          cimdFromSlice := fun _ => none }
      policy := samplePolicy
      uriValid := fun _ => true
      parseHttpDate := fun _ => false }
  governor := ⟨fun _ _ => (), fun _ _ => (true, ())⟩
  destinationPolicy := ⟨{443}, by decide, by decide, by decide⟩
  limits := .standard
  allowTestKeys := false
  valid := by decide

def sampleKey : ResourceKey := ⟨sampleUrl ['k'], .jwks⟩

/-- The first fetch of the sample key. -/
def sampleDestination : FetchRequest :=
  ⟨sampleKey.url, .jwks, [("accept", headerValue "application/jwk-set+json, application/json"),
    ("accept-encoding", headerValue "identity")], .v4 0x08080808#32⟩

def sampleResponse (status : Nat) (cacheControl : String) : FetchResponse :=
  ⟨status, [("content-type", headerValue "application/json"), ("cache-control", headerValue cacheControl)], sampleBody⟩

abbrev SampleAction := Action Task Outside Env

def turns (t n : Nat) : List SampleAction := List.replicate n (.turn t .silent)

/-- Thread `t` loads the sample key and leads after `looks` calls; its fetch,
before which it makes `asks` calls from the DNS answer on, is answered so. -/
def sampleFetch (t looks asks : Nat) (response : Except FetchError FetchResponse) : List SampleAction :=
  .call t (.load sampleKey) :: turns t (looks + 2) ++ [.turn t (.addresses (.ok [.v4 0x08080808#32]))] ++
    turns t asks ++ [.turn t (.response response)]

def sampleRun (actions : List SampleAction) : Option (ResolverState SamplePolicy Unit) :=
  sampleService.system.run (System.start (World.start sampleService 0 0)) actions

theorem sampleRun_reached {actions : List SampleAction} {state : ResolverState SamplePolicy Unit}
    (h : sampleRun actions = some state) : Reached sampleService state :=
  ⟨0, 0, System.Reachable.start.run _ actions h⟩

def fetchOf : Entry (Op P) Ans Task (Answer P) → Option (Nat × FetchRequest × Except FetchError FetchResponse)
  | .did t (.fetch fetch) answer => some (t, fetch, answer)
  | _ => none

/-- A run that ends with a fetch. -/
theorem sampleRun_fetch {actions : List SampleAction} {t : Nat} {fetch : FetchRequest}
    {answer : Except FetchError FetchResponse}
    (h : (sampleRun actions).bind (fun state => state.log.head?.bind fetchOf) = some (t, fetch, answer)) :
    ∃ state older, sampleRun actions = some state ∧ state.log = .did t (.fetch fetch) answer :: older := by
  obtain ⟨state, e, older, hrun, hl, hf⟩ := sampleService.system.run_head h
  unfold fetchOf at hf
  split at hf
  · simp only [Option.some.injEq, Prod.mk.injEq] at hf
    obtain ⟨rfl, rfl, rfl⟩ := hf
    exact ⟨state, older, hrun, hl⟩
  · cases hf

end EnvoyWebBotAuth.Resolver
