import EnvoyWebBotAuth.Resolver.Outline
/-!
# Walking through the programs

Every task keeps to the outline. Each lemma walks through one program with any
continuation `K`: before it is what the thread knows (`Knows`), and `hK` says
that `K` goes on well from what the program leaves.
-/
open EnvoyWebBotAuth.Lib EnvoyWebBotAuth.Protocol

namespace EnvoyWebBotAuth.Resolver

variable {P L : Type} {s : ResolverService P L}

/-- What thread `t` knows of the log since `start`. -/
structure Knows (t : Nat) (start : Log P) (task : Task) (lead : Option ResourceKey)
    (ledSoFar : List ResourceKey) (trace : Trace P) (log : Log P) : Prop where
  since : start <:+ log
  own : own t log = trace
  call : callOf t log = some task
  leads : leadsFor t log = lead
  led : led t log = ledSoFar

section Knows

variable {t : Nat} {start : Log P} {task : Task} {lead : Option ResourceKey} {ledSoFar : List ResourceKey}
  {trace : Trace P} {log log' : Log P}

theorem Knows.later (h : Knows t start task lead ledSoFar trace log) (hl : Later t log log') :
    Knows t start task lead ledSoFar trace log' where
  since := h.since.trans hl.suffix
  own := hl.own.trans h.own
  call := hl.callOf.trans h.call
  leads := (Later.leadsFor hl).trans h.leads
  led := (Later.led hl).trans h.led

theorem Knows.did (h : Knows t start task lead ledSoFar trace log) (o : Op P) (a : Ans o) :
    Knows t start task ((leadChange (.did t o a)).getD lead) ((leadChange (.did t o a)).join.toList ++ ledSoFar)
      (⟨o, a⟩ :: trace) (.did t o a :: log) where
  since := h.since.trans (List.suffix_cons _ _)
  own := by rw [own_did, h.own]
  call := h.call
  leads := by rw [leadsFor_did, h.leads]
  led := by rw [led_did, h.led]

/-- The rule for a call. -/
theorem wp_step {Q : Answer P → Log P → Prop} {o : Op P} {k : Ans o → Calls P (Answer P)}
    (h : Knows t start task lead ledSoFar trace log)
    (hk : ∀ log', Later t log log' → (outline s).Good log' → Knows t start task lead ledSoFar trace log' →
      Pre s t o k log' ∧ ∀ a, (outline s).Answered t o a log' →
        Knows t start task ((leadChange (.did t o a)).getD lead) ((leadChange (.did t o a)).join.toList ++ ledSoFar)
          (⟨o, a⟩ :: trace) (.did t o a :: log') →
        (outline s).wp t Q (k a) (.did t o a :: log')) :
    (outline s).wp t Q (.op o k) log := by
  refine Outline.wp_op (fun log' hl hg => ?_)
  obtain ⟨hpre, ha⟩ := hk log' hl hg (h.later hl)
  exact ⟨hpre, fun a hans => ha a hans ((h.later hl).did o a)⟩

end Knows

/-! ## Landing -/

/-- While a thread leads for the key, nobody else publishes for it. -/
theorem Latest.later {t : Nat} {key : ResourceKey} {r : Representation P} {log log' : Log P} (h : Latest s log key r)
    (hl : Later t log log') (hg : (outline s).Good log') (hlead : leadsFor t log = some key) : Latest s log' key r := by
  obtain ⟨more, rfl, hm⟩ := hl
  induction more with
  | nil => exact h
  | cons e more ih =>
    have hm' : ∀ e ∈ more, e.thread ≠ t := fun e' he' => hm e' (List.mem_cons_of_mem e he')
    have hg' : (outline s).Good (more ++ log) := hg.suffix (List.suffix_cons e _)
    have hlead' : leadsFor t (more ++ log) = some key := (Later.leadsFor ⟨more, rfl, hm'⟩).trans hlead
    refine (ih hm' hg').cons (fun he => ?_)
    -- whoever publishes leads for the key, and so does `t`
    have hsame : ∀ t' o a, e = .did t' o a → leadsFor t' (more ++ log) = some key → False := by
      rintro t' o a rfl hlead''
      obtain ⟨-, ⟨w, _, _, hinv, -⟩, -⟩ := hg
      have ht := (hinv.leaders t' key hlead'').symm.trans (hinv.leaders t key hlead')
      exact hm _ List.mem_cons_self (Option.some.inj ht)
    cases e with
    | did t' o a =>
      obtain ⟨⟨k, hpre⟩, -, -⟩ := hg
      cases o with
      | representationsInsert key' r' =>
        obtain rfl := Option.some.inj he
        exact hsame t' _ a rfl hpre.1.leads
      | representationsInvalidate key' =>
        obtain rfl := Option.some.inj he
        obtain ⟨r', hpub⟩ := hpre
        exact hsame t' _ a rfl hpub.leads
      | _ => cases he
    | called => cases he
    | returned => cases he
    | dropped => cases he

/-- The result of a refresh comes of a fetch and was published last. -/
def Settled (s : ResolverService P L) (log : Log P) (key : ResourceKey)
    (result : Except FetchError (Representation P)) : Prop :=
  ∀ r, result = .ok r → Held s log key r ∧ Latest s log key r

theorem Settled.error (log : Log P) (key : ResourceKey) (error : FetchError) : Settled s log key (.error error) := by
  rintro r ⟨⟩

theorem Settled.later {t : Nat} {key : ResourceKey} {result : Except FetchError (Representation P)} {log log' : Log P}
    (h : Settled s log key result) (hl : Later t log log') (hg : (outline s).Good log')
    (hlead : leadsFor t log = some key) : Settled s log' key result := by
  intro r hr
  obtain ⟨hheld, hlatest⟩ := h r hr
  exact ⟨hheld.mono hl.suffix, hlatest.later hl hg hlead⟩

theorem Settled.did {t : Nat} {key : ResourceKey} {result : Except FetchError (Representation P)} {log : Log P}
    (h : Settled s log key result) {o : Op P} {a : Ans o}
    (he : publishedKey (.did t o a : Entry (Op P) Ans Task (Answer P)) ≠ some key) :
    Settled s (.did t o a :: log) key result := by
  intro r hr
  obtain ⟨hheld, hlatest⟩ := h r hr
  exact ⟨hheld.mono (List.suffix_cons _ _), hlatest.cons he⟩

/-- A landed refresh, and the load that led it. -/
def landAnd (s : ResolverService P L) (key : ResourceKey) (previous : Option (Representation P)) (now : SystemTime)
    (K : Except FetchError (Representation P) → Calls P (Answer P)) (result : Except FetchError (Representation P)) :
    Calls P (Answer P) :=
  refreshOutcome s key result >>= fun outcome =>
    .op (.initDone key outcome) (fun _ => K (resultOrStale outcome.result previous now))

section Refresh

variable {t : Nat} {start : Log P} {task : Task} {ledSoFar : List ResourceKey} {trace : Trace P} {log : Log P}
  {Q : Answer P → Log P → Prop} {K : Except FetchError (Representation P) → Calls P (Answer P)}
  {key : ResourceKey} {previous : Option (Representation P)} {now : SystemTime} {began : Trace P}

/-- What a load that led makes of the outcome it landed is fine. -/
def GoesOn (s : ResolverService P L) (t : Nat) (start : Log P) (task : Task) (ledSoFar : List ResourceKey)
    (Q : Answer P → Log P → Prop) (K : Except FetchError (Representation P) → Calls P (Answer P))
    (key : ResourceKey) (previous : Option (Representation P)) (now : SystemTime) (began : Trace P) : Prop :=
  ∀ outcome log trace, Knows t start task none ledSoFar trace log → loading trace = some ⟨key, previous, now, began⟩ →
    LandedSince start log key outcome → (outline s).wp t Q (K (resultOrStale outcome.result previous now)) log

theorem wp_initDone {outcome : RefreshOutcome P} (h : Knows t start task (some key) ledSoFar trace log)
    (hl : loading trace = some ⟨key, previous, now, began⟩)
    (hK : GoesOn s t start task ledSoFar Q K key previous now began) (hres : Settled s log key outcome.result)
    (hvalid : ∀ r, outcome.result = .ok r →
      ∃ instant, .did t .instantNow instant ∈ log ∧ outcome.validUntil = instant + successTtl s r) :
    (outline s).wp t Q
      (.op (.initDone key outcome) (fun _ => K (resultOrStale outcome.result previous now))) log := by
  refine wp_step h (fun log' hs hg h' => ⟨⟨h'.leads, fun r hr => ?_, fun r hr => ?_⟩, fun a _ h'' => ?_⟩)
  · obtain ⟨instant, hm, hv⟩ := hvalid r hr
    exact ⟨(hres r hr).1.mono hs.suffix, instant, hs.suffix.subset hm, hv⟩
  · exact (hres.later hs hg h.leads r hr).2
  · exact hK outcome _ _ h'' hl ⟨t, log', List.suffix_refl _, h'.since⟩

theorem wp_landAnd {result : Except FetchError (Representation P)}
    (h : Knows t start task (some key) ledSoFar trace log) (hl : loading trace = some ⟨key, previous, now, began⟩)
    (hK : GoesOn s t start task ledSoFar Q K key previous now began) (hres : Settled s log key result) :
    (outline s).wp t Q (landAnd s key previous now K result) log := by
  -- the clock is read last, for whatever time the outcome is good for
  have hread : ∀ (valid : Duration) (log : Log P) (trace : Trace P), Knows t start task (some key) ledSoFar trace log →
      loading trace = some ⟨key, previous, now, began⟩ → Settled s log key result →
      (∀ r, result = .ok r → valid = successTtl s r) →
      (outline s).wp t Q (.op .instantNow (fun instant => .op (.initDone key ⟨result, instant + valid⟩)
        (fun _ => K (resultOrStale result previous now)))) log := by
    intro valid log trace h hl hres hvalid
    refine wp_step h (fun log' hs hg h' => ⟨trivial, fun instant _ h'' => ?_⟩)
    refine wp_initDone h'' hl hK ((hres.later hs hg h.leads).did nofun) (fun r hr => ?_)
    exact ⟨instant, List.mem_cons_self, by rw [hvalid r hr]⟩
  unfold landAnd refreshOutcome validFor
  cases result with
  | ok r =>
    refine wp_step h (fun log' hs hg h' => ⟨trivial, fun a _ h'' => ?_⟩)
    refine hread _ _ _ h'' hl ((hres.later hs hg h.leads).did nofun) (fun r' hr => ?_)
    obtain rfl := Except.ok.inj hr
    rfl
  | error error =>
    have hread' : ∀ valid log trace, Knows t start task (some key) ledSoFar trace log →
        loading trace = some ⟨key, previous, now, began⟩ → _ := fun valid log trace h hl =>
      hread valid log trace h hl (.error log key error) nofun
    cases hc : error.class with
    | transient =>
      simp only [hc]
      exact wp_step h (fun log' _ _ h' => ⟨trivial, fun a _ h'' => hread' _ _ _ h'' hl⟩)
    | circuitOpen =>
      simp only [hc]
      exact wp_step h (fun log' _ _ h' => ⟨trivial, fun a _ h'' => hread' _ _ _ h'' hl⟩)
    | permanent =>
      simp only [hc]
      exact hread' _ _ _ h hl
    | loadShed =>
      simp only [hc]
      exact hread' _ _ _ h hl

/-- The permit is dropped, then the refresh is landed. -/
def dropAnd (s : ResolverService P L) (key : ResourceKey) (previous : Option (Representation P)) (now : SystemTime)
    (K : Except FetchError (Representation P) → Calls P (Answer P)) (result : Except FetchError (Representation P)) :
    Calls P (Answer P) :=
  .op .dropPermit (fun _ => landAnd s key previous now K result)

theorem wp_dropAnd {result : Except FetchError (Representation P)}
    (h : Knows t start task (some key) ledSoFar trace log) (hl : loading trace = some ⟨key, previous, now, began⟩)
    (hK : GoesOn s t start task ledSoFar Q K key previous now began) (hres : Settled s log key result) :
    (outline s).wp t Q (dropAnd s key previous now K result) log := by
  refine wp_step h (fun log' hs hg h' => ⟨trivial, fun a _ h'' => wp_landAnd h'' hl hK ?_⟩)
  exact (hres.later hs hg h.leads).did nofun

/-- A refresh that failed. -/
theorem wp_dropError {error : FetchError} (h : Knows t start task (some key) ledSoFar trace log)
    (hl : loading trace = some ⟨key, previous, now, began⟩)
    (hK : GoesOn s t start task ledSoFar Q K key previous now began) :
    (outline s).wp t Q (dropAnd s key previous now K (.error error)) log :=
  wp_dropAnd h hl hK (.error log key error)

/-! ## The fetch -/

theorem afterFetch_bind (request : Request) (response : Except FetchError FetchResponse) :
    afterFetch s key request previous now response >>= K =
      (settleFetch s key request previous response).run >>= dropAnd s key previous now K := by
  simp only [afterFetch, Prog.bind_assoc]
  rfl

theorem wp_settleFetch {request : Request} {fetch : FetchRequest} {response : Except FetchError FetchResponse}
    (h : Knows t start task (some key) ledSoFar (⟨.fetch fetch, response⟩ :: trace) log)
    (hl : loading trace = some ⟨key, previous, now, began⟩) (hreq : cacheRequest s.crates key = .ok request)
    (hu : fetch.url = key.url) (hk : fetch.kind = key.kind)
    (hprev : ∀ old, previous = some old → Held s start key old)
    (hK : GoesOn s t start task ledSoFar Q K key previous now began) :
    (outline s).wp t Q ((settleFetch s key request previous response).run >>= dropAnd s key previous now K) log := by
  have hcap : captured trace = previous := by rw [captured, hl, Option.bind_some]
  obtain ⟨url, kind, headers, ip⟩ := fetch
  obtain rfl : url = key.url := hu
  obtain rfl : kind = key.kind := hk
  simp only [settleFetch, publish, Prog.run_bind, Prog.run_check, Prog.run_ask, Prog.run_pure, Prog.ret_bind,
    Prog.op_bind]
  cases response with
  | error error => exact wp_dropError h hl hK
  | ok response =>
    refine wp_step h (fun log₁ hs₁ _ h₁ => ⟨trivial, fun stored _ h₁' => ?_⟩)
    simp only [Prog.orReturn_ok]
    cases hr : representationFromResponse s.crates key request previous response s.limits.maxKeys stored with
    | error error => exact wp_dropError h₁' hl hK
    | ok r =>
      have hmade : Made s (own t (.did t .systemNow stored :: log₁)) key response r :=
        ⟨stored, headers, ip, request, trace, h₁'.own, hreq, hcap.symm ▸ hr⟩
      have hheld : Held s (.did t .systemNow stored :: log₁) key r :=
        Held.of_response h₁'.own hreq
          (fun old hold => (hprev old (hcap ▸ hold)).mono h₁'.since) (hcap.symm ▸ hr)
      have hpub : ∀ log₂, Later t (.did t .systemNow stored :: log₁) log₂ →
          leadsFor t log₂ = some key → Publishing s t key r log₂ := fun log₂ hs₂ hlead =>
        ⟨hlead, response, hs₂.own.symm ▸ hmade⟩
      -- the representation is stored or the key is cleared, then the result is the same
      have hdone : ∀ (e : Entry (Op P) Ans Task (Answer P)) log₂, Later t (.did t .systemNow stored :: log₁) log₂ →
          Publication s (e :: log₂) key r → Settled s (e :: log₂) key (.ok r) := by
        intro e log₂ hs₂ hq r' hr'
        obtain rfl := Except.ok.inj hr'
        exact ⟨hheld.mono (hs₂.suffix.trans (List.suffix_cons _ _)), hq.latest⟩
      simp only [Prog.orReturn_ok]
      split
      · refine wp_step h₁' (fun log₂ hs₂ _ h₂ => ⟨⟨hpub log₂ hs₂ h₂.leads, hheld.mono hs₂.suffix⟩, fun _ _ h₂' => ?_⟩)
        exact wp_dropAnd h₂' hl hK (hdone _ log₂ hs₂ ⟨t, log₂, response, hs₂.own.symm ▸ hmade, .inl rfl⟩)
      · refine wp_step h₁' (fun log₂ hs₂ _ h₂ => ⟨⟨r, hpub log₂ hs₂ h₂.leads⟩, fun _ _ h₂' => ?_⟩)
        exact wp_dropAnd h₂' hl hK (hdone _ log₂ hs₂ ⟨t, log₂, response, hs₂.own.symm ▸ hmade, .inr rfl⟩)

theorem wp_fetch (asked : Trace P) {request : Request} {fetch : FetchRequest} {before : Trace P}
    (h : Knows t start task (some key) ledSoFar (asked ++ trace) log)
    (hreq : cacheRequest s.crates key = .ok request) (hdest : Destination s fetch key before trace)
    (hfrom : HeadersFrom s request previous fetch.headers asked)
    (hl : loading before = some ⟨key, previous, now, began⟩)
    (hl' : loading (asked ++ trace) = some ⟨key, previous, now, began⟩)
    (hprev : ∀ old, previous = some old → Held s start key old) (hresume : Resumes s task key K)
    (hK : GoesOn s t start task ledSoFar Q K key previous now began) :
    (outline s).wp t Q (.op (.fetch fetch) (fun response =>
      (settleFetch s key request previous response).run >>= dropAnd s key previous now K)) log := by
  refine wp_step h (fun log' _ _ h' => ⟨⟨key, request, previous, now, ?_⟩, fun response _ h'' => ?_⟩)
  · exact
      { leads := h'.leads
        requested := hreq
        calls := ⟨asked, trace, before, began, h'.own, hdest, hfrom, hl⟩
        held := fun old hold => (hprev old hold).mono h'.since
        rest := ⟨task, K, h'.call, hresume, funext (fun response => (afterFetch_bind request response).symm)⟩ }
  · exact wp_settleFetch h'' hl' hreq hdest.url hdest.kind hprev hK

theorem wp_refreshPermitted {host : String} {port : UInt16} {origin : String}
    (h : Knows t start task (some key) ledSoFar (⟨.beginFetch origin, .ok ()⟩ :: ⟨.checkCircuit key, .ok ()⟩ :: trace) log)
    (hl : loading trace = some ⟨key, previous, now, began⟩)
    (hsafe : SafeUrl s.crates.resource.url s.destinationPolicy key.url) (hhost : key.url.host = some host)
    (hport : s.crates.resource.url.portOrKnownDefault key.url = some port)
    (hprev : ∀ old, previous = some old → Held s start key old) (hresume : Resumes s task key K)
    (hK : GoesOn s t start task ledSoFar Q K key previous now began) :
    (outline s).wp t Q ((refreshPermitted s key previous host port).run >>= dropAnd s key previous now K) log := by
  simp only [refreshPermitted, Prog.run_bind, Prog.run_check, Prog.run_ask, Prog.ret_bind, Prog.op_bind,
    Prog.call_bind, ExceptT.run_mk]
  refine wp_step h (fun log₁ _ _ h₁ => ⟨⟨key, h₁.leads, hhost⟩, fun answer _ h₁ => ?_⟩)
  cases answer with
  | error error => exact wp_dropError h₁ hl hK
  | ok addresses =>
    simp only [Prog.orReturn_ok]
    cases hval : validateAllAddresses addresses with
    | error error => exact wp_dropError h₁ hl hK
    | ok unique =>
      obtain ⟨hsub, hglobal⟩ := validateAllAddresses_ok hval
      refine wp_step h₁ (fun log₂ _ _ _ => ⟨trivial, fun answer _ h₂ => ?_⟩)
      cases answer with
      | error error => exact wp_dropError h₂ hl hK
      | ok u =>
        simp only [Prog.orReturn_ok]
        cases hreq : cacheRequest s.crates key with
        | error error => exact wp_dropError h₂ hl hK
        | ok request =>
          have hdest : ∀ headers, Destination s ⟨key.url, key.kind, headers, unique.val.head unique.property⟩ key trace
              (⟨.checkIp (unique.val.head unique.property), .ok ()⟩ :: ⟨.resolveHost host port, .ok addresses⟩ ::
                ⟨.beginFetch origin, .ok ()⟩ :: ⟨.checkCircuit key, .ok ()⟩ :: trace) := fun headers =>
            { url := rfl
              kind := rfl
              safe := hsafe
              calls := ⟨host, port, addresses, origin, hhost, hport, hsub _ (List.head_mem unique.property), hglobal, rfl⟩ }
          cases previous with
          | none => exact wp_fetch [] h₂ hreq (hdest request.headers) ⟨rfl, rfl⟩ hl hl hprev hresume hK
          | some old =>
            simp only [requestHeaders, Prog.run_bind, Prog.run_ask, Prog.op_bind, Prog.ret_bind, Prog.orReturn_ok]
            refine wp_step h₂ (fun log₃ _ _ _ => ⟨trivial, fun asked _ h₃ => ?_⟩)
            cases hb : s.crates.policy.beforeRequest old.policy request asked with
            | stale headers =>
              have hfrom : HeadersFrom s request (some old) headers [⟨.systemNow, asked⟩] := ⟨asked, rfl, .inr hb⟩
              simp only [hb]
              exact wp_fetch _ h₃ hreq (hdest headers) hfrom hl hl hprev hresume hK
            | fresh headers =>
              have hfrom : HeadersFrom s request (some old) headers [⟨.systemNow, asked⟩] := ⟨asked, rfl, .inl hb⟩
              simp only [hb]
              exact wp_fetch _ h₃ hreq (hdest headers) hfrom hl hl hprev hresume hK

/-- A leader refreshes and lands. -/
theorem wp_refresh (h : Knows t start task (some key) ledSoFar trace log)
    (hl : loading trace = some ⟨key, previous, now, began⟩) (hprev : ∀ old, previous = some old → Held s start key old)
    (hresume : Resumes s task key K) (hK : GoesOn s t start task ledSoFar Q K key previous now began) :
    (outline s).wp t Q ((refreshInner s key previous).run >>= landAnd s key previous now K) log := by
  simp only [refreshInner, Prog.run_bind, Prog.run_check, Prog.ret_bind, Prog.op_bind, Prog.call_bind,
    ExceptT.run_mk]
  refine wp_step h (fun log₁ _ _ _ => ⟨trivial, fun answer _ h₁ => ?_⟩)
  cases answer with
  | error error => exact wp_landAnd h₁ hl hK (.error _ key _)
  | ok u =>
    simp only [Prog.orReturn_ok]
    cases hval : s.destinationPolicy.validateUrl s.crates.resource.url key.url with
    | error error => exact wp_landAnd h₁ hl hK (.error _ key _)
    | ok u' =>
      simp only [Except.mapError, Prog.orReturn_ok]
      cases hhost : key.url.host with
      | none => exact wp_landAnd h₁ hl hK (.error _ key _)
      | some host =>
        cases hport : s.crates.resource.url.portOrKnownDefault key.url with
        | none => exact wp_landAnd h₁ hl hK (.error _ key _)
        | some port =>
          refine wp_step h₁ (fun log₂ _ _ _ => ⟨trivial, fun answer _ h₂ => ?_⟩)
          cases answer with
          | error error => exact wp_landAnd h₂ hl hK (.error _ key _)
          | ok u'' =>
            show (outline s).wp t Q (((refreshPermitted s key previous host port).run >>= fun result =>
              Prog.op .dropPermit (fun _ => .ret result)) >>= landAnd s key previous now K) _
            rw [Prog.bind_assoc]
            exact wp_refreshPermitted h₂ hl (validateUrl_ok.1 hval) hhost hport hprev hresume hK

end Refresh

/-! ## Where a load gets an outcome -/

/-- The key was looked up in vain, or its outcome was invalidated. -/
def Missed (start log : Log P) (key : ResourceKey) : Prop :=
  ∃ e older, flightEvent e = some (.missed key) ∧ (e :: older) <:+ log ∧ start <:+ older

/-- The thread found a recorded outcome of the key before its time. -/
structure Recorded (s : ResolverService P L) (t : Nat) (start log : Log P) (key : ResourceKey)
    (outcome : RefreshOutcome P) : Prop where
  landed : ∃ t', .did t' (.initDone key outcome) () ∈ log
  valid : ∃ instant older, (.did t .instantNow instant :: older) <:+ log ∧ start <:+ older ∧
    instant < outcome.validUntil
  storable : ∀ r, outcome.result = .ok r → s.crates.policy.isStorable r.policy = true

/-- The outcome a load of the key used. -/
def Used (s : ResolverService P L) (t : Nat) (start log : Log P) (key : ResourceKey) (outcome : RefreshOutcome P) :
    Prop :=
  LandedSince start log key outcome ∨ Recorded s t start log key outcome

section Coalesce

variable {t : Nat} {start log : Log P} {key : ResourceKey} {outcome : RefreshOutcome P} {w : World P L}

theorem Missed.mono {log' : Log P} (h : Missed start log key) (hl : log <:+ log') : Missed start log' key := by
  obtain ⟨e, older, he, ho, hs⟩ := h
  exact ⟨e, older, he, ho.trans hl, hs⟩

theorem Used.mono {log' : Log P} (h : Used s t start log key outcome) (hl : log <:+ log') :
    Used s t start log' key outcome := by
  rcases h with h | ⟨⟨t', hm⟩, ⟨instant, older, ho, hv⟩, hst⟩
  · exact .inl (h.mono hl)
  · exact .inr ⟨⟨t', hl.subset hm⟩, ⟨instant, older, ho.trans hl, hv⟩, hst⟩

/-- An entry found after a miss landed after it. -/
theorem landed_of_entry (h : Inv s w log) (he : w.refreshes.entries key = some outcome) (hm : Missed start log key) :
    LandedSince start log key outcome := by
  obtain ⟨e, older, hf, ho, hs⟩ := hm
  obtain ⟨t, ht⟩ := h.refreshes.entries key outcome he
  exact landedSince_of_since ht hf (by simp [SingleFlight.Event.misses]) ho hs

/-- A parked thread is served what landed after it was parked. -/
theorem landed_of_seat {older : Log P} (h : Inv s w log) (he : w.refreshes.seats t = some (.served key outcome))
    (ho : (.did t (.getWith key) .wait :: older) <:+ log) (hs : start <:+ older) :
    LandedSince start log key outcome := by
  obtain ⟨t', ht'⟩ := h.refreshes.seats t key outcome he
  exact landedSince_of_since ht' rfl (by simp [SingleFlight.Event.waitsOf]) ho hs

/-- The calls in a good log were made with their preconditions. -/
theorem landing_of_mem (hg : (outline s).Good log) (hm : .did t (.initDone key outcome) () ∈ log) :
    ∃ older, older <:+ log ∧ Landing s t key outcome older := by
  obtain ⟨newer, older, rfl⟩ := List.append_of_mem hm
  obtain ⟨⟨k, hpre⟩, -, -⟩ := hg.did rfl
  exact ⟨older, (List.suffix_cons _ older).trans ⟨newer, rfl⟩, hpre⟩

/-- A success that landed since `start` was published last, so after it. -/
theorem LandedSince.current {r : Representation P} (h : LandedSince start log key outcome)
    (hg : (outline s).Good log) (hr : outcome.result = .ok r) : Current s start log key r := by
  obtain ⟨t, older, ⟨newer, rfl⟩, hs⟩ := h
  obtain ⟨⟨k, hpre⟩, -, -⟩ := hg.did rfl
  have hland : Landing s t key outcome older := hpre
  exact ((hland.latest r hr).current hs).mono ((List.suffix_cons _ older).trans ⟨newer, rfl⟩)

/-- A success found before its time is storable: others are good for no time. -/
theorem recorded_storable {instant : Instant} {r : Representation P} (h : Inv s w log) (hg : (outline s).Good log)
    (hm : .did t (.initDone key outcome) () ∈ log) (hw : w.instant = instant) (hv : instant < outcome.validUntil)
    (hr : outcome.result = .ok r) : s.crates.policy.isStorable r.policy = true := by
  obtain ⟨older, ho, hland⟩ := landing_of_mem hg hm
  obtain ⟨-, ended, hended, hu⟩ := hland.success r hr
  have hle := h.instants t ended (ho.subset hended)
  by_contra hn
  rw [hu, successTtl, if_neg hn, Nat.add_zero, ← hw] at hv
  exact Nat.not_lt.2 hle hv

end Coalesce

section Load

variable {t : Nat} {start : Log P} {task : Task} {ledSoFar : List ResourceKey} {trace : Trace P} {log : Log P}
  {Q : Answer P → Log P → Prop} {K : Except FetchError (Representation P) → Calls P (Answer P)}
  {key : ResourceKey} {previous : Option (Representation P)} {now : SystemTime} {began : Trace P}

/-- What a load makes of the outcome it used is fine. -/
def GoesOnUsed (s : ResolverService P L) (t : Nat) (start : Log P) (task : Task) (ledSoFar : List ResourceKey)
    (Q : Answer P → Log P → Prop) (K : Except FetchError (Representation P) → Calls P (Answer P))
    (key : ResourceKey) (previous : Option (Representation P)) (now : SystemTime) (began : Trace P) : Prop :=
  ∀ outcome log trace led', Knows t start task none led' trace log → (led' = ledSoFar ∨ led' = key :: ledSoFar) →
    loading trace = some ⟨key, previous, now, began⟩ → Used s t start log key outcome →
    (∀ r, outcome.result = .ok r → Current s start log key r) →
    (outline s).wp t Q (K (resultOrStale outcome.result previous now)) log

theorem GoesOnUsed.landed (hK : GoesOnUsed s t start task ledSoFar Q K key previous now began)
    {outcome : RefreshOutcome P} {led' : List ResourceKey} (h : Knows t start task none led' trace log)
    (hled : led' = ledSoFar ∨ led' = key :: ledSoFar) (hl : loading trace = some ⟨key, previous, now, began⟩)
    (hland : LandedSince start log key outcome) :
    (outline s).wp t Q (K (resultOrStale outcome.result previous now)) log :=
  Outline.wp_of_good (fun hg => hK outcome log trace led' h hled hl (.inl hland) (fun _ hr => hland.current hg hr))

theorem wp_lead (h : Knows t start task (some key) (key :: ledSoFar) trace log)
    (hl : loading trace = some ⟨key, previous, now, began⟩) (hprev : ∀ old, previous = some old → Held s start key old)
    (hresume : Resumes s task key K) (hK : GoesOnUsed s t start task ledSoFar Q K key previous now began) :
    (outline s).wp t Q (leadWith key (refresh s key previous) >>= fun outcome =>
      K (resultOrStale outcome.result previous now)) log := by
  have he : (leadWith key (refresh s key previous) >>= fun outcome => K (resultOrStale outcome.result previous now)) =
      (refreshInner s key previous).run >>= landAnd s key previous now K := by
    simp only [leadWith, refresh, Prog.bind_assoc]
    rfl
  rw [he]
  refine wp_refresh h hl hprev hresume (fun outcome log trace h' hl' hland => ?_)
  exact hK.landed h' (.inr rfl) hl' hland

theorem wp_coalesced (h : Knows t start task none ledSoFar trace log)
    (hl : loading trace = some ⟨key, previous, now, began⟩)
    (hprev : ∀ old, previous = some old → Held s start key old) (hmiss : Missed start log key)
    (hop : Hop s task ledSoFar key log) (hresume : Resumes s task key K)
    (hK : GoesOnUsed s t start task ledSoFar Q K key previous now began) :
    (outline s).wp t Q (coalesced s key previous now >>= K) log := by
  simp only [coalesced, getWith, Prog.bind_assoc, Prog.call_bind, Prog.op_bind]
  refine wp_step h (fun log₁ hl₁ _ h₁ => ⟨⟨task, h₁.call, h₁.led ▸ hop.mono s hl₁.suffix⟩, fun reply hans h₁' => ?_⟩)
  have hs₁ := hl₁.suffix
  obtain ⟨w, x, w', hinv, he⟩ := hans
  obtain ⟨hreply, -⟩ := Prod.mk.inj (Option.some.inj he)
  cases reply with
  | value outcome =>
    -- somebody landed it after this thread missed it
    rcases w.refreshes.enter_cases t key with ⟨v, hv, hent⟩ | ⟨-, -, hent⟩ | ⟨-, hent⟩ <;> rw [hent] at hreply <;>
      cases hreply
    have hland := landed_of_entry hinv hv (hmiss.mono hs₁)
    exact hK.landed h₁' (.inl rfl) hl (hland.mono (List.suffix_cons _ _))
  | lead => exact wp_lead h₁' hl hprev hresume hK
  | wait =>
    refine wp_step h₁' (fun log₂ hl₂ _ h₂ => ⟨⟨task, h₂.call, ?_⟩, fun reply hans h₂' => ?_⟩)
    · exact h₂.led ▸ hop.mono s (hs₁.trans ((List.suffix_cons _ _).trans hl₂.suffix))
    · have hs₂ := hl₂.suffix
      obtain ⟨w, x, w', hinv, he⟩ := hans
      simp only [ResolverService.system, World.exec, Option.map_eq_some_iff] at he
      obtain ⟨⟨r, refreshes⟩, hawait, hw⟩ := he
      obtain ⟨hr, -⟩ := Prod.mk.inj hw
      dsimp only at hr
      subst hr
      cases r with
      | none => exact wp_lead h₂' hl hprev hresume hK
      | some outcome =>
        have hland : LandedSince start log₂ key outcome := by
          rcases SingleFlight.await_cases hawait with ⟨v, hv, -, hval | hval⟩ | ⟨hv, -⟩
          · obtain rfl := Option.some.inj hv
            exact landed_of_entry hinv hval (hmiss.mono (hs₁.trans ((List.suffix_cons _ _).trans hs₂)))
          · obtain rfl := Option.some.inj hv
            exact landed_of_seat hinv hval hs₂ h₁.since
          · cases hv
        exact hK.landed h₂' (.inl rfl) hl (hland.mono (List.suffix_cons _ _))

theorem wp_loadStale (h : Knows t start task none ledSoFar trace log)
    (hl : loading trace = some ⟨key, previous, now, began⟩)
    (hprev : ∀ old, previous = some old → Held s start key old)
    (hop : Hop s task ledSoFar key log) (hresume : Resumes s task key K)
    (hK : GoesOnUsed s t start task ledSoFar Q K key previous now began) :
    (outline s).wp t Q (loadStale s key previous now >>= K) log := by
  simp only [loadStale, Prog.call_bind, Prog.op_bind]
  refine wp_step h (fun log₁ hl₁ hg₁ h₁ => ⟨trivial, fun found hans h₁' => ?_⟩)
  have hs₁ := hl₁.suffix.trans (List.suffix_cons (.did t (.refreshesGet key) found) log₁)
  cases found with
  | none =>
    exact wp_coalesced h₁' hl hprev ⟨_, log₁, rfl, List.suffix_refl _, h₁.since⟩ (hop.mono s hs₁) hresume hK
  | some outcome =>
    obtain ⟨w, x, w', hinv, he⟩ := hans
    obtain ⟨hent, -⟩ := Prod.mk.inj (Option.some.inj he)
    obtain ⟨t', ht'⟩ := hinv.refreshes.entries key outcome hent
    have hmem := mem_history_landed (List.takeWhile_subset _ ht')
    -- the outcome was not there if anything was published since it landed
    have hcurrent : ∀ r, outcome.result = .ok r → Current s start log₁ key r := fun r hr =>
      (hinv.settled key outcome r hent hr).current h₁.since
    refine wp_step h₁' (fun log₂ hl₂ hg₂ h₂ => ⟨trivial, fun instant hans h₂' => ?_⟩)
    have hs₂ := hl₂.suffix
    have hs₂' := hs₁.trans (hs₂.trans (List.suffix_cons (.did t .instantNow instant) log₂))
    dsimp only
    split
    · rename_i hlt
      obtain ⟨w₂, x₂, w₂', hinv₂, he₂⟩ := hans
      obtain ⟨hinst, -⟩ := Prod.mk.inj (Option.some.inj he₂)
      have hmem₂ : .did t' (.initDone key outcome) () ∈ log₂ := hs₂.subset (List.mem_cons_of_mem _ hmem)
      refine hK outcome _ _ _ h₂' (.inl rfl) hl (.inr ?_) ?_
      · exact
          { landed := ⟨t', List.mem_cons_of_mem _ hmem₂⟩
            valid := ⟨instant, log₂, List.suffix_refl _, h₂.since, hlt⟩
            storable := fun r hr => recorded_storable hinv₂ hg₂ hmem₂ hinst hlt hr }
      · intro r hr
        exact (hcurrent r hr).mono ((List.suffix_cons _ _).trans (hs₂.trans (List.suffix_cons _ _)))
    · refine wp_step h₂' (fun log₃ hl₃ _ h₃ => ⟨trivial, fun u _ h₃' => ?_⟩)
      exact wp_coalesced h₃' hl hprev ⟨_, log₃, rfl, List.suffix_refl _, h₃.since⟩
        (hop.mono s (hs₂'.trans (hl₃.suffix.trans (List.suffix_cons _ _)))) hresume hK

end Load

end EnvoyWebBotAuth.Resolver
