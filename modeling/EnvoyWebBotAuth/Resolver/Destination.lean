import EnvoyWebBotAuth.Resolver.Tasks
/-!
# Every fetch is checked

Whatever the documents and the DNS answers say, a fetch goes to a URL the
policy admits and to an address of a DNS answer whose addresses are all
globally reachable, and a resolve call refreshes at most the document its
request names and the key set that document names.
-/
open EnvoyWebBotAuth.Lib EnvoyWebBotAuth.Protocol

namespace EnvoyWebBotAuth.Resolver

variable {P L : Type} (s : ResolverService P L)

/-- The checks made for a fetch. They are the calls of the thread just before
it, so a check that fails is followed by no fetch. -/
structure CheckedFetch (t : Nat) (fetch : FetchRequest) (older : Log P) : Prop where
  url : SafeUrl s.crates.resource.url s.destinationPolicy fetch.url
  answer : ∃ asked before host port addresses origin,
    own t older = asked ++ ⟨.checkIp fetch.selectedIp, .ok ()⟩ :: ⟨.resolveHost host port, .ok addresses⟩ ::
      ⟨.beginFetch origin, .ok ()⟩ :: ⟨.checkCircuit ⟨fetch.url, fetch.kind⟩, .ok ()⟩ :: before ∧
    (∀ c ∈ asked, ∃ now, c = ⟨.systemNow, now⟩) ∧
    fetch.url.host = some host ∧ s.crates.resource.url.portOrKnownDefault fetch.url = some port ∧
    fetch.selectedIp ∈ addresses ∧ ∀ ip ∈ addresses, globallyReachable ip = true

def isResolve (c : (o : Op P) × Ans o) : Bool :=
  match c.1 with
  | .resolveHost _ _ => true
  | _ => false

/-- A DNS answer without an address, or with one that is not reachable. -/
def Refused (answer : Except FetchError (List IpAddr)) : Prop :=
  ∀ addresses, answer = .ok addresses → addresses = [] ∨ ∃ ip ∈ addresses, globallyReachable ip = false

/-- Metadata with its own URL as `client_id`, fetched from there, names `second`. -/
def NamedByMetadata (log : Log P) (first second : Url) : Prop :=
  ∃ t fetch response metadata uri parsed, .did t (.fetch fetch) (.ok response) ∈ log ∧
    fetch.url = first ∧ fetch.kind = .cimd ∧ s.crates.resource.cimdFromSlice response.body = some metadata ∧
    metadata.clientId = s.crates.resource.url.asStr first ∧ metadata.jwksUri = some uri ∧
    s.crates.resource.url.parse uri = some parsed ∧ second = { parsed with fragment := none }

/-- The refreshes a resolve call may start, newest first. -/
def OwnRefreshes (log : Log P) (request : ResolveRequest) (keys : List ResourceKey) : Prop :=
  keys = [] ∨ ∃ target, validateRequest s.crates.resource.url request = .ok target ∧
    (keys = [firstKey request target] ∨
      ∃ second : ResourceKey, request.discovery = .cimd ∧ second.kind = .jwks ∧
        NamedByMetadata s log target.fetchUrl second.url ∧
        (keys = [second] ∨ keys = [second, firstKey request target]))

variable {s}

theorem NamedBy.metadata {log : Log P} {first second : Url} (h : NamedBy s log first second) :
    NamedByMetadata s log first second := by
  obtain ⟨cimd, ⟨t, fetch, response, hm, hu, hk, -, hparse⟩, hs⟩ := h
  obtain ⟨metadata, uri, parsed, hd, hid, -, huri, hp, rfl⟩ := parseResource_jwksUri _ hparse hs
  exact ⟨t, fetch, response, metadata, uri, parsed, hm, hu, hk, hd, hid, huri, hp, rfl⟩

theorem NamedByMetadata.mono {log log' : Log P} {first second : Url} (h : NamedByMetadata s log first second)
    (hl : log <:+ log') : NamedByMetadata s log' first second := by
  obtain ⟨t, fetch, response, metadata, uri, parsed, hm, hr⟩ := h
  exact ⟨t, fetch, response, metadata, uri, parsed, hl.subset hm, hr⟩

theorem Fetching.checked {t : Nat} {fetch : FetchRequest} {k : Except FetchError FetchResponse → Calls P (Answer P)}
    {key : ResourceKey} {request : Request} {previous : Option (Representation P)} {now : SystemTime} {log : Log P}
    (h : Fetching s t fetch k key request previous now log) : CheckedFetch s t fetch log := by
  obtain ⟨asked, trace, before, -, hown, hdest, hfrom, -⟩ := h.calls
  obtain ⟨hurl, hkind, hsafe, host, port, addresses, origin, hhost, hport, hmem, hglobal, rfl⟩ := hdest
  have hkey : key = ⟨fetch.url, fetch.kind⟩ := by
    rw [hurl, hkind]
  subst hkey
  refine ⟨hsafe, asked, before, host, port, addresses, origin, hown, ?_, hhost, hport, hmem, hglobal⟩
  intro c hc
  -- only a revalidation reads the clock between the checks and the fetch
  cases previous with
  | none =>
    rw [hfrom.2] at hc
    cases hc
  | some old =>
    obtain ⟨read, rfl, -⟩ := hfrom
    exact ⟨read, List.mem_singleton.1 hc⟩

/-- No fetch follows a refused answer before the next lookup. -/
theorem CheckedFetch.not_refused {t : Nat} {fetch : FetchRequest} {log : Log P} (h : CheckedFetch s t fetch log)
    {host : String} {port : UInt16} {answer : Except FetchError (List IpAddr)} {newer older : Trace P}
    (ho : own t log = newer ++ ⟨.resolveHost host port, answer⟩ :: older)
    (hn : ∀ c ∈ newer, isResolve c = false) : ¬Refused answer := by
  obtain ⟨asked, before, host', port', addresses, origin, hown, hasked, -, -, hmem, hglobal⟩ := h.answer
  -- both lists have the same first lookup
  have hfind : own t log = newer ++ ⟨.resolveHost host port, answer⟩ :: older →
      (own t log).find? isResolve = some ⟨.resolveHost host port, answer⟩ := by
    intro he
    rw [he, List.find?_append, List.find?_eq_none.2 (fun c hc => by rw [hn c hc]; decide)]
    rfl
  have hfind' : (own t log).find? isResolve = some ⟨.resolveHost host' port', .ok addresses⟩ := by
    rw [hown, List.find?_append, List.find?_eq_none.2]
    · rfl
    · intro c hc
      obtain ⟨now, rfl⟩ := hasked c hc
      exact Bool.false_ne_true
  have he := (hfind ho).symm.trans hfind'
  cases he
  intro hr
  rcases hr addresses rfl with hnil | ⟨ip, hip, hbad⟩
  · rw [hnil] at hmem
    cases hmem
  · rw [hglobal ip hip] at hbad
    cases hbad

/-- The refreshes of a resolve call, one lead after the other. -/
theorem own_refreshes {t : Nat} {request : ResolveRequest} {log : Log P} (hg : (outline s).Good log)
    (hc : callOf t log = some (.resolve request)) : OwnRefreshes s log request (led t log) := by
  suffices ∀ older, older <:+ log → OwnRefreshes s log request (led t older) from this log (List.suffix_refl log)
  intro older
  induction older with
  | nil => exact fun _ => .inl rfl
  | cons e older ih =>
    intro ho
    have hrest := ih ((List.suffix_cons e older).trans ho)
    have hge := hg.suffix ho
    -- a lead of this thread is a hop; anything else leaves its leads as they were
    have hlead : ∀ key, (∃ task, callOf t older = some task ∧ Hop s task (led t older) key older) →
        (leadChange e).join = some key → led t (e :: older) = key :: led t older →
        OwnRefreshes s log request (led t (e :: older)) := by
      rintro key ⟨task, htask, hhop⟩ - hled
      obtain rfl := Option.some.inj ((hg.callOf ((List.suffix_cons e older).trans ho) htask).symm.trans hc)
      obtain ⟨target, hv, ⟨rfl, hnone⟩ | ⟨hd, hk, hn, hsub⟩⟩ := hhop
      · exact .inr ⟨target, hv, .inl (by rw [hled, hnone])⟩
      · refine .inr ⟨target, hv, .inr ⟨key, hd, hk, hn.metadata.mono ((List.suffix_cons e older).trans ho), ?_⟩⟩
        rw [hled]
        rcases List.sublist_singleton.1 hsub with h | h
        · exact .inl (by rw [h])
        · exact .inr (by rw [h])
    by_cases ht : e.thread = t
    · cases e with
      | did t' o a =>
        obtain rfl : t' = t := ht
        obtain ⟨⟨k, hpre⟩, -, -⟩ := hge
        cases o with
        | getWith key =>
          cases a with
          | lead => exact hlead key hpre rfl (led_did _ _ _ _)
          | value v => exact (led_did t' (.getWith key) (.value v) older) ▸ hrest
          | wait => exact (led_did t' (.getWith key) .wait older) ▸ hrest
        | awaitWith key =>
          cases a with
          | none => exact hlead key hpre rfl (led_did _ _ _ _)
          | some v => exact (led_did t' (.awaitWith key) (some v) older) ▸ hrest
        | _ => exact (led_did t' _ a older) ▸ hrest
      | _ => rw [led, if_pos ht]; exact hrest
    · rw [led, if_neg ht]
      exact hrest

/-- Every fetch is checked, none follows a check that failed, and a resolve call
starts at most two refreshes. -/
theorem fetches_are_checked {state : ResolverState P L} (h : Reached s state) :
    (∀ t fetch a older, (.did t (.fetch fetch) a :: older) <:+ state.log → CheckedFetch s t fetch older) ∧
    (∀ t host port answer newer older, own t state.log = newer ++ ⟨.resolveHost host port, answer⟩ :: older →
      (∀ c ∈ newer, isResolve c = false) → Refused answer → ∀ fetch a, ⟨.fetch fetch, a⟩ ∉ newer) ∧
    ∀ t request, callOf t state.log = some (.resolve request) →
      (led t state.log).length ≤ 2 ∧ OwnRefreshes s state.log request (led t state.log) := by
  have hg := h.holds.good
  have hchecked : ∀ t fetch a older, (.did t (.fetch fetch) a :: older) <:+ state.log → CheckedFetch s t fetch older := by
    rintro t fetch a older ⟨newer, hl⟩
    obtain ⟨⟨k, key, request, previous, now, hf⟩, -, -⟩ := hg.did hl.symm
    exact hf.checked
  refine ⟨hchecked, ?_, ?_⟩
  · intro t host port answer newer older ho hn hr fetch a hm
    obtain ⟨n₁, n₂, rfl⟩ := List.append_of_mem hm
    rw [List.append_assoc, List.cons_append] at ho
    obtain ⟨log', hl, hown⟩ := own_split ho
    exact (hchecked t fetch a log' hl).not_refused hown
      (fun c hc => hn c (List.mem_append_right _ (List.mem_cons_of_mem _ hc))) hr
  · intro t request hc
    have hown := own_refreshes hg hc
    refine ⟨?_, hown⟩
    rcases hown with hk | ⟨target, -, hk | ⟨second, -, -, -, hk | hk⟩⟩ <;> rw [hk] <;> simp

theorem fetches_are_checked_sample :
    ∃ older : Log SamplePolicy, CheckedFetch sampleService 1 sampleDestination older := by
  obtain ⟨state, older, hrun, hl⟩ := sampleRun_fetch (show (sampleRun (sampleFetch 1 4 1 (.error (.new .dns)))).bind
    (fun state => state.log.head?.bind fetchOf) = some (1, sampleDestination, .error (.new .dns)) by decide +kernel)
  exact ⟨older, (fetches_are_checked (sampleRun_reached hrun)).1 1 sampleDestination _ older ⟨[], hl.symm⟩⟩

end EnvoyWebBotAuth.Resolver
