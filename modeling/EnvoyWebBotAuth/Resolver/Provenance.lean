import EnvoyWebBotAuth.Resolver.Client
import EnvoyWebBotAuth.Resolver.Rotation
/-!
# Where cached resources come from

Whatever is cached, recorded or given out for a key was parsed from a
successful response to a fetch of its URL, as the kind of resource the key asks
for. A revalidation passes on what the load captured.
-/
open EnvoyWebBotAuth.Lib EnvoyWebBotAuth.Protocol

namespace EnvoyWebBotAuth.Resolver

variable {P L : Type} (s : ResolverService P L)

/-- Every fetch was answered by the client. -/
def ByClient (httpDate : List Char → Option SystemTime) (log : Log P) : Prop :=
  ∀ t request answer, .did t (.fetch request) answer ∈ log → ∃ now sent, answer = clientFetch httpDate request now sent

/-- Metadata has the URL it was fetched from as its client. -/
def NamesItself (key : ResourceKey) (body : Bytes) : Prop :=
  ∃ metadata, s.crates.resource.cimdFromSlice body = some metadata ∧
    metadata.clientId = s.crates.resource.url.asStr key.url

structure Provenance (log : Log P) (key : ResourceKey) (resource : ParsedResource) : Prop where
  parsed : ∃ t request response, .did t (.fetch request) (.ok response) ∈ log ∧
    request.url = key.url ∧ request.kind = key.kind ∧ response.status = 200 ∧
    parseResource s.crates.resource key.kind key.url response.body s.limits.maxKeys = .ok resource ∧
    (key.kind = .cimd → NamesItself s key response.body)
  kind : (key.kind = .jwks ∧ ∃ keys, resource = .jwks keys) ∨ (key.kind = .cimd ∧ ∃ cimd, resource = .cimd cimd)

/-- A revalidation gives the resource the load had captured. -/
def RevalidatesCaptured (t : Nat) (log : Log P) (key : ResourceKey) (response : FetchResponse)
    (r : Representation P) : Prop :=
  response.status = notModifiedStatus →
    ∃ old, captured (own t log) = some old ∧ r.resource = old.resource ∧ Provenance s log key old.resource

structure CacheProvenance (state : ResolverState P L) : Prop where
  representations : ∀ key r, state.world.representations key = some r → Provenance s state.log key r.resource
  refreshes : ∀ key outcome r, state.world.refreshes.entries key = some outcome → outcome.result = .ok r →
    Provenance s state.log key r.resource
  /-- Outcomes that are on their way to loads that wait. -/
  served : ∀ t key outcome r, state.world.refreshes.seats t = some (.served key outcome) → outcome.result = .ok r →
    Provenance s state.log key r.resource
  made : ∀ t key response r older, older <:+ state.log → Made s (own t older) key response r →
    RevalidatesCaptured s t older key response r
  installed : ∀ t key r older, (.did t (.representationsInsert key r) () :: older) <:+ state.log →
    ∃ response, Made s (own t older) key response r
  load : ∀ t key r older, (.returned t (.load key) (.representation (.ok r)) :: older) <:+ state.log →
    Provenance s older key r.resource
  resolve : ∀ t request response older,
    (.returned t (.resolve request) (.response (.ok response)) :: older) <:+ state.log →
    RespondedBy s (fun key r => Provenance s older key r.resource) request response
  /-- No resolve call fails at a resource of the wrong kind. -/
  failure : ∀ t request error older,
    (.returned t (.resolve request) (.response (.error error)) :: older) <:+ state.log →
    FailedBy s (Failed s t older) request error

variable {s}

theorem ByClient.suffix {httpDate : List Char → Option SystemTime} {log log' : Log P} (h : ByClient httpDate log')
    (hl : log <:+ log') : ByClient httpDate log := fun t request answer hm => h t request answer (hl.subset hm)

/-- Metadata is parsed only if it names itself. -/
theorem parseResource_namesItself {key : ResourceKey} {body : Bytes} {maxKeys : Nat} {resource : ParsedResource}
    (h : parseResource s.crates.resource key.kind key.url body maxKeys = .ok resource) (hk : key.kind = .cimd) :
    NamesItself s key body := by
  rw [hk] at h
  simp only [parseResource, bind_ok, okOr_ok, ensure_ok] at h
  obtain ⟨metadata, hm, _, hid, -⟩ := h
  exact ⟨metadata, hm, hid⟩

/-- The response a resource was parsed from was no revalidation, so a success. -/
theorem Sourced.provenance {httpDate : List Char → Option SystemTime} {log : Log P} {key : ResourceKey}
    {resource : ParsedResource} (h : Sourced s log key resource) (hc : ByClient httpDate log) :
    Provenance s log key resource := by
  have hkind := h.kind
  obtain ⟨t, request, response, hm, hu, hk, hstatus, hp⟩ := h
  obtain ⟨now, sent, hsent⟩ := hc t request _ hm
  have hok : response.status = 200 := by
    rcases (clientFetch_ok hsent.symm).1 with hok | hnot
    · exact hok
    · exact absurd hnot hstatus
  exact ⟨⟨t, request, response, hm, hu, hk, hok, hp, parseResource_namesItself hp⟩, hkind⟩

/-- What a thread makes of a revalidation is what its load had captured. -/
theorem Made.revalidates {httpDate : List Char → Option SystemTime} {t : Nat} {log : Log P} {key : ResourceKey}
    {response : FetchResponse} {r : Representation P} (h : Made s (own t log) key response r)
    (hg : (outline s).Good log) (hc : ByClient httpDate log) : RevalidatesCaptured s t log key response r := by
  intro hstatus
  obtain ⟨now, headers, ip, request, rest, hown, -, hr⟩ := h
  have hcap : captured (own t log) = captured rest := by
    rw [hown]
    rfl
  rw [representationFromResponse, if_pos hstatus, bind_ok] at hr
  obtain ⟨old, hold, hr⟩ := hr
  rw [okOr_ok] at hold
  have hresource : r.resource = old.resource := by
    unfold revalidated at hr
    split at hr
    · rw [← Except.ok.inj hr]
    · cases hr
  -- the thread held what it captured when it fetched
  have hsplit : own t log = [⟨.systemNow, now⟩] ++ ⟨.fetch ⟨key.url, key.kind, headers, ip⟩, .ok response⟩ :: rest := hown
  obtain ⟨log', hl, hrest⟩ := own_split hsplit
  obtain ⟨⟨k, hpre⟩, -, -⟩ := hg.suffix hl
  obtain ⟨key', request', previous, now', hf⟩ := hpre
  obtain ⟨asked, trace, before, began, -, hdest, -⟩ := hf.calls
  have hkey : key' = key := by
    cases key'
    cases key
    obtain rfl : _ = _ := hdest.url
    obtain rfl : _ = _ := hdest.kind
    rfl
  subst hkey
  have hprev : previous = some old := by
    rw [← hf.captured, hrest]
    exact hold
  have hl' : log' <:+ log := (List.suffix_cons _ log').trans hl
  exact ⟨old, hcap.trans hold, hresource, ((hf.held old hprev).sourced.mono hl').provenance hc⟩

theorem cache_provenance {httpDate : List Char → Option SystemTime} {state : ResolverState P L} (h : Reached s state)
    (hc : ByClient httpDate state.log) : CacheProvenance s state where
  representations key r hk := (h.holds.inv.representations key r hk).sourced.provenance hc
  refreshes key outcome r hk hr := by
    obtain ⟨t, ht⟩ := h.holds.inv.refreshes.entries key outcome hk
    obtain ⟨older, ho, hland⟩ := landing_of_mem h.holds.good (mem_history_landed (List.takeWhile_subset _ ht))
    exact ((hland.success r hr).1.sourced.mono ho).provenance hc
  served t key outcome r hk hr := by
    obtain ⟨t', ht⟩ := h.holds.inv.refreshes.seats t key outcome hk
    obtain ⟨older, ho, hland⟩ := landing_of_mem h.holds.good (mem_history_landed (List.takeWhile_subset _ ht))
    exact ((hland.success r hr).1.sourced.mono ho).provenance hc
  made t key response r older hl hmade := hmade.revalidates (h.holds.good.suffix hl) (hc.suffix hl)
  installed t key r older hl := by
    obtain ⟨⟨k, hpub, -⟩, -, -⟩ : (∃ k, Pre s t (.representationsInsert key r) k older) ∧ _ := h.holds.good.suffix hl
    exact hpub.made
  load t key r older hl :=
    (h.load_gives hl).held.sourced.provenance (hc.suffix ((List.suffix_cons _ older).trans hl))
  resolve t request response older hl := by
    refine (h.resolve_gives hl).imp ?_
    rintro key r ⟨log, ho, hgives⟩
    exact (hgives.held.sourced.mono ho).provenance (hc.suffix ((List.suffix_cons _ older).trans hl))
  failure t request error older hl := by
    obtain ⟨newer, hl⟩ := hl
    exact h.holds.met.returned hl.symm

/-- Two loads, the second of which revalidates. -/
def revalidating : List SampleAction :=
  sampleLoad 1 4 1 (sampleResponse 200 "max-age=60") ++ [.env (.clock (fromSecs 61) (fromSecs 61))] ++
    sampleLoad 2 6 2 (sampleResponse 304 "max-age=30")

/-- What the origin of the sample sends. -/
def sampleSent (response : FetchResponse) : Sent :=
  .replied ⟨response.status, response.headers, none, [some response.body]⟩

/-- The entry is no fetch, or one answered by the client with what was sent. -/
def bySampleClient (e : Entry (Op P) Ans Task (Answer P)) : Bool :=
  match fetchOf e with
  | some (_, request, .ok response) =>
    clientFetch (fun _ => none) request 0 (sampleSent response) = (.ok response : Except FetchError FetchResponse)
  | some (_, _, .error _) => false
  | none => true

theorem byClient_of_all {log : Log P} (h : log.all bySampleClient = true) : ByClient (fun _ => none) log := by
  intro t request answer hm
  have he := List.all_eq_true.1 h _ hm
  cases answer with
  | ok response => exact ⟨0, sampleSent response, (of_decide_eq_true he).symm⟩
  | error error => cases he

theorem cache_provenance_sample : ∃ state, sampleRun revalidating = some state ∧
    (state.world.representations sampleKey).isSome ∧ CacheProvenance sampleService state := by
  have hrun : (sampleRun revalidating).map (fun state =>
      (state.log.all bySampleClient, (state.world.representations sampleKey).isSome)) = some (true, true) := by
    decide +kernel
  obtain ⟨state, hrun, hstate⟩ := Option.map_eq_some_iff.1 hrun
  obtain ⟨hall, hstored⟩ := Prod.mk.inj hstate
  exact ⟨state, hrun, hstored, cache_provenance (sampleRun_reached hrun) (byClient_of_all hall)⟩

end EnvoyWebBotAuth.Resolver
