import EnvoyWebBotAuth.Resolver.Served
/-!
# How old a document may be

A response sets how long what it gives is fresh, and how long after that it may
stand in when a refresh fails. Both are cut to a day. A revalidation that says
nothing of the second keeps the one it finds, which was cut before. So what a
load had captured is given out at most two days after its origin confirmed it.
-/
open EnvoyWebBotAuth.Lib EnvoyWebBotAuth.Protocol

namespace EnvoyWebBotAuth.Resolver

variable {P L : Type} (s : ResolverService P L)

/-- Both times of a representation are at most a day. -/
structure Capped (r : Representation P) : Prop where
  fresh : r.freshFor ≤ maxFreshness
  stale : ∀ staleFor, r.staleIfError = some staleFor → staleFor ≤ maxFreshness

/-- What `t` gives out is the result of the refresh its load used, or what the
load captured, fetched or revalidated at most two days before. -/
structure Recent (t : Nat) (start log : Log P) (key : ResourceKey) (r : Representation P) : Prop where
  capped : Capped r
  stored : StoredAt log key r
  age : (∃ outcome, outcome.result = .ok r ∧ Used s t start log key outcome) ∨
    ∃ now, loading (own t log) = some ⟨key, some r, now, own t start⟩ ∧
      now ≤ r.storedAt + 2 * maxFreshness

/-- Everything in the caches has its times cut to a day, and everything given out
is recent. -/
structure Expires (state : ResolverState P L) : Prop where
  representations : ∀ key r, state.world.representations key = some r → Capped r
  refreshes : ∀ key outcome r, state.world.refreshes.entries key = some outcome → outcome.result = .ok r → Capped r
  load : ∀ t key r older, (.returned t (.load key) (.representation (.ok r)) :: older) <:+ state.log →
    ∃ start, (.called t (.load key) :: start) <:+ older ∧ Recent s t (.called t (.load key) :: start) older key r
  resolve : ∀ t request response older,
    (.returned t (.resolve request) (.response (.ok response)) :: older) <:+ state.log →
    RespondedBy s (fun key r => ∃ start log, log <:+ older ∧ Recent s t start log key r) request response

variable {s}

/-! ## What a response gives -/

theorem parseStaleIfError_le {headers : Headers} {staleFor : Duration} (h : parseStaleIfError headers = some staleFor) :
    staleFor ≤ maxFreshness := by
  unfold parseStaleIfError at h
  split at h
  · cases h
  · obtain ⟨seconds, -, rfl⟩ := Option.map_eq_some_iff.1 h
    unfold maxFreshness fromSecs
    exact Nat.mul_le_mul_right _ (Nat.min_le_right _ _)

/-- A response gives a representation that is capped if the one it revalidates is. -/
theorem Capped.of_response {c : CacheCrates P} {key : ResourceKey} {request : Request}
    {previous : Option (Representation P)} {response : FetchResponse} {maxKeys : Nat} {now : SystemTime}
    {r : Representation P} (hp : ∀ old, previous = some old → Capped old)
    (h : representationFromResponse c key request previous response maxKeys now = .ok r) : Capped r := by
  unfold representationFromResponse at h
  split at h
  · simp only [bind_ok, okOr_ok] at h
    obtain ⟨old, hold, h⟩ := h
    unfold revalidated at h
    split at h
    · obtain rfl := Except.ok.inj h
      refine ⟨Nat.min_le_right _ _, ?_⟩
      intro staleFor hstale
      -- the response's own window, or the one it found
      rcases Option.or_eq_some_iff.1 hstale with hown | ⟨-, hkept⟩
      · exact parseStaleIfError_le hown
      · exact (hp old hold).stale staleFor hkept
    · cases h
  · simp only [fetched, bind_ok] at h
    obtain ⟨resource, -, h⟩ := h
    obtain rfl := Except.ok.inj h
    exact ⟨Nat.min_le_right _ _, fun staleFor hstale => parseStaleIfError_le hstale⟩

/-! ## What is held -/

/-- What a refresh revalidates was held when it fetched. -/
theorem captured_held {t : Nat} {log : Log P} {request : FetchRequest} {answer : Except FetchError FetchResponse}
    (hg : (outline s).Good (.did t (.fetch request) answer :: log)) {old : Representation P}
    (hc : captured (own t log) = some old) : ∃ key, Held s log key old := by
  obtain ⟨⟨k, hpre⟩, -, -⟩ := hg
  obtain ⟨key, request', previous, now, hf⟩ := hpre
  refine ⟨key, hf.held old ?_⟩
  rw [← hf.captured]
  exact hc

/-- What is held comes of a chain of revalidations, each of what was held before. -/
theorem Held.capped {log : Log P} {key : ResourceKey} {r : Representation P} (h : Held s log key r)
    (hg : (outline s).Good log) : Capped r := by
  generalize hn : log.length = n
  induction n using Nat.strong_induction_on generalizing log key r with
  | _ n ih =>
    obtain ⟨-, t, older, response, ho, now, headers, ip, request, rest, hown, -, hr⟩ := h
    refine Capped.of_response (fun old hold => ?_) hr
    have hsplit : own t older =
        [⟨.systemNow, now⟩] ++ ⟨.fetch ⟨key.url, key.kind, headers, ip⟩, .ok response⟩ :: rest := hown
    obtain ⟨log', hl, hrest⟩ := own_split hsplit
    have hl := hl.trans ho
    obtain ⟨key', hheld⟩ := captured_held (hg.suffix hl) (hrest ▸ hold)
    have hlt : log'.length < n := hn ▸ hl.length_le
    exact ih _ hlt hheld (hg.suffix ((List.suffix_cons _ log').trans hl)) rfl

/-! ## What is given out -/

theorem Loaded.recent {t : Nat} {start log : Log P} {key : ResourceKey}
    {result : Except FetchError (Representation P)} {r : Representation P} (h : Loaded s t start key log result)
    (hg : (outline s).Good log) (hheld : Held s log key r) (hr : result = .ok r) : Recent s t start log key r := by
  have hcapped := hheld.capped hg
  refine ⟨hcapped, hheld.storedAt, ?_⟩
  cases h with
  | invalid error he => cases hr
  | fresh r' request now hreq hload hfresh hheld =>
    obtain rfl := Except.ok.inj hr
    have hage := (freshRequest_isSome.1 hfresh).1
    exact .inr ⟨now, hload, Nat.sub_le_iff_le_add'.1 (hage.le.trans (Nat.le_mul_of_pos_left _ Nat.two_pos))⟩
  | used outcome previous now base hb hload hprev hused =>
    rcases resultOrStale_ok hr with hok | ⟨error, herr, rfl, hallows, hstale⟩
    · exact .inl ⟨outcome, hok, hused.from_later hb⟩
    · obtain ⟨staleFor, hsome, hle, hage⟩ := staleAllowedAfterError_iff.1 hstale
      have hsum : durationSaturatingAdd r.freshFor staleFor ≤ 2 * maxFreshness := by
        rw [Nat.two_mul]
        exact (Nat.min_le_left _ _).trans (Nat.add_le_add hcapped.fresh (hcapped.stale staleFor hsome))
      exact .inr ⟨now, hload, Nat.sub_le_iff_le_add'.1 (hage.trans hsum)⟩

/-- However the calls interleave and whatever the origins answer, what a load
had captured is given out at most two days after it was fetched or revalidated. -/
theorem documents_expire {state : ResolverState P L} (h : Reached s state) : Expires s state where
  representations key r hr := (h.holds.inv.representations key r hr).capped h.holds.good
  refreshes key outcome r hk hr := by
    obtain ⟨t, ht⟩ := h.holds.inv.refreshes.entries key outcome hk
    obtain ⟨older, ho, hland⟩ := landing_of_mem h.holds.good (mem_history_landed (List.takeWhile_subset _ ht))
    exact ((hland.success r hr).1.mono ho).capped h.holds.good
  load t key r older hl := by
    have hg : (outline s).Good older := h.holds.good.suffix ((List.suffix_cons _ older).trans hl)
    obtain ⟨newer, hl⟩ := hl
    obtain ⟨start, hs, hload, hgives⟩ := h.holds.met.returned hl.symm
    exact ⟨start, hs, hload.recent hg (hgives r rfl).held rfl⟩
  resolve t request response older hl := by
    have hg : (outline s).Good older := h.holds.good.suffix ((List.suffix_cons _ older).trans hl)
    obtain ⟨newer, hl⟩ := hl
    refine RespondedBy.imp (h.holds.met.returned hl.symm).1 ?_
    rintro key r ⟨start, log, ho, hs, hload, hgives⟩
    exact ⟨start, log, ho, hload.recent (hg.suffix ho) hgives.held rfl⟩

/-- A response that asks for a week, and a load as late as it may be. -/
def expiring : List SampleAction :=
  sampleLoad 1 4 1 (sampleResponse 200 "max-age=86400, stale-if-error=604800") ++
    [.env (.clock (fromSecs 172800) (fromSecs 172800))] ++
    sampleFetch 3 6 2 (.error (.new .transport)) ++ turns 3 4 ++ [.finish 3]

def expiringRepresentation : Representation SamplePolicy where
  resource := .jwks []
  policy := ⟨(sampleResponse 200 "max-age=86400, stale-if-error=604800").headers, 0, fromSecs 86400⟩
  storedAt := 0
  freshFor := fromSecs 86400
  staleIfError := some (fromSecs 86400)

theorem documents_expire_sample : ∃ (state : ResolverState SamplePolicy Unit) (older : Log SamplePolicy),
    sampleRun expiring = some state ∧
    state.log = .returned 3 (.load sampleKey) (.representation (.ok expiringRepresentation)) :: older ∧
    Expires sampleService state := by
  obtain ⟨state, older, hrun, hl⟩ := sampleRun_loaded (show
    (sampleRun expiring).bind (fun state => state.log.head?.bind loadedOf) =
      some (3, sampleKey, expiringRepresentation) by decide +kernel)
  exact ⟨state, older, hrun, hl, documents_expire (sampleRun_reached hrun)⟩

end EnvoyWebBotAuth.Resolver
