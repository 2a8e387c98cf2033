import EnvoyWebBotAuth.Resolver.Tasks
/-!
# The headers of a refresh

A refresh asks the policy of the captured representation for its headers. A
policy that is stale gives the request, with validators. One that is fresh
gives the headers of the stored response, and these are sent too: `load` caps
freshness at a day, of which the policy knows nothing.
-/
open EnvoyWebBotAuth.Lib EnvoyWebBotAuth.Protocol

namespace EnvoyWebBotAuth.Resolver

variable {P L : Type} {s : ResolverService P L}

def validators : List String := ["if-none-match", "if-modified-since"]

/-- The headers of the request, and validators at most. -/
def RequestHeaders (request sent : Headers) : Prop :=
  ∀ name, name ∉ validators → sent.getAll name = request.getAll name

/-- What the `http-cache-semantics` crate does before a request: a stored
response is given its age, a revalidation only gets validators. -/
structure CachePolicy.Lawful (c : CachePolicy P) : Prop where
  fresh : ∀ policy request now headers, c.beforeRequest policy request now = .fresh headers →
    headers.getAll "age" ≠ []
  stale : ∀ policy request now headers, (∀ name ∈ request.headers.names, name ∈ ["accept", "accept-encoding"]) →
    c.beforeRequest policy request now = .stale headers → RequestHeaders request.headers headers

theorem cacheRequest_names {c : CacheCrates P} {key : ResourceKey} {request : Request}
    (h : cacheRequest c key = .ok request) : request.headers.names = ["accept", "accept-encoding"] := by
  rw [cacheRequest_ok h]
  rfl

/-- The headers of a stored response are none of a request. -/
theorem CachePolicy.Lawful.fresh_not_request {c : CacheCrates P} (hc : c.policy.Lawful) {key : ResourceKey}
    {request : Request} (hr : cacheRequest c key = .ok request) {policy : P} {now : SystemTime} {headers : Headers}
    (hf : c.policy.beforeRequest policy request now = .fresh headers) : ¬RequestHeaders request.headers headers := by
  intro h
  apply hc.fresh policy request now headers hf
  rw [h "age" (by decide), cacheRequest_ok hr]
  rfl

/-- The policy of the captured representation is stale when the refresh, whose
calls so far these are, asks it. -/
def AsksStale (s : ResolverService P L) (request : Request) (trace : Trace P) : Prop :=
  ∀ old, captured trace = some old → ∃ now headers before, trace = ⟨.systemNow, now⟩ :: before ∧
    s.crates.policy.beforeRequest old.policy request now = .stale headers

/-- The policy alone decides what a refresh sends. -/
theorem Fetching.headers_iff {t : Nat} {fetch : FetchRequest} {k : Except FetchError FetchResponse → Calls P (Answer P)}
    {key : ResourceKey} {request : Request} {previous : Option (Representation P)} {now : SystemTime} {log : Log P}
    (hc : s.crates.policy.Lawful) (h : Fetching s t fetch k key request previous now log) :
    RequestHeaders request.headers fetch.headers ↔ AsksStale s request (own t log) := by
  obtain ⟨asked, trace, before, began, hown, hdest, hfrom, -⟩ := h.calls
  unfold AsksStale
  rw [h.captured, hown]
  cases previous with
  | none =>
    rw [hfrom.1]
    exact ⟨nofun, fun _ _ _ => rfl⟩
  | some old =>
    obtain ⟨read, rfl, hb | hb⟩ := hfrom
    · constructor
      · intro hsent
        exact absurd hsent (hc.fresh_not_request h.requested hb)
      · intro hstale
        obtain ⟨now', headers, before', htrace, hb'⟩ := hstale old rfl
        -- the clock was read once
        cases htrace
        rw [hb] at hb'
        cases hb'
    · constructor
      · rintro - old' ⟨⟩
        exact ⟨read, fetch.headers, trace, rfl, hb⟩
      · intro _
        exact hc.stale _ request read _ (by rw [cacheRequest_names h.requested]; exact fun _ hn => hn) hb

/-- A refresh sends a request's headers exactly if it captured no
representation or one whose policy is stale by then. -/
theorem refresh_headers (hc : s.crates.policy.Lawful) {state : ResolverState P L} (h : Reached s state) {t : Nat}
    {fetch : FetchRequest} {a : Except FetchError FetchResponse} {older : Log P}
    (hl : (.did t (.fetch fetch) a :: older) <:+ state.log) :
    ∃ request, cacheRequest s.crates ⟨fetch.url, fetch.kind⟩ = .ok request ∧
      (RequestHeaders request.headers fetch.headers ↔ AsksStale s request (own t older)) := by
  obtain ⟨newer, hl⟩ := hl
  obtain ⟨⟨k, key, request, previous, now, hf⟩, -, -⟩ := h.holds.good.did hl.symm
  refine ⟨request, ?_, hf.headers_iff hc⟩
  obtain ⟨asked, trace, before, -, -, hdest, -⟩ := hf.calls
  rw [hdest.url, hdest.kind]
  exact hf.requested

theorem samplePolicy_lawful : samplePolicy.Lawful where
  fresh policy request now headers h := by
    simp only [samplePolicy] at h
    split at h
    · cases h
      simp
    · cases h
  stale policy request now headers _ h := by
    simp only [samplePolicy] at h
    split at h
    · cases h
    · cases h
      intro name hn
      rw [HeaderMap.getAll_append]
      have hno : ∀ tags : List Bytes, HeaderMap.getAll (tags.map (fun tag => ("if-none-match", tag))) name = [] := by
        intro tags
        simp only [HeaderMap.getAll, List.map_eq_nil_iff, List.filter_eq_nil_iff, List.mem_map]
        rintro _ ⟨tag, -, rfl⟩ he
        exact hn (by simpa [validators] using Or.inl (of_decide_eq_true he).symm)
      rw [hno, List.append_nil]

/-- A response with a tag, and a load when it is stale. -/
def tagged : List SampleAction :=
  sampleFetch 1 4 1 (.ok { sampleResponse 200 "max-age=60" with
    headers := ("etag", headerValue "\"v1\"") :: (sampleResponse 200 "max-age=60").headers }) ++ turns 1 6 ++
    [.finish 1] ++ [.env (.clock (fromSecs 61) (fromSecs 61))] ++ sampleFetch 2 6 2 (.error (.new .dns))

def taggedRepresentation : Representation SamplePolicy where
  resource := .jwks []
  policy := ⟨("etag", headerValue "\"v1\"") :: (sampleResponse 200 "max-age=60").headers, 0, fromSecs 60⟩
  storedAt := 0
  freshFor := fromSecs 60
  staleIfError := none

/-- The fetch of that load, with a validator. -/
def validating : FetchRequest :=
  { sampleDestination with headers := sampleDestination.headers ++ [("if-none-match", headerValue "\"v1\"")] }

/-- The last reading of the clock, if it is the last call, and what the load had captured. -/
def askedOf : Trace P → Option (SystemTime × Option (Representation P))
  | ⟨.systemNow, now⟩ :: before => some (now, captured before)
  | _ => none

theorem askedOf_eq {trace : Trace P} {now : SystemTime} {previous : Option (Representation P)}
    (h : askedOf trace = some (now, previous)) : captured trace = previous ∧ ∃ before, trace = ⟨.systemNow, now⟩ :: before := by
  unfold askedOf at h
  split at h
  · cases h
    exact ⟨rfl, _, rfl⟩
  · cases h

theorem refresh_headers_sample :
    ∃ older : Log SamplePolicy, ∃ request,
      cacheRequest sampleService.crates ⟨validating.url, validating.kind⟩ = .ok request ∧
      captured (own 2 older) = some taggedRepresentation ∧ RequestHeaders request.headers validating.headers := by
  have hread : (sampleRun tagged).bind (fun state => askedOf (own 2 state.log.tail)) =
      some (fromSecs 61, some taggedRepresentation) := by decide +kernel
  obtain ⟨state, older, hrun, hl⟩ := sampleRun_fetch (show (sampleRun tagged).bind
    (fun state => state.log.head?.bind fetchOf) = some (2, validating, .error (.new .dns)) by decide +kernel)
  rw [hrun, Option.bind_some, hl] at hread
  obtain ⟨hcaptured, before, htrace⟩ := askedOf_eq hread
  have hlawful : sampleService.crates.policy.Lawful := samplePolicy_lawful
  obtain ⟨request, hr, hiff⟩ := refresh_headers hlawful (sampleRun_reached hrun) ⟨[], hl.symm⟩
  refine ⟨older, request, hr, hcaptured, hiff.2 ?_⟩
  intro old hold
  obtain rfl := Option.some.inj (hcaptured.symm.trans hold)
  have hstale : sampleService.crates.policy.beforeRequest taggedRepresentation.policy request (fromSecs 61) =
      .stale (request.headers ++ [("if-none-match", headerValue "\"v1\"")]) := rfl
  exact ⟨fromSecs 61, _, before, htrace, hstale⟩

/-- The first response is good for two days, and a day later loaded again. -/
def longLived : List SampleAction :=
  sampleFetch 1 4 1 (.ok (sampleResponse 200 "max-age=172800")) ++ turns 1 6 ++ [.finish 1] ++
    [.env (.clock (fromSecs 90000) (fromSecs 90000))] ++ sampleFetch 2 6 2 (.error (.new .dns))

def storedHeaders : FetchRequest :=
  ⟨sampleKey.url, .jwks, [("content-type", headerValue "application/json"),
    ("cache-control", headerValue "max-age=172800"), ("age", headerValue "90000")], .v4 0x08080808#32⟩

/-- The headers of the stored response are sent. -/
theorem stored_headers_sent :
    ¬∀ (state : ResolverState SamplePolicy Unit) t fetch a older request, Reached sampleService state →
      (.did t (.fetch fetch) a :: older) <:+ state.log →
      cacheRequest sampleService.crates ⟨fetch.url, fetch.kind⟩ = .ok request →
      RequestHeaders request.headers fetch.headers := by
  intro h
  obtain ⟨state, older, hrun, hl⟩ := sampleRun_fetch (show (sampleRun longLived).bind
    (fun state => state.log.head?.bind fetchOf) = some (2, storedHeaders, .error (.new .dns)) by decide +kernel)
  have hsent := h state 2 storedHeaders _ older _ (sampleRun_reached hrun) ⟨[], hl.symm⟩ rfl
  have htype := hsent "content-type" (by decide)
  revert htype
  decide +kernel

end EnvoyWebBotAuth.Resolver
