import EnvoyWebBotAuth.Resolver.Served
/-!
# Responses that must be revalidated

`parse_stale_if_error` answers `None` for a response with `must-revalidate`, as
for one without a window. For a 200 response that forbids the stale window. A
304 response falls back on the window of the representation it revalidates, so
what it forbids is taken for absent. And a line that is no text is not read: a
`must-revalidate` in it forbids nothing.
-/
open EnvoyWebBotAuth.Lib EnvoyWebBotAuth.Protocol

namespace EnvoyWebBotAuth.Resolver

variable {P L : Type} {s : ResolverService P L}

/-! ## Directives -/

/-- The bytes of a line, also of one that is no text. -/
def latin1 (value : Bytes) : List Char := value.map (fun b => Char.ofNat b.toNat)

/-- A `Cache-Control` line of the response has the directive, be it text or not. -/
def containsMustRevalidate (headers : Headers) : Bool :=
  (headers.getAll "cache-control").any (fun value =>
    ((latin1 value).splitOn ',').any (fun directive => isNamed "must-revalidate" (trimAscii directive)))

/-- A line that is text has the directive, or none that is has a window. -/
def ForbidsWindow (headers : Headers) : Prop :=
  mustRevalidate headers = true ∨ ∀ directive ∈ cacheDirectives headers, staleIfErrorSeconds directive = none

/-- What is read of a response is in its lines. -/
theorem containsMustRevalidate_of_read {headers : Headers} (h : mustRevalidate headers = true) :
    containsMustRevalidate headers = true := by
  simp only [mustRevalidate, cacheDirectives, List.any_eq_true, List.mem_flatMap, List.mem_filterMap] at h
  obtain ⟨directive, ⟨text, ⟨value, hv, htext⟩, hd⟩, hnamed⟩ := h
  have hlatin : text = latin1 value := by
    unfold toStr at htext
    split at htext
    · exact (Option.some.inj htext).symm
    · cases htext
  simp only [containsMustRevalidate, List.any_eq_true]
  exact ⟨value, hv, directive, hlatin ▸ hd, hnamed⟩

theorem parseStaleIfError_eq_none {headers : Headers} : parseStaleIfError headers = none ↔ ForbidsWindow headers := by
  unfold parseStaleIfError ForbidsWindow
  split
  · rename_i h
    exact ⟨fun _ => .inl h, fun _ => rfl⟩
  · rename_i h
    rw [Option.map_eq_none_iff, List.findSome?_eq_none_iff]
    exact ⟨.inr, fun hor => hor.resolve_left h⟩

theorem cacheDirectives_default (headers : Headers) :
    cacheDirectives (headers ++ [("cache-control", headerValue defaultFreshness)]) =
      cacheDirectives headers ++ [defaultFreshness.toList] := by
  have htext : [headerValue defaultFreshness].filterMap toStr = [defaultFreshness.toList] := by decide +kernel
  have hone : [defaultFreshness.toList].flatMap (·.splitOn ',') = [defaultFreshness.toList] := by decide +kernel
  rw [cacheDirectives, HeaderMap.getAll_append, HeaderMap.getAll_singleton_self, List.filterMap_append,
    List.flatMap_append, htext, hone]
  rfl

/-- The default freshness has no window and takes none away. -/
theorem parseStaleIfError_applyDefaultFreshness {parseHttpDate : List Char → Bool} {headers : Headers} :
    parseStaleIfError (applyDefaultFreshness parseHttpDate headers) = parseStaleIfError headers := by
  have hmust : mustRevalidate (headers ++ [("cache-control", headerValue defaultFreshness)]) = mustRevalidate headers := by
    have hname : isNamed "must-revalidate" (trimAscii defaultFreshness.toList) = false := by decide +kernel
    simp only [mustRevalidate, cacheDirectives_default, List.any_append, List.any_cons, hname, List.any_nil, Bool.or_false]
  have hwindow : (cacheDirectives (headers ++ [("cache-control", headerValue defaultFreshness)])).findSome?
      staleIfErrorSeconds = (cacheDirectives headers).findSome? staleIfErrorSeconds := by
    have hnone : staleIfErrorSeconds defaultFreshness.toList = none := by decide +kernel
    rw [cacheDirectives_default, List.findSome?_append, List.findSome?_singleton, hnone, Option.or_none]
  unfold applyDefaultFreshness
  dsimp only
  split
  · rw [parseStaleIfError, hmust, hwindow, parseStaleIfError]
  · rfl

/-- The stale window after a response: its own, or for a 304 the one of the
representation it revalidates. -/
theorem staleIfError_of_response {c : CacheCrates P} {key : ResourceKey} {request : Request}
    {previous : Option (Representation P)} {response : FetchResponse} {maxKeys : Nat} {now : SystemTime}
    {r : Representation P} (h : representationFromResponse c key request previous response maxKeys now = .ok r) :
    r.staleIfError = (parseStaleIfError response.headers).or
      (if response.status = notModifiedStatus then previous.bind Representation.staleIfError else none) := by
  unfold representationFromResponse at h
  split at h
  · rename_i hstatus
    simp only [bind_ok, okOr_ok] at h
    obtain ⟨old, hold, h⟩ := h
    unfold revalidated at h
    split at h
    · obtain rfl := Except.ok.inj h
      rw [if_pos hstatus, hold, Option.bind_some]
    · cases h
  · rename_i hstatus
    simp only [fetched, bind_ok] at h
    obtain ⟨resource, -, h⟩ := h
    obtain rfl := Except.ok.inj h
    rw [if_neg hstatus, Option.or_none]
    exact parseStaleIfError_applyDefaultFreshness

/-! ## Runs -/

/-- A representation without a window is not given out on an error. -/
theorem resultOrStale_of_none {r : Representation P} (h : r.staleIfError = none) (error : FetchError)
    (now : SystemTime) : resultOrStale (.error error) (some r) now = .error error := by
  have hno : r.staleAllowedAfterError now = false := by rw [Representation.staleAllowedAfterError, h]
  apply resultOrStale_refused
  rintro ⟨-, old, hold, hallowed⟩
  obtain rfl := Option.some.inj hold
  rw [hno] at hallowed
  cases hallowed

/-- A representation with one is, the moment it is stored. -/
theorem resultOrStale_of_some {r : Representation P} {staleFor : Duration} (h : r.staleIfError = some staleFor) :
    resultOrStale (.error (.new .transport)) (some r) r.storedAt = .ok r := by
  have hyes : r.staleAllowedAfterError r.storedAt = true := by
    refine staleAllowedAfterError_iff.2 ⟨staleFor, h, Nat.le_refl _, ?_⟩
    rw [Nat.sub_self]
    exact Nat.zero_le _
  exact resultOrStale_stale rfl hyes

variable (s)

/-- A response that makes `r` for the key must be revalidated. -/
def MustBeRevalidated (log : Log P) (key : ResourceKey) (r : Representation P) : Prop :=
  ∃ t made response, made <:+ log ∧ Made s (own t made) key response r ∧ containsMustRevalidate response.headers = true

/-- A representation that must be revalidated is not given out because of an
error: not by `result_or_stale`, not by a load, and not by one of a resolve call. -/
structure StaleDisabled (log : Log P) : Prop where
  error : ∀ key r, MustBeRevalidated s log key r → ∀ error now, resultOrStale (.error error) (some r) now = .error error
  load : ∀ t key r older, (.returned t (.load key) (.representation (.ok r)) :: older) <:+ log →
    MustBeRevalidated s log key r →
    ∃ start, (.called t (.load key) :: start) <:+ older ∧ Live s t (.called t (.load key) :: start) older key r
  resolve : ∀ t request response older, (.returned t (.resolve request) (.response (.ok response)) :: older) <:+ log →
    RespondedBy s (fun key r => MustBeRevalidated s log key r →
      ∃ start log', start <:+ log' ∧ log' <:+ older ∧ Live s t start log' key r) request response

/-- No 304 response that its policy takes for one brings `must-revalidate` to a
representation with a stale window. -/
def NoneTightened (log : Log P) : Prop :=
  ∀ t made key now headers ip response rest request old policy, made <:+ log →
    own t made = ⟨.systemNow, now⟩ :: ⟨.fetch ⟨key.url, key.kind, headers, ip⟩, .ok response⟩ :: rest →
    response.status = notModifiedStatus → containsMustRevalidate response.headers = true →
    cacheRequest s.crates key = .ok request → captured rest = some old →
    s.crates.policy.afterResponse old.policy request ⟨response.status, response.headers⟩ now = .notModified policy →
    old.staleIfError = none

/-- No response that makes a representation has `must-revalidate` in lines that
are no text only, and a stale window in one that is. -/
def NoneUnread (log : Log P) : Prop :=
  ∀ t made key response r, made <:+ log → Made s (own t made) key response r →
    containsMustRevalidate response.headers = true → ForbidsWindow response.headers

variable {s}

/-- Where nothing is tightened or left unread, what must be revalidated has no window. -/
theorem MustBeRevalidated.windowless {log : Log P} {key : ResourceKey} {r : Representation P}
    (hm : MustBeRevalidated s log key r) (h : NoneTightened s log) (hread : NoneUnread s log) : r.staleIfError = none := by
  obtain ⟨t, made, response, hl, hmade, hr⟩ := hm
  have hforbids := hread t made key response r hl hmade hr
  obtain ⟨now, headers, ip, request, rest, hown, hreq, hrep⟩ := hmade
  rw [staleIfError_of_response hrep, parseStaleIfError_eq_none.2 hforbids, Option.none_or]
  split
  · rename_i hstatus
    cases hold : captured rest with
    | none => rfl
    | some old =>
      -- there is a representation, so the policy took the response for a 304
      have hpolicy : ∃ policy, s.crates.policy.afterResponse old.policy request
          ⟨response.status, response.headers⟩ now = .notModified policy := by
        rw [representationFromResponse, if_pos hstatus, hold] at hrep
        change revalidated s.crates request old response now = .ok r at hrep
        unfold revalidated at hrep
        split at hrep
        · rename_i policy hp
          exact ⟨policy, hp⟩
        · cases hrep
      obtain ⟨policy, hp⟩ := hpolicy
      exact h t made key now headers ip response rest request old policy hl hown hstatus hr hreq hold hp
  · rfl

/-- What has no window is served for another reason. -/
theorem Served.live {t : Nat} {start log : Log P} {key : ResourceKey} {r : Representation P}
    (h : Served s t start log key r) (hr : r.staleIfError = none) : Live s t start log key r := by
  rcases h.reason with hlive | ⟨outcome, error, now, staleFor, -, -, -, -, hsome, -⟩
  · exact hlive
  · rw [hr] at hsome
    cases hsome

/-- A representation that is given out on no error has no window. -/
theorem windowless_of_error {r : Representation P}
    (h : ∀ error now, resultOrStale (.error error) (some r) now = .error error) : r.staleIfError = none := by
  cases hs : r.staleIfError with
  | none => rfl
  | some staleFor =>
    have hok := resultOrStale_of_some hs
    rw [h] at hok
    cases hok

/-- The stale fallback is disabled in exactly the runs in which no 304 response
tightens a policy and no response is left unread. -/
theorem stale_disabled_iff {state : ResolverState P L} (h : Reached s state) :
    StaleDisabled s state.log ↔ NoneTightened s state.log ∧ NoneUnread s state.log := by
  constructor
  · intro hd
    constructor
    · intro t made key now headers ip response rest request old policy hl hown hstatus hr hreq hold hp
      -- the representation the response makes keeps the window of the old one
      have hrep : representationFromResponse s.crates key request (captured rest) response s.limits.maxKeys now =
          .ok ⟨old.resource, policy, now, min (s.crates.policy.timeToLive policy now) maxFreshness,
            (parseStaleIfError response.headers).or old.staleIfError⟩ := by
        rw [representationFromResponse, if_pos hstatus, hold]
        change revalidated s.crates request old response now = _
        rw [revalidated, hp]
      have hmade : Made s (own t made) key response _ := ⟨now, headers, ip, request, rest, hown, hreq, hrep⟩
      have hnone := windowless_of_error (hd.error key _ ⟨t, made, response, hl, hmade, hr⟩)
      exact (Option.or_eq_none_iff.1 hnone).2
    · intro t made key response r hl hmade hr
      have hnone := windowless_of_error (hd.error key r ⟨t, made, response, hl, hmade, hr⟩)
      obtain ⟨now, headers, ip, request, rest, -, -, hrep⟩ := hmade
      rw [staleIfError_of_response hrep, Option.or_eq_none_iff] at hnone
      exact parseStaleIfError_eq_none.1 hnone.1
  · rintro ⟨hn, hread⟩
    constructor
    · intro key r hm
      exact resultOrStale_of_none (hm.windowless hn hread)
    · intro t key r older hl hm
      obtain ⟨start, hs, hserved⟩ := h.load_served hl
      exact ⟨start, hs, hserved.live (hm.windowless hn hread)⟩
    · intro t request response older hl
      refine (h.resolve_served hl).imp ?_
      rintro key r ⟨start, log, ho, hserved⟩ hm
      exact ⟨start, log, hserved.since, ho, hserved.live (hm.windowless hn hread)⟩

/-! ## A window that must-revalidate leaves open -/

/-- What a thread makes a representation of, with the one it revalidates. -/
def settledOf : Trace P → Option (SystemTime × FetchRequest × FetchResponse × Option (Representation P))
  | ⟨.systemNow, now⟩ :: ⟨.fetch fetch, .ok response⟩ :: rest => some (now, fetch, response, captured rest)
  | _ => none

theorem settledOf_eq {trace : Trace P} {now : SystemTime} {fetch : FetchRequest} {response : FetchResponse}
    {previous : Option (Representation P)} (h : settledOf trace = some (now, fetch, response, previous)) :
    ∃ rest, trace = ⟨.systemNow, now⟩ :: ⟨.fetch fetch, .ok response⟩ :: rest ∧ captured rest = previous := by
  unfold settledOf at h
  split at h
  · cases h
    exact ⟨_, rfl, rfl⟩
  · cases h

/-- All that threads made a representation of. -/
def settledIn : Log P → List (SystemTime × FetchRequest × FetchResponse × Option (Representation P))
  | [] => []
  | .did t .systemNow now :: log => (settledOf (⟨.systemNow, now⟩ :: own t log)).toList ++ settledIn log
  | _ :: log => settledIn log

theorem settledIn_suffix {made log : Log P} (h : made <:+ log) : settledIn made ⊆ settledIn log := by
  obtain ⟨newer, rfl⟩ := h
  induction newer with
  | nil => exact fun _ h => h
  | cons e newer ih =>
    intro x hx
    rw [List.cons_append]
    unfold settledIn
    split
    · rename_i heq
      cases heq
    · rename_i heq
      obtain ⟨rfl, rfl⟩ := List.cons.inj heq
      exact List.mem_append_right _ (ih hx)
    · rename_i heq
      obtain ⟨rfl, rfl⟩ := List.cons.inj heq
      exact ih hx

theorem mem_settledIn {log made : Log P} {t : Nat} {now : SystemTime} {fetch : FetchRequest} {response : FetchResponse}
    {rest : Trace P} (hl : made <:+ log)
    (hown : own t made = ⟨.systemNow, now⟩ :: ⟨.fetch fetch, .ok response⟩ :: rest) :
    (now, fetch, response, captured rest) ∈ settledIn log := by
  obtain ⟨older, ho, hrest⟩ := own_split (show own t made = [] ++ _ :: _ from hown)
  refine settledIn_suffix (ho.trans hl) ?_
  rw [settledIn, hrest]
  exact List.mem_cons_self

/-- A representation a thread made must be revalidated. -/
theorem mustBeRevalidated_of_settled {log made : Log P} {t : Nat} {now : SystemTime} {fetch : FetchRequest}
    {request : Request} {response : FetchResponse} {previous : Option (Representation P)} {r : Representation P}
    (hl : made <:+ log) (h : settledOf (own t made) = some (now, fetch, response, previous))
    (hreq : cacheRequest s.crates ⟨fetch.url, fetch.kind⟩ = .ok request)
    (hrep : representationFromResponse s.crates ⟨fetch.url, fetch.kind⟩ request previous response s.limits.maxKeys now =
      .ok r) (hm : containsMustRevalidate response.headers = true) :
    MustBeRevalidated s log ⟨fetch.url, fetch.kind⟩ r := by
  obtain ⟨rest, hown, rfl⟩ := settledOf_eq h
  exact ⟨t, made, response, hl, ⟨now, fetch.headers, fetch.selectedIp, request, rest, hown, hreq, hrep⟩, hm⟩

/-- A response, one that revalidates it and must be revalidated, and a load at
whose refresh the origin fails. -/
def revalidatedOnce (cacheControl : String) : List SampleAction :=
  sampleLoad 1 4 1 (sampleResponse 200 cacheControl) ++ [.env (.clock (fromSecs 61) (fromSecs 61))] ++
    sampleLoad 2 6 2 (sampleResponse 304 "max-age=0, must-revalidate") ++
    [.env (.clock (fromSecs 62) (fromSecs 62))] ++
    sampleFetch 3 6 2 (.error (.new .transport)) ++ turns 3 4 ++ [.finish 3]

def windowed : String := "max-age=60, stale-if-error=600"

/-- The first representation of these runs. -/
def firstRepresentation (cacheControl : String) (staleIfError : Option Duration) : Representation SamplePolicy where
  resource := .jwks []
  policy := ⟨(sampleResponse 200 cacheControl).headers, 0, fromSecs 60⟩
  storedAt := 0
  freshFor := fromSecs 60
  staleIfError := staleIfError

/-- The second one. -/
def tightenedRepresentation (staleIfError : Option Duration) : Representation SamplePolicy where
  resource := .jwks []
  policy := ⟨(sampleResponse 304 "max-age=0, must-revalidate").headers, fromSecs 61, 0⟩
  storedAt := fromSecs 61
  freshFor := 0
  staleIfError := staleIfError

/-- What is settled in the run without a window. -/
theorem revalidatedOnce_settled : ∃ state, sampleRun (revalidatedOnce "max-age=60") = some state ∧
    settledOf (own 2 (state.log.drop 24)) = some (fromSecs 61, sampleDestination,
      sampleResponse 304 "max-age=0, must-revalidate", some (firstRepresentation "max-age=60" none)) ∧
    (settledIn state.log).map (fun settled => (settled.2.2.1, settled.2.2.2)) =
      [(sampleResponse 304 "max-age=0, must-revalidate", some (firstRepresentation "max-age=60" none)),
        (sampleResponse 200 "max-age=60", none)] := by
  have hsettled : (sampleRun (revalidatedOnce "max-age=60")).bind (fun state => settledOf (own 2 (state.log.drop 24))) =
      some (fromSecs 61, sampleDestination, sampleResponse 304 "max-age=0, must-revalidate",
        some (firstRepresentation "max-age=60" none)) := by decide +kernel
  have hall : (sampleRun (revalidatedOnce "max-age=60")).map
      (fun state => (settledIn state.log).map (fun settled => (settled.2.2.1, settled.2.2.2))) =
        some [(sampleResponse 304 "max-age=0, must-revalidate", some (firstRepresentation "max-age=60" none)),
          (sampleResponse 200 "max-age=60", none)] := by decide +kernel
  obtain ⟨state, hrun, hsettled⟩ := Option.bind_eq_some_iff.1 hsettled
  rw [hrun] at hall
  exact ⟨state, hrun, hsettled, Option.some.inj hall⟩

/-- Where the first response has no window, its revalidation tightens nothing. -/
theorem stale_disabled_sample : ∃ state, sampleRun (revalidatedOnce "max-age=60") = some state ∧
    MustBeRevalidated sampleService state.log sampleKey (tightenedRepresentation none) ∧
    StaleDisabled sampleService state.log := by
  obtain ⟨state, hrun, hsettled, hall⟩ := revalidatedOnce_settled
  have hcases : ∀ t made now fetch response rest, made <:+ state.log →
      own t made = ⟨.systemNow, now⟩ :: ⟨.fetch fetch, .ok response⟩ :: rest →
      (response = sampleResponse 304 "max-age=0, must-revalidate" ∧
        captured rest = some (firstRepresentation "max-age=60" none)) ∨
      (response = sampleResponse 200 "max-age=60" ∧ captured rest = none) := by
    intro t made now fetch response rest hl hown
    have hmem := List.mem_map_of_mem (f := fun settled => (settled.2.2.1, settled.2.2.2)) (mem_settledIn hl hown)
    rw [hall] at hmem
    exact (List.mem_pair.1 hmem).imp Prod.mk.inj Prod.mk.inj
  refine ⟨state, hrun, mustBeRevalidated_of_settled (List.drop_suffix 24 state.log) hsettled rfl (by decide +kernel)
    (by decide +kernel), (stale_disabled_iff (sampleRun_reached hrun)).2 ⟨?_, ?_⟩⟩
  · intro t made key now headers ip response rest request old policy hl hown _ _ _ hold _
    rcases hcases t made now _ response rest hl hown with ⟨-, hcap⟩ | ⟨-, hcap⟩
    · obtain rfl := Option.some.inj (hcap.symm.trans hold)
      rfl
    · rw [hold] at hcap
      cases hcap
  · rintro t made key response r hl ⟨now, headers, ip, request, rest, hown, -⟩ hcontains
    rcases hcases t made now _ response rest hl hown with ⟨rfl, -⟩ | ⟨rfl, -⟩
    · exact .inl (by decide +kernel)
    · have hno : containsMustRevalidate (sampleResponse 200 "max-age=60").headers = false := by decide +kernel
      rw [hno] at hcontains
      cases hcontains

/-- Not every run keeps to it. -/
theorem stale_despite_must_revalidate :
    ¬∀ state : ResolverState SamplePolicy Unit, Reached sampleService state → StaleDisabled sampleService state.log := by
  intro h
  have hread : (sampleRun (revalidatedOnce windowed)).bind
      (fun state => settledOf (own 2 (state.log.drop 24))) =
        some (fromSecs 61, sampleDestination, sampleResponse 304 "max-age=0, must-revalidate",
          some (firstRepresentation windowed (some (fromSecs 600)))) := by decide +kernel
  obtain ⟨state, hrun, hsettled⟩ := Option.bind_eq_some_iff.1 hread
  have hmust : MustBeRevalidated sampleService state.log sampleKey (tightenedRepresentation (some (fromSecs 600))) :=
    mustBeRevalidated_of_settled (List.drop_suffix 24 state.log) hsettled rfl (by decide +kernel) (by decide +kernel)
  have hnone := windowless_of_error ((h state (sampleRun_reached hrun)).error sampleKey _ hmust)
  cases hnone

/-- A directive in a line that is no text is not read, and the window of another is. -/
def halfText : Headers :=
  [("cache-control", headerValue "must-revalidate, x=" ++ [0xe9]), ("cache-control", headerValue windowed)]

example : containsMustRevalidate halfText = true ∧ parseStaleIfError halfText = some (fromSecs 600) := by decide +kernel

end EnvoyWebBotAuth.Resolver
