import EnvoyWebBotAuth.Resolver.Resource
/-!
# Representations

Freshness, the stale window and the representation a response gives
(`cache.rs`, without the two caches, which are in `State`). The cache policy of
the `http-cache-semantics` crate is a parameter.
-/
open EnvoyWebBotAuth.Lib EnvoyWebBotAuth.Protocol

namespace EnvoyWebBotAuth.Resolver

def maxFreshness : Duration := fromSecs (24 * 60 * 60)

structure ResourceKey where
  url : Url
  kind : ResourceKind
  deriving DecidableEq

/-- `http::Request<()>` -/
structure Request where
  method : String
  uri : String
  headers : Headers
  deriving DecidableEq

/-- `http::Response<()>` -/
structure ResponseMeta where
  status : Nat
  headers : Headers
  deriving DecidableEq

/-! ## The cache policy -/

inductive BeforeRequest where
  /-- The headers of the stored response. -/
  | fresh (headers : Headers)
  /-- The headers of a request that revalidates it. -/
  | stale (headers : Headers)

inductive AfterResponse (P : Type) where
  | notModified (policy : P)
  | modified (policy : P)

structure CachePolicy (P : Type) where
  /-- `new_options`, the options being the default with a `cache_heuristic` of 0. -/
  newOptions : Request → ResponseMeta → SystemTime → P
  isStorable : P → Bool
  timeToLive : P → SystemTime → Duration
  beforeRequest : P → Request → SystemTime → BeforeRequest
  afterResponse : P → Request → ResponseMeta → SystemTime → AfterResponse P

structure Representation (P : Type) where
  resource : ParsedResource
  policy : P
  storedAt : SystemTime
  freshFor : Duration
  staleIfError : Option Duration
  deriving DecidableEq

structure RefreshOutcome (P : Type) where
  result : Except FetchError (Representation P)
  validUntil : Instant

section Representation

variable {P : Type} (c : CachePolicy P)

/-- `now.duration_since(stored_at)` is an error if `stored_at` is later. -/
def durationSince (now storedAt : SystemTime) : Option Duration :=
  if storedAt ≤ now then some (now - storedAt) else none

def Representation.freshRequest (r : Representation P) (request : Request) (now : SystemTime) : Option Headers :=
  if maxFreshness ≤ (durationSince now r.storedAt).getD 0 then none
  else match c.beforeRequest r.policy request now with
    | .fresh headers => some headers
    | .stale _ => none

def Representation.staleAllowedAfterError (r : Representation P) (now : SystemTime) : Bool :=
  match r.staleIfError with
  | none => false
  | some staleFor => (durationSince now r.storedAt).any (· ≤ durationSaturatingAdd r.freshFor staleFor)

def resultOrStale (result : Except FetchError (Representation P)) (previous : Option (Representation P))
    (now : SystemTime) : Except FetchError (Representation P) :=
  match result with
  | .ok representation => .ok representation
  | .error error =>
    match previous.filter (fun old => error.allowsStale && old.staleAllowedAfterError now) with
    | some old => .ok old
    | none => .error error

end Representation

/-! ## Cache-Control -/

/-- The directives of all `Cache-Control` lines that are text. -/
def cacheDirectives (headers : Headers) : List (List Char) :=
  ((headers.getAll "cache-control").filterMap toStr).flatMap (·.splitOn ',')

def isNamed (name : String) (s : List Char) : Bool := eqIgnoreAsciiCase s name.toList

def hasFreshness (directive : List Char) : Bool :=
  match splitOnce '=' directive with
  | some (name, value) =>
    (isNamed "max-age" (trimAscii name) || isNamed "s-maxage" (trimAscii name)) &&
      (parseU64 (trimAscii (trimMatches (· = '"') value))).isSome
  | none => false

def defaultFreshness : String := "max-age=300"

/-- `parseHttpDate` says whether a text is an HTTP date. -/
def applyDefaultFreshness (parseHttpDate : List Char → Bool) (headers : Headers) : Headers :=
  let directives := (cacheDirectives headers).map trimAscii
  let noStore := directives.any (isNamed "no-store")
  let hasExpires := ((headers.getFirst "expires").bind toStr).any parseHttpDate
  if !noStore && !directives.any hasFreshness && !hasExpires then
    headers ++ [("cache-control", headerValue defaultFreshness)]
  else headers

/-- Whether the response may not be used once it is stale. -/
def mustRevalidate (headers : Headers) : Bool :=
  (cacheDirectives headers).any (fun directive => isNamed "must-revalidate" (trimAscii directive))

def staleIfErrorSeconds (directive : List Char) : Option Nat :=
  match splitOnce '=' (trimAscii directive) with
  | some (name, value) =>
    if isNamed "stale-if-error" name then parseU64 (trimMatches (· = '"') value) else none
  | none => none

def parseStaleIfError (headers : Headers) : Option Duration :=
  if mustRevalidate headers then none
  else ((cacheDirectives headers).findSome? staleIfErrorSeconds).map
    (fun seconds => fromSecs (min seconds (24 * 60 * 60)))

/-! ## Requests and responses -/

structure CacheCrates (P : Type) where
  resource : ResourceCrates
  policy : CachePolicy P
  /-- Whether the `http` crate takes a text as the URI of a request. -/
  uriValid : String → Bool
  parseHttpDate : List Char → Bool

variable {P : Type} (c : CacheCrates P)

def cacheRequest (key : ResourceKey) : Except FetchError Request :=
  let uri := c.resource.url.asStr key.url
  if c.uriValid uri then
    .ok ⟨"GET", uri, [("accept", headerValue (key.kind.accept key.url)), ("accept-encoding", headerValue "identity")]⟩
  else .error invalidResource

/-- A revalidation keeps the resource of the representation it revalidates. -/
def revalidated (request : Request) (previous : Representation P) (response : FetchResponse) (now : SystemTime) :
    Except FetchError (Representation P) :=
  match c.policy.afterResponse previous.policy request ⟨response.status, response.headers⟩ now with
  | .notModified policy => .ok
    { resource := previous.resource
      policy := policy
      storedAt := now
      freshFor := min (c.policy.timeToLive policy now) maxFreshness
      staleIfError := (parseStaleIfError response.headers).or previous.staleIfError }
  | .modified _ => .error invalidResource

def fetched (key : ResourceKey) (request : Request) (response : FetchResponse) (maxKeys : Nat) (now : SystemTime) :
    Except FetchError (Representation P) := do
  let headers := applyDefaultFreshness c.parseHttpDate response.headers
  let policy := c.policy.newOptions request ⟨response.status, headers⟩ now
  let resource ← parseResource c.resource key.kind key.url response.body maxKeys
  .ok
    { resource := resource
      policy := policy
      storedAt := now
      freshFor := min (c.policy.timeToLive policy now) maxFreshness
      staleIfError := parseStaleIfError headers }

def notModifiedStatus : Nat := 304

def representationFromResponse (key : ResourceKey) (request : Request) (previous : Option (Representation P))
    (response : FetchResponse) (maxKeys : Nat) (now : SystemTime) : Except FetchError (Representation P) :=
  if response.status = notModifiedStatus then do
    let previous ← okOr invalidResource previous
    revalidated c request previous response now
  else fetched c key request response maxKeys now

/-! ## What the definitions say -/

variable {c}

theorem cacheRequest_ok {key : ResourceKey} {request : Request} (h : cacheRequest c key = .ok request) :
    request.headers =
      [("accept", headerValue (key.kind.accept key.url)), ("accept-encoding", headerValue "identity")] := by
  unfold cacheRequest at h
  dsimp only at h
  split at h
  · exact congrArg Request.headers (Except.ok.inj h).symm
  · cases h

/-- A fresh hit: fresh under its policy, and stored less than a day ago. -/
theorem freshRequest_isSome {r : Representation P} {request : Request} {now : SystemTime} {c : CachePolicy P} :
    (r.freshRequest c request now).isSome ↔
      now - r.storedAt < maxFreshness ∧ ∃ headers, c.beforeRequest r.policy request now = .fresh headers := by
  have hage : (durationSince now r.storedAt).getD 0 = now - r.storedAt := by
    unfold durationSince
    split
    · rfl
    · rename_i h
      exact (Nat.sub_eq_zero_of_le (Nat.le_of_not_le h)).symm
  unfold Representation.freshRequest
  rw [hage]
  split
  · rename_i h
    exact ⟨nofun, fun hn => absurd hn.1 (Nat.not_lt.2 h)⟩
  · rename_i h
    cases hb : c.beforeRequest r.policy request now with
    | fresh headers => exact ⟨fun _ => ⟨Nat.lt_of_not_le h, headers, rfl⟩, fun _ => rfl⟩
    | stale headers =>
      refine ⟨nofun, ?_⟩
      rintro ⟨-, headers', ⟨⟩⟩

/-- A stale hit is inside its window. -/
theorem staleAllowedAfterError_iff {r : Representation P} {now : SystemTime} :
    r.staleAllowedAfterError now = true ↔ ∃ staleFor, r.staleIfError = some staleFor ∧
      r.storedAt ≤ now ∧ now - r.storedAt ≤ durationSaturatingAdd r.freshFor staleFor := by
  unfold Representation.staleAllowedAfterError durationSince
  cases hs : r.staleIfError with
  | none => simp
  | some staleFor => by_cases h : r.storedAt ≤ now <;> simp [h]

/-- What a load makes of the result of a refresh. -/
theorem resultOrStale_ok {result : Except FetchError (Representation P)} {previous : Option (Representation P)}
    {now : SystemTime} {r : Representation P} (h : resultOrStale result previous now = .ok r) :
    result = .ok r ∨
      ∃ error, result = .error error ∧ previous = some r ∧ error.allowsStale = true ∧
        r.staleAllowedAfterError now = true := by
  unfold resultOrStale at h
  cases result with
  | ok representation => exact .inl h
  | error error =>
    dsimp only at h
    split at h
    · rename_i old hf
      obtain rfl := Except.ok.inj h
      rw [Option.filter_eq_some_iff, Bool.and_eq_true] at hf
      exact .inr ⟨error, rfl, hf.1, hf.2.1, hf.2.2⟩
    · cases h

/-- An error gives a document that may stand in for it. -/
theorem resultOrStale_stale {error : FetchError} {old : Representation P} {now : SystemTime}
    (he : error.allowsStale = true) (h : old.staleAllowedAfterError now = true) :
    resultOrStale (.error error) (some old) now = .ok old := by
  unfold resultOrStale
  simp only [Option.filter_some, h, he, Bool.and_self, if_true]

theorem resultOrStale_refused {error : FetchError} {previous : Option (Representation P)} {now : SystemTime}
    (h : ¬(error.allowsStale = true ∧ ∃ old, previous = some old ∧ old.staleAllowedAfterError now = true)) :
    resultOrStale (.error error) previous now = .error error := by
  cases hresult : resultOrStale (.error error) previous now with
  | ok r =>
    rcases resultOrStale_ok hresult with hok | ⟨error', herr, hold, hallows, hstale⟩
    · cases hok
    · obtain rfl := Except.error.inj herr
      exact absurd ⟨hallows, r, hold, hstale⟩ h
  | error error' =>
    unfold resultOrStale at hresult
    dsimp only at hresult
    split at hresult
    · cases hresult
    · rw [Except.error.inj hresult]

theorem allowsStale_iff {error : FetchError} :
    error.allowsStale = true ↔ error.class = .transient ∨ error.class = .circuitOpen := by
  simp [FetchError.allowsStale]

end EnvoyWebBotAuth.Resolver
