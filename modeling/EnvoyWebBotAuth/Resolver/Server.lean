import EnvoyWebBotAuth.Resolver.Tasks
/-!
# The HTTP boundary

The routes of the resolver and its answer to a request (`server.rs`). Outside
is `axum`: how it reads a JSON body under a limit, and the statuses it turns a
request down with (`JsonBody`).
-/
open EnvoyWebBotAuth.Lib EnvoyWebBotAuth.Protocol

namespace EnvoyWebBotAuth.Resolver

inductive HttpMethod where
  | get
  | head
  | post
  | other
  deriving DecidableEq

structure HttpRequest where
  method : HttpMethod
  path : String
  contentType : Option String
  body : Bytes

structure HttpResponse where
  status : Nat
  body : Bytes
  deriving DecidableEq

/-- `Json<ResolveRequest>` under a `DefaultBodyLimit`: the request, or the
status it is turned down with. -/
structure JsonBody where
  extract : Nat → HttpRequest → Except Nat ResolveRequest

structure JsonBody.Lawful (json : JsonBody) (wire : WireJson) : Prop where
  reads : ∀ limit request value, json.extract limit request = .ok value →
    request.body.length ≤ limit ∧ wire.requestFromSlice request.body = some value
  accepts : ∀ limit request value, request.contentType = some "application/json" → request.body.length ≤ limit →
    wire.requestFromSlice request.body = some value → json.extract limit request = .ok value
  rejects : ∀ limit request status, json.extract limit request = .error status → 400 ≤ status ∧ status < 500

/-- A request is resolved or answered at once. -/
inductive Routed where
  | resolve (request : ResolveRequest)
  | answered (response : HttpResponse)

variable {P L : Type} (json : JsonBody) (wire : WireJson) (s : ResolverService P L)

def health : HttpResponse := ⟨204, []⟩

def router (request : HttpRequest) : Routed :=
  if request.path = "/v1/resolve" then
    match request.method with
    | .post =>
      match json.extract s.limits.inboundBodyBytes request with
      | .ok value => .resolve value
      | .error status => .answered ⟨status, []⟩
    | _ => .answered ⟨405, []⟩
  else if request.path = "/healthz" then
    match request.method with
    | .get | .head => .answered health
    | _ => .answered ⟨405, []⟩
  else .answered ⟨404, []⟩

/-- The response to a call of `resolve`. One that cannot be written is an
internal error. -/
def resolutionResponse : Except FetchError ResolveResponse → HttpResponse
  | .ok response =>
    match wire.responseToVec response with
    | some body => ⟨200, body⟩
    | none => ⟨500, []⟩
  | .error error =>
    if error.kind = .badRequest then ⟨400, "invalid resolver request\n".toUTF8.toList⟩
    else ⟨503, "resolution unavailable\n".toUTF8.toList⟩

/-- A resolve call of the run has ended with the result, in time or because its
time was up. -/
def Ended (log : Log P) (request : ResolveRequest) (result : Except FetchError ResolveResponse) : Prop :=
  ∃ t, (∃ older, (.returned t (.resolve request) (.response result) :: older) <:+ log) ∨
    .dropped t (.resolve request) (some (.response result)) ∈ log

/-- What the resolver answers an HTTP request in a run. -/
inductive Serves (log : Log P) (request : HttpRequest) : HttpResponse → Prop where
  | resolved (value result) : router json s request = .resolve value → Ended log value result →
      Serves log request (resolutionResponse wire result)
  | answered (response) : router json s request = .answered response → Serves log request response

variable {json wire s}

/-! ## What a response tells -/

/-- A call whose time was up has failed. -/
theorem timed_out {state : ResolverState P L} (h : Reached s state) {t : Nat} {task : Task} {answer : Answer P}
    (hd : .dropped t task (some answer) ∈ state.log) : answer = .response (.error (.new .timeout)) := by
  obtain ⟨wall, instant, h⟩ := h
  obtain ⟨o, w, hdue⟩ := h.due _ hd
  simp only [ResolverService.system, Task.due] at hdue
  split at hdue
  · cases hdue
  · split at hdue
    · exact (Option.some.inj hdue).symm
    · cases hdue
  · cases hdue

/-- The status of what is answered at once. -/
theorem router_answered (hj : json.Lawful wire) {request : HttpRequest} {response : HttpResponse}
    (h : router json s request = .answered response) :
    response = health ∨ (400 ≤ response.status ∧ response.status < 500) := by
  unfold router at h
  split at h
  · split at h
    · cases he : json.extract s.limits.inboundBodyBytes request with
      | ok value =>
        rw [he] at h
        cases h
      | error status =>
        rw [he] at h
        cases h
        exact .inr (hj.rejects _ _ _ he)
    · cases h
      exact .inr (by decide)
  · split at h
    · split at h
      · cases h
        exact .inl rfl
      · cases h
        exact .inl rfl
      · cases h
        exact .inr (by decide)
    · cases h
      exact .inr (by decide)

/-- A success is the response of a resolve call for the request in the body. -/
theorem Serves.success (hj : json.Lawful wire) {state : ResolverState P L} (h : Reached s state)
    {request : HttpRequest} {response : HttpResponse} (hs : Serves json wire s state.log request response)
    (hok : response.status = 200) :
    ∃ value answer t older, wire.requestFromSlice request.body = some value ∧
      wire.responseToVec answer = some response.body ∧
      (.returned t (.resolve value) (.response (.ok answer)) :: older) <:+ state.log := by
  cases hs with
  | answered _ hr =>
    rcases router_answered hj hr with rfl | ⟨hlow, -⟩
    · cases hok
    · omega
  | resolved value result hr hend =>
    have hread : wire.requestFromSlice request.body = some value := by
      unfold router at hr
      split at hr
      · split at hr
        · cases he : json.extract s.limits.inboundBodyBytes request with
          | ok value' =>
            rw [he] at hr
            cases hr
            exact (hj.reads _ _ _ he).2
          | error status =>
            rw [he] at hr
            cases hr
        · cases hr
      · split at hr
        · split at hr <;> cases hr
        · cases hr
    cases result with
    | error error =>
      simp only [resolutionResponse] at hok
      split at hok <;> cases hok
    | ok answer =>
      simp only [resolutionResponse] at hok ⊢
      split at hok
      · rename_i body hbody
        obtain ⟨t, ⟨older, hl⟩ | hd⟩ := hend
        · exact ⟨value, answer, t, older, hread, by rw [hbody], hl⟩
        · cases timed_out h hd
      · cases hok

/-! ## A sample extractor -/

/-- What `axum` checks, in its order. -/
def sampleJson (wire : WireJson) : JsonBody where
  extract limit request :=
    if request.contentType ≠ some "application/json" then .error 415
    else if limit < request.body.length then .error 413
    else okOr 422 (wire.requestFromSlice request.body)

theorem sampleJson_lawful (wire : WireJson) : (sampleJson wire).Lawful wire where
  reads limit request value h := by
    simp only [sampleJson] at h
    split at h
    · cases h
    · split at h
      · cases h
      · rename_i hfits
        exact ⟨Nat.le_of_not_lt hfits, okOr_ok.1 h⟩
  accepts limit request value htype hfits hread := by
    simp only [sampleJson]
    rw [if_neg (not_not.2 htype), if_neg (Nat.not_lt.2 hfits), okOr_ok]
    exact hread
  rejects limit request status h := by
    simp only [sampleJson] at h
    split at h
    · cases h
      decide
    · split at h
      · cases h
        decide
      · cases hread : wire.requestFromSlice request.body with
        | none =>
          rw [hread] at h
          cases h
          decide
        | some value =>
          rw [hread] at h
          cases h

end EnvoyWebBotAuth.Resolver
