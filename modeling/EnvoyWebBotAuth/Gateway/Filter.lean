import EnvoyWebBotAuth.Gateway.Verify
/-!
# The filter

The two callbacks of the filter (`filter.rs`) over what they see and change of
Envoy: the request headers, the calls made so far, the readings of the
monotonic clock so far. `Host` holds what the outside answers in one run.

`onRequestHeaders_cases` and `onHttpCalloutDone_cases` say all a callback can
do; everything about runs is derived from them.
-/
open EnvoyWebBotAuth.Lib EnvoyWebBotAuth.Protocol

namespace EnvoyWebBotAuth.Gateway

def metadataNamespace : String := "envoy.filters.http.web_bot_auth"

/-! ## Envoy -/

inductive EnvoyCall where
  | setDynamicMetadataStringBatch (ns : String) (entries : List (String × String))
  | setDynamicMetadataBool (ns : String) (key : String) (value : Bool)
  | incrementCounterVec (counter : Nat) (labels : List String) (value : UInt64)
  | recordHistogramValueVec (histogram : Nat) (labels : List String) (value : UInt64)
  | sendHttpCallout (cluster : String) (headers : List (String × String)) (body : Bytes) (timeoutMs : UInt64)
  | sendResponse (status : UInt32) (headers : List (String × String)) (body : String) (details : String)
  | continueDecoding
  | logError (message : String)
  /-- A mark, not a call: `apply_result` begins. -/
  | applyResult (result : VerificationResult)
  deriving DecidableEq

structure Envoy where
  headers : HeaderMap Bytes
  calls : List EnvoyCall
  instants : Nat

def Envoy.call (envoy : Envoy) (call : EnvoyCall) : Envoy := { envoy with calls := envoy.calls ++ [call] }

def Envoy.setRequestHeader (envoy : Envoy) (name : String) (value : String) : Envoy :=
  { envoy with headers := envoy.headers.set name value.toUTF8.toList }

def Envoy.removeRequestHeader (envoy : Envoy) (name : String) : Envoy :=
  { envoy with headers := envoy.headers.remove name }

inductive CalloutInitResult where
  | success
  | failure
  deriving DecidableEq

structure Host where
  /-- Whole seconds since the epoch when the filter reads the time. -/
  systemTime : Int
  /-- The readings of `Instant::now`, in nanoseconds. -/
  instant : Nat → Nat
  sendHttpCallout : String → List (String × String) → Bytes → UInt64 → CalloutInitResult × UInt64

/-- `Instant::now` -/
def Envoy.now (host : Host) (envoy : Envoy) : Nat × Envoy :=
  (host.instant envoy.instants, { envoy with instants := envoy.instants + 1 })

def unixTime (host : Host) : Int64 :=
  if 0 ≤ host.systemTime ∧ host.systemTime < 2 ^ 63 then Int64.ofInt host.systemTime else Int64.maxValue

inductive HeadersStatus where
  | continue
  | stopIteration
  | stopAllIterationAndWatermark
  deriving DecidableEq, Repr

inductive CalloutResult where
  | success
  | failure
  deriving DecidableEq

/-- The arguments of one `on_http_callout_done`. -/
structure CalloutDone where
  calloutId : UInt64
  result : CalloutResult
  responseHeaders : Option (List (Bytes × Bytes))
  responseBody : Option (List Bytes)

/-! ## The filter's state -/

structure PendingVerification (Verifier : Type) where
  calloutId : UInt64
  candidate : VerificationCandidate Verifier
  calloutStartedAt : Nat

structure WebBotAuthFilter (Verifier : Type) where
  settings : Settings
  pending : Option (PendingVerification Verifier)
  outcomeCounter : Option Nat
  durationHistogram : Option Nat

variable {Verifier KeyRing : Type}

def WebBotAuthFilter.new (settings : Settings) (outcomeCounter durationHistogram : Option Nat) :
    WebBotAuthFilter Verifier :=
  { settings, pending := none, outcomeCounter, durationHistogram }

def recordDuration (host : Host) (envoy : Envoy) (histogram : Option Nat) (phase result : String)
    (startedAt : Nat) : Envoy :=
  match histogram with
  | none => envoy
  | some histogram =>
    let (now, envoy) := envoy.now host
    let micros := (now - startedAt) / 1000
    let elapsedUs := if micros < 2 ^ 64 then UInt64.ofNat micros else UInt64.ofNat (2 ^ 64 - 1)
    envoy.call (.recordHistogramValueVec histogram [phase, result] elapsedUs)

def sanitizeAssertionHeaders (envoy : Envoy) : Envoy :=
  [headerStatus, headerIdentity, headerKeyId].foldl Envoy.removeRequestHeader envoy

/-! ## Applying a result -/

def challengeHeaders : List (String × String) :=
  [("content-type", "text/plain; charset=utf-8"),
   ("accept-signature", "sig=(\"@method\" \"@authority\" \"@path\" \"signature-agent\";key=\"sig\");alg=\"ed25519\";tag=\"web-bot-auth\"")]

def plainHeaders : List (String × String) := [("content-type", "text/plain; charset=utf-8")]

def denialBody (status : UInt32) : String :=
  if status = 400 then "malformed Web Bot Auth request\n"
  else if status = 503 then "Web Bot Auth verification unavailable\n"
  else "Web Bot Auth required or invalid\n"

/-- The metadata and the counter. -/
def recordOutcome (counter : Option Nat) (result : VerificationResult) (envoy : Envoy) : Envoy :=
  let status := result.status
  let reason := result.reason.asStr
  let envoy := envoy.call (.setDynamicMetadataStringBatch metadataNamespace [("status", status), ("reason", reason)])
  let envoy := match counter with
    | some counter => envoy.call (.incrementCounterVec counter [status, reason] 1)
    | none => envoy
  let envoy := envoy.call (.setDynamicMetadataBool metadataNamespace "verified" result.identity.isSome)
  match result.identity with
  | some identity => envoy.call (.setDynamicMetadataStringBatch metadataNamespace
      [("identity", identity.identifier), ("keyid", identity.keyId)])
  | none => envoy

/-- The assertion headers. -/
def forwardIdentity (settings : Settings) (result : VerificationResult) (envoy : Envoy) : Envoy :=
  if settings.forwardIdentityHeaders then
    let envoy := envoy.setRequestHeader headerStatus result.status
    match result.identity with
    | some identity =>
      (envoy.setRequestHeader headerIdentity identity.identifier).setRequestHeader headerKeyId identity.keyId
    | none => envoy
  else envoy

def WebBotAuthFilter.applyResult (filter : WebBotAuthFilter Verifier) (envoy : Envoy)
    (result : VerificationResult) : Admission × Envoy :=
  let envoy := envoy.call (.applyResult result)
  let envoy := recordOutcome filter.outcomeCounter result envoy
  let envoy := forwardIdentity filter.settings result envoy
  let decision := admission filter.settings.mode result
  match decision with
  | .reject status challenge =>
    let headers := if challenge then challengeHeaders else plainHeaders
    (decision, envoy.call (.sendResponse status headers (denialBody status) "web_bot_auth_denied"))
  | .allow => (decision, envoy)

def WebBotAuthFilter.finish (filter : WebBotAuthFilter Verifier) (envoy : Envoy) (result : VerificationResult) :
    HeadersStatus × WebBotAuthFilter Verifier × Envoy :=
  let (decision, envoy) := filter.applyResult envoy result
  match decision with
  | .allow => (.continue, filter, envoy)
  | .reject _ _ => (.stopIteration, filter, envoy)

/-! ## The callbacks -/

variable (sfv : Sfv) (wba : WebBotAuth Verifier KeyRing) (c : UrlCrate) (wire : WireJson) (host : Host)

def calloutHeaders : List (String × String) :=
  [(":method", "POST"), (":path", "/v1/resolve"), ("host", "web-bot-auth-resolver"),
   ("content-type", "application/json"), ("accept", "application/json")]

/-- `on_request_headers` from the parsed candidate on. -/
def WebBotAuthFilter.sendResolve (filter : WebBotAuthFilter Verifier) (envoy : Envoy)
    (candidate : VerificationCandidate Verifier) : HeadersStatus × WebBotAuthFilter Verifier × Envoy :=
  let (sendSetupStartedAt, envoy) := envoy.now host
  let resolverRequest : ResolveRequest := {
    apiVersion := .v1
    discovery := candidate.discovery
    agentUrl := candidate.signedUrl
    keyId := candidate.keyId }
  match wire.requestToVec resolverRequest with
  | none =>
    let envoy := recordDuration host envoy filter.durationHistogram "resolver_send" "error" sendSetupStartedAt
    filter.finish envoy (.unverified .unavailable .resolverEncoding)
  | some body =>
    if body.length > maxResolveBodyBytes then
      let envoy := recordDuration host envoy filter.durationHistogram "resolver_send" "error" sendSetupStartedAt
      filter.finish envoy (.invalid .malformed .profileFieldTooLarge)
    else
      let (calloutStartedAt, envoy) := envoy.now host
      let resolver := filter.settings.resolver
      let (result, calloutId) := host.sendHttpCallout resolver.cluster calloutHeaders body resolver.timeoutMs
      let envoy := envoy.call (.sendHttpCallout resolver.cluster calloutHeaders body resolver.timeoutMs)
      if result ≠ .success then
        let envoy := recordDuration host envoy filter.durationHistogram "resolver_send" "error" sendSetupStartedAt
        let envoy := recordDuration host envoy filter.durationHistogram "resolver_callout" "error" calloutStartedAt
        filter.finish envoy (.unverified .unavailable .resolverUnavailable)
      else
        let envoy := recordDuration host envoy filter.durationHistogram "resolver_send" "success" sendSetupStartedAt
        (.stopAllIterationAndWatermark, { filter with pending := some ⟨calloutId, candidate, calloutStartedAt⟩ }, envoy)

/-- `on_request_headers` on a request with all three fields and no body. -/
def WebBotAuthFilter.onCandidate (filter : WebBotAuthFilter Verifier) (envoy : Envoy) :
    HeadersStatus × WebBotAuthFilter Verifier × Envoy :=
  let (captureStartedAt, envoy) := envoy.now host
  match RequestComponents.tryFromEnvoy envoy.headers with
  | .error _ =>
    let envoy := recordDuration host envoy filter.durationHistogram "candidate_capture" "error" captureStartedAt
    filter.finish envoy (.invalid .malformed .requestCapture)
  | .ok request =>
    let envoy := recordDuration host envoy filter.durationHistogram "candidate_capture" "success" captureStartedAt
    let (parseStartedAt, envoy) := envoy.now host
    match VerificationCandidate.parse sfv wba c request filter.settings.acceptLegacySignatureAgent
      filter.settings.requiredComponents (unixTime host) filter.settings.maxSignatureLifetimeSeconds
      filter.settings.clockSkewSeconds with
    | .ok candidate =>
      let envoy := recordDuration host envoy filter.durationHistogram "candidate_parse" "success" parseStartedAt
      filter.sendResolve wire host envoy candidate
    | .error error =>
      let envoy := recordDuration host envoy filter.durationHistogram "candidate_parse" "error" parseStartedAt
      filter.finish envoy error.result

def WebBotAuthFilter.onRequestHeaders (filter : WebBotAuthFilter Verifier) (envoy : Envoy) (endOfStream : Bool) :
    HeadersStatus × WebBotAuthFilter Verifier × Envoy :=
  let envoy := sanitizeAssertionHeaders envoy
  let hasSignature := (envoy.headers.getFirst headerSignature).isSome
  let hasSignatureInput := (envoy.headers.getFirst headerSignatureInput).isSome
  let hasSignatureAgent := (envoy.headers.getFirst headerSignatureAgent).isSome
  match classifySignatureHeaders hasSignature hasSignatureInput hasSignatureAgent with
  | .unsigned => filter.finish envoy (.notPresent .unsigned)
  | .incomplete => filter.finish envoy (.invalid .malformed .incompleteFields)
  | .candidate =>
    if !endOfStream then filter.finish envoy (.unverified .unsupported .requestBodyUnsupported)
    else filter.onCandidate sfv wba c wire host envoy

/-- The response a callout brought, or why there is none. -/
def resolverResponse (done : CalloutDone) : Except Reason ResolveResponse :=
  if done.result ≠ .success ∨ responseStatus done.responseHeaders ≠ some 200 then .error .resolverUnavailable
  else okOr .resolverResponse ((done.responseBody.bind joinResponseBody).bind wire.responseFromSlice)

/-- Apply the result of a callback and resume the request if it is allowed. -/
def WebBotAuthFilter.resume (filter : WebBotAuthFilter Verifier) (envoy : Envoy) (result : VerificationResult) :
    Envoy :=
  let (decision, envoy) := filter.applyResult envoy result
  match decision with
  | .allow => envoy.call .continueDecoding
  | .reject _ _ => envoy

def WebBotAuthFilter.onHttpCalloutDone (filter : WebBotAuthFilter Verifier) (envoy : Envoy) (done : CalloutDone) :
    WebBotAuthFilter Verifier × Envoy :=
  match filter.pending with
  | none => (filter, envoy)
  | some pending =>
    let filter := { filter with pending := none }
    if pending.calloutId ≠ done.calloutId then
      let envoy := recordDuration host envoy filter.durationHistogram "resolver_callout" "error"
        pending.calloutStartedAt
      let envoy := envoy.call (.logError "web-bot-auth reason=resolver_callout_mismatch")
      (filter, filter.resume envoy (.unverified .unavailable .resolverCalloutMismatch))
    else
      let response := resolverResponse wire done
      let envoy := recordDuration host envoy filter.durationHistogram "resolver_callout"
        (if response.isOk then "success" else "error") pending.calloutStartedAt
      let (verifyStartedAt, envoy) := envoy.now host
      let result := verifyResolverResponse wba pending.candidate response
      let envoy := recordDuration host envoy filter.durationHistogram "response_verify" result.status verifyStartedAt
      (filter, filter.resume envoy result)

/-! ## What a callback can do -/

/-- The calls that decide a request. -/
def EnvoyCall.decisive : EnvoyCall → Bool
  | .applyResult _ | .sendResponse _ _ _ _ | .continueDecoding => true
  | _ => false

def Envoy.decisions (envoy : Envoy) : List EnvoyCall := envoy.calls.filter EnvoyCall.decisive

/-- Neither the request headers nor the decisions change. -/
def Quiet (e e' : Envoy) : Prop := e'.headers = e.headers ∧ e'.decisions = e.decisions

theorem Quiet.trans {e e' e'' : Envoy} (h : Quiet e e') (h' : Quiet e' e'') : Quiet e e'' :=
  ⟨h'.1.trans h.1, h'.2.trans h.2⟩

theorem quiet_refl (e : Envoy) : Quiet e e := ⟨rfl, rfl⟩

theorem quiet_now (e : Envoy) : Quiet e (e.now host).2 := ⟨rfl, rfl⟩

theorem decisions_call (e : Envoy) (call : EnvoyCall) :
    (e.call call).decisions = e.decisions ++ if call.decisive then [call] else [] := by
  cases h : call.decisive <;> simp [Envoy.decisions, Envoy.call, h]

theorem quiet_call (e : Envoy) {call : EnvoyCall} (h : call.decisive = false) : Quiet e (e.call call) :=
  ⟨rfl, by simp [decisions_call, h]⟩

theorem quiet_recordDuration (e : Envoy) (histogram : Option Nat) (phase result : String) (startedAt : Nat) :
    Quiet e (recordDuration host e histogram phase result startedAt) := by
  cases histogram with
  | none => exact quiet_refl e
  | some histogram => exact (quiet_now host e).trans (quiet_call _ rfl)

theorem quiet_recordOutcome (counter : Option Nat) (result : VerificationResult) (e : Envoy) :
    Quiet e (recordOutcome counter result e) := by
  unfold recordOutcome
  cases counter <;> cases result.identity <;> exact ⟨rfl, by simp [decisions_call, EnvoyCall.decisive]⟩

@[simp] theorem forwardIdentity_decisions (settings : Settings) (result : VerificationResult) (e : Envoy) :
    (forwardIdentity settings result e).decisions = e.decisions := by
  unfold forwardIdentity
  cases settings.forwardIdentityHeaders <;> cases result.identity <;> rfl

/-- The local reply of a decision, if it sends one. -/
def denial : Admission → List EnvoyCall
  | .allow => []
  | .reject status challenge =>
    [.sendResponse status (if challenge then challengeHeaders else plainHeaders) (denialBody status)
      "web_bot_auth_denied"]

/-- What a callout callback does after its decision. -/
def resumption : Admission → List EnvoyCall
  | .allow => [.continueDecoding]
  | .reject status challenge => denial (.reject status challenge)

/-- The assertion headers a result leaves upstream. -/
def assertedHeaders (settings : Settings) (result : VerificationResult) (headers : HeaderMap Bytes) :
    HeaderMap Bytes :=
  (forwardIdentity settings result ⟨headers, [], 0⟩).headers

theorem forwardIdentity_headers (settings : Settings) (result : VerificationResult) (e : Envoy) :
    (forwardIdentity settings result e).headers = assertedHeaders settings result e.headers := by
  unfold assertedHeaders forwardIdentity
  cases settings.forwardIdentityHeaders <;> cases result.identity <;> rfl

theorem applyResult_spec (filter : WebBotAuthFilter Verifier) (e : Envoy) (result : VerificationResult) :
    (filter.applyResult e result).1 = admission filter.settings.mode result ∧
    (filter.applyResult e result).2.headers = assertedHeaders filter.settings result e.headers ∧
    (filter.applyResult e result).2.decisions =
      e.decisions ++ .applyResult result :: denial (admission filter.settings.mode result) := by
  have hq := quiet_recordOutcome filter.outcomeCounter result (e.call (.applyResult result))
  have hd : (forwardIdentity filter.settings result
      (recordOutcome filter.outcomeCounter result (e.call (.applyResult result)))).decisions =
      e.decisions ++ [.applyResult result] := by
    rw [forwardIdentity_decisions, hq.2]
    simp [decisions_call, EnvoyCall.decisive]
  have hh : (forwardIdentity filter.settings result
      (recordOutcome filter.outcomeCounter result (e.call (.applyResult result)))).headers =
      assertedHeaders filter.settings result e.headers := by
    rw [forwardIdentity_headers, hq.1]
    rfl
  unfold WebBotAuthFilter.applyResult
  cases admission filter.settings.mode result with
  | allow => exact ⟨rfl, hh, hd⟩
  | reject status challenge =>
    refine ⟨rfl, hh, ?_⟩
    simp only [decisions_call, hd]
    simp [EnvoyCall.decisive, denial]

/-- The header callback's status for a decision. -/
def Admission.headersStatus : Admission → HeadersStatus
  | .allow => .continue
  | .reject _ _ => .stopIteration

theorem finish_eq (filter : WebBotAuthFilter Verifier) (e : Envoy) (result : VerificationResult) :
    filter.finish e result =
      ((admission filter.settings.mode result).headersStatus, filter, (filter.applyResult e result).2) := by
  obtain ⟨h, -⟩ := applyResult_spec filter e result
  unfold WebBotAuthFilter.finish
  simp only [h]
  cases admission filter.settings.mode result <;> rfl

theorem resume_decisions (filter : WebBotAuthFilter Verifier) (e : Envoy) (result : VerificationResult) :
    (filter.resume e result).decisions =
      e.decisions ++ .applyResult result :: resumption (admission filter.settings.mode result) := by
  obtain ⟨h, -, hd⟩ := applyResult_spec filter e result
  unfold WebBotAuthFilter.resume
  simp only [h]
  cases ha : admission filter.settings.mode result with
  | allow => simp [decisions_call, hd, ha, EnvoyCall.decisive, denial, resumption]
  | reject status challenge => simp [hd, ha, resumption]

theorem resume_headers (filter : WebBotAuthFilter Verifier) (e : Envoy) (result : VerificationResult) :
    (filter.resume e result).headers = assertedHeaders filter.settings result e.headers := by
  obtain ⟨h, hh, -⟩ := applyResult_spec filter e result
  unfold WebBotAuthFilter.resume
  simp only [h]
  cases admission filter.settings.mode result <;> exact hh

def assertionHeaders : List String := [headerStatus, headerIdentity, headerKeyId]

theorem sanitize_eq (e : Envoy) :
    sanitizeAssertionHeaders e = { e with headers := e.headers.without assertionHeaders } := by
  simp [sanitizeAssertionHeaders, Envoy.removeRequestHeader, HeaderMap.remove_eq_without,
    HeaderMap.without_without, assertionHeaders]

/-- The header callback decided: it applied a result that is not verified. -/
def DecidedEarly (filter : WebBotAuthFilter Verifier) (e : Envoy)
    (out : HeadersStatus × WebBotAuthFilter Verifier × Envoy) : Prop :=
  ∃ result e', Quiet e e' ∧ (∀ id, result ≠ .verified id) ∧ out = filter.finish e' result

/-- The header callback asked the resolver about `candidate` and waits. -/
def Waits (filter : WebBotAuthFilter Verifier) (e : Envoy) (candidate : VerificationCandidate Verifier)
    (out : HeadersStatus × WebBotAuthFilter Verifier × Envoy) : Prop :=
  ∃ calloutId startedAt e', Quiet e e' ∧
    out = (.stopAllIterationAndWatermark, { filter with pending := some ⟨calloutId, candidate, startedAt⟩ }, e')

theorem decidedEarly_of_quiet {filter : WebBotAuthFilter Verifier} {e e' : Envoy}
    {out : HeadersStatus × WebBotAuthFilter Verifier × Envoy} (hq : Quiet e e')
    (h : DecidedEarly filter e' out) : DecidedEarly filter e out := by
  obtain ⟨result, e'', hq', hr⟩ := h
  exact ⟨result, e'', hq.trans hq', hr⟩

theorem waits_of_quiet {filter : WebBotAuthFilter Verifier} {e e' : Envoy}
    {candidate : VerificationCandidate Verifier} {out : HeadersStatus × WebBotAuthFilter Verifier × Envoy}
    (hq : Quiet e e') (h : Waits filter e' candidate out) : Waits filter e candidate out := by
  obtain ⟨calloutId, startedAt, e'', hq', hr⟩ := h
  exact ⟨calloutId, startedAt, e'', hq.trans hq', hr⟩

theorem sendResolve_cases (filter : WebBotAuthFilter Verifier) (e : Envoy)
    (candidate : VerificationCandidate Verifier) :
    DecidedEarly filter e (filter.sendResolve wire host e candidate) ∨
    Waits filter e candidate (filter.sendResolve wire host e candidate) := by
  have hnow := quiet_now host e
  have hrec := fun e' result started =>
    quiet_recordDuration host e' filter.durationHistogram "resolver_send" result started
  unfold WebBotAuthFilter.sendResolve
  simp only
  split
  · exact .inl ⟨_, _, hnow.trans (hrec _ _ _), by simp, rfl⟩
  · rename_i body _
    split
    · exact .inl ⟨_, _, hnow.trans (hrec _ _ _), by simp, rfl⟩
    · have hcall : (EnvoyCall.sendHttpCallout filter.settings.resolver.cluster calloutHeaders body
          filter.settings.resolver.timeoutMs).decisive = false := rfl
      have hsent := (hnow.trans (quiet_now host _)).trans (quiet_call _ hcall)
      split
      · exact .inl ⟨_, _, (hsent.trans (hrec _ _ _)).trans (quiet_recordDuration ..), by simp, rfl⟩
      · exact .inr ⟨_, _, _, hsent.trans (hrec _ _ _), rfl⟩

/-- What holds of the sanitised request whose candidate the filter asks about. -/
structure Ready (filter : WebBotAuthFilter Verifier) (headers : HeaderMap Bytes) (endOfStream : Bool)
    (request : RequestComponents) (candidate : VerificationCandidate Verifier) : Prop where
  ended : endOfStream = true
  present : ∀ name ∈ [headerSignature, headerSignatureInput, headerSignatureAgent], headers.getAll name ≠ []
  captured : RequestComponents.tryFromEnvoy headers = .ok request
  parsed : VerificationCandidate.parse sfv wba c request filter.settings.acceptLegacySignatureAgent
    filter.settings.requiredComponents (unixTime host) filter.settings.maxSignatureLifetimeSeconds
    filter.settings.clockSkewSeconds = .ok candidate

theorem onCandidate_cases (filter : WebBotAuthFilter Verifier) (e : Envoy) :
    DecidedEarly filter e (filter.onCandidate sfv wba c wire host e) ∨
    ∃ request candidate, RequestComponents.tryFromEnvoy e.headers = .ok request ∧
      VerificationCandidate.parse sfv wba c request filter.settings.acceptLegacySignatureAgent
        filter.settings.requiredComponents (unixTime host) filter.settings.maxSignatureLifetimeSeconds
        filter.settings.clockSkewSeconds = .ok candidate ∧
      Waits filter e candidate (filter.onCandidate sfv wba c wire host e) := by
  have hnow := quiet_now host e
  unfold WebBotAuthFilter.onCandidate
  simp only
  split
  · exact .inl ⟨_, _, hnow.trans (quiet_recordDuration ..), by simp, rfl⟩
  · rename_i request hcap
    have hq := (hnow.trans (quiet_recordDuration host _ filter.durationHistogram "candidate_capture" "success"
      (e.now host).1)).trans (quiet_now host _)
    split
    · rename_i candidate hparse
      refine (sendResolve_cases wire host filter _ candidate).imp
        (decidedEarly_of_quiet (hq.trans (quiet_recordDuration ..))) fun hw => ?_
      exact ⟨request, candidate, hcap, hparse, waits_of_quiet (hq.trans (quiet_recordDuration ..)) hw⟩
    · rename_i error _
      exact .inl ⟨_, _, hq.trans (quiet_recordDuration ..), candidate_error_unverified error, rfl⟩

theorem onRequestHeaders_cases (filter : WebBotAuthFilter Verifier) (e : Envoy) (endOfStream : Bool) :
    DecidedEarly filter (sanitizeAssertionHeaders e) (filter.onRequestHeaders sfv wba c wire host e endOfStream) ∨
    ∃ request candidate,
      Ready sfv wba c host filter (sanitizeAssertionHeaders e).headers endOfStream request candidate ∧
      Waits filter (sanitizeAssertionHeaders e) candidate
        (filter.onRequestHeaders sfv wba c wire host e endOfStream) := by
  unfold WebBotAuthFilter.onRequestHeaders
  simp only
  split
  · exact .inl ⟨_, _, quiet_refl _, by simp, rfl⟩
  · exact .inl ⟨_, _, quiet_refl _, by simp, rfl⟩
  · rename_i hclass
    obtain ⟨hs, hi, ha⟩ := classify_candidate hclass
    cases endOfStream with
    | false => exact .inl ⟨_, _, quiet_refl _, by simp, rfl⟩
    | true =>
      rcases onCandidate_cases sfv wba c wire host filter (sanitizeAssertionHeaders e) with
        hd | ⟨request, candidate, hcap, hparse, hw⟩
      · exact .inl hd
      · refine .inr ⟨request, candidate, ⟨rfl, ?_, hcap, hparse⟩, hw⟩
        simp only [List.forall_mem_cons, List.not_mem_nil, false_imp_iff, implies_true, and_true]
        exact ⟨HeaderMap.getFirst_isSome_iff.1 hs, HeaderMap.getFirst_isSome_iff.1 hi,
          HeaderMap.getFirst_isSome_iff.1 ha⟩

/-- With nothing pending a callback changes nothing. -/
theorem onHttpCalloutDone_idle {filter : WebBotAuthFilter Verifier} (h : filter.pending = none) (e : Envoy)
    (done : CalloutDone) : filter.onHttpCalloutDone wba wire host e done = (filter, e) := by
  simp [WebBotAuthFilter.onHttpCalloutDone, h]

/-- With a verification pending a callback consumes it and applies one result. -/
theorem onHttpCalloutDone_cases (filter : WebBotAuthFilter Verifier) {pending : PendingVerification Verifier}
    (h : filter.pending = some pending) (e : Envoy) (done : CalloutDone) :
    ∃ result e', Quiet e e' ∧
      filter.onHttpCalloutDone wba wire host e done =
        ({ filter with pending := none }, { filter with pending := none : WebBotAuthFilter Verifier }.resume e' result) ∧
      ∀ id, result = .verified id → pending.calloutId = done.calloutId ∧
        verifyResolverResponse wba pending.candidate (resolverResponse wire done) = .verified id := by
  have hrec := quiet_recordDuration host e filter.durationHistogram "resolver_callout"
  unfold WebBotAuthFilter.onHttpCalloutDone
  simp only [h]
  split
  · exact ⟨_, _, (hrec _ _).trans (quiet_call _ rfl), rfl, nofun⟩
  · rename_i hid
    refine ⟨_, _, ((hrec _ _).trans (quiet_now host _)).trans (quiet_recordDuration ..), rfl, ?_⟩
    exact fun id hr => ⟨not_not.1 hid, hr⟩

/-! ## Runs -/

/-- A filter instance serves one request: the header callback, then whatever
callout callbacks come. -/
structure Outcome (Verifier : Type) where
  status : HeadersStatus
  filter : WebBotAuthFilter Verifier
  envoy : Envoy

def onCallouts (filter : WebBotAuthFilter Verifier) (envoy : Envoy) (callouts : List CalloutDone) :
    WebBotAuthFilter Verifier × Envoy :=
  callouts.foldl (fun s done => s.1.onHttpCalloutDone wba wire host s.2 done) (filter, envoy)

theorem onCallouts_idle {filter : WebBotAuthFilter Verifier} (h : filter.pending = none) (e : Envoy)
    (callouts : List CalloutDone) : onCallouts wba wire host filter e callouts = (filter, e) := by
  unfold onCallouts
  induction callouts with
  | nil => rfl
  | cons done callouts ih => rw [List.foldl_cons, onHttpCalloutDone_idle wba wire host h, ih]

/-- Only the first callback counts. -/
theorem onCallouts_cons (filter : WebBotAuthFilter Verifier) (e : Envoy) (done : CalloutDone)
    (callouts : List CalloutDone) :
    onCallouts wba wire host filter e (done :: callouts) = filter.onHttpCalloutDone wba wire host e done := by
  have hidle : (filter.onHttpCalloutDone wba wire host e done).1.pending = none := by
    cases h : filter.pending with
    | none => rw [onHttpCalloutDone_idle wba wire host h]; exact h
    | some pending =>
      obtain ⟨_, _, -, heq, -⟩ := onHttpCalloutDone_cases wba wire host filter h e done
      rw [heq]
  exact onCallouts_idle wba wire host hidle _ callouts

def WebBotAuthFilter.run (filter : WebBotAuthFilter Verifier) (headers : HeaderMap Bytes) (endOfStream : Bool)
    (callouts : List CalloutDone) : Outcome Verifier :=
  let (status, filter, envoy) := filter.onRequestHeaders sfv wba c wire host ⟨headers, [], 0⟩ endOfStream
  let (filter, envoy) := onCallouts wba wire host filter envoy callouts
  ⟨status, filter, envoy⟩

/-- The header callback decided the request by a result that is not verified. -/
structure Early (filter : WebBotAuthFilter Verifier) (headers : HeaderMap Bytes) (result : VerificationResult)
    (out : Outcome Verifier) : Prop where
  result_ne : ∀ id, result ≠ .verified id
  status : out.status = (admission filter.settings.mode result).headersStatus
  restored : out.filter = filter
  decisions : out.envoy.decisions = .applyResult result :: denial (admission filter.settings.mode result)
  upstream : out.envoy.headers = assertedHeaders filter.settings result (headers.without assertionHeaders)

/-- The request still waits for the resolver. -/
structure Waiting (headers : HeaderMap Bytes) (out : Outcome Verifier) : Prop where
  status : out.status = .stopAllIterationAndWatermark
  pending : out.filter.pending.isSome
  decisions : out.envoy.decisions = []
  upstream : out.envoy.headers = headers.without assertionHeaders

/-- A callout callback decided the request. -/
structure Late (filter : WebBotAuthFilter Verifier) (headers : HeaderMap Bytes) (result : VerificationResult)
    (out : Outcome Verifier) : Prop where
  status : out.status = .stopAllIterationAndWatermark
  restored : out.filter = filter
  decisions : out.envoy.decisions = .applyResult result :: resumption (admission filter.settings.mode result)
  upstream : out.envoy.headers = assertedHeaders filter.settings result (headers.without assertionHeaders)

/-- A run is decided by the header callback, or waits, or is decided by the
first callout callback. -/
theorem run_cases (filter : WebBotAuthFilter Verifier) (hnone : filter.pending = none)
    (headers : HeaderMap Bytes) (endOfStream : Bool) (callouts : List CalloutDone) :
    (∃ result, Early filter headers result (filter.run sfv wba c wire host headers endOfStream callouts)) ∨
    ∃ request candidate,
      Ready sfv wba c host filter (headers.without assertionHeaders) endOfStream request candidate ∧
      ((callouts = [] ∧ Waiting headers (filter.run sfv wba c wire host headers endOfStream callouts)) ∨
       ∃ done rest result, callouts = done :: rest ∧
        Late filter headers result (filter.run sfv wba c wire host headers endOfStream callouts) ∧
        ∀ id, result = .verified id →
          verifyResolverResponse wba candidate (resolverResponse wire done) = .verified id) := by
  have hcases := onRequestHeaders_cases sfv wba c wire host filter ⟨headers, [], 0⟩ endOfStream
  unfold WebBotAuthFilter.run
  rw [sanitize_eq] at hcases
  rcases hcases with ⟨result, e', ⟨hh, hd⟩, hne, heq⟩ | ⟨request, candidate, hready, id, started, e', ⟨hh, hd⟩, heq⟩
  · obtain ⟨-, hheaders, hdec⟩ := applyResult_spec filter e' result
    rw [finish_eq] at heq
    refine .inl ⟨result, ?_⟩
    simp only [heq, onCallouts_idle wba wire host hnone]
    exact ⟨hne, rfl, rfl, by rw [hdec, hd]; rfl, by rw [hheaders, hh]⟩
  · refine .inr ⟨request, candidate, hready, ?_⟩
    simp only [heq]
    cases callouts with
    | nil => exact .inl ⟨rfl, rfl, rfl, by rw [onCallouts, List.foldl_nil]; exact hd, hh⟩
    | cons done rest =>
      obtain ⟨result, e'', ⟨hh', hd'⟩, hdone, hver⟩ :=
        onHttpCalloutDone_cases wba wire host { filter with pending := some ⟨id, candidate, started⟩ } rfl e' done
      refine .inr ⟨done, rest, result, rfl, ?_, fun i hi => (hver i hi).2⟩
      rw [onCallouts_cons, hdone]
      refine ⟨rfl, by simp [← hnone], ?_, ?_⟩
      · rw [resume_decisions, hd', hd]; rfl
      · rw [resume_headers, hh', hh]

end EnvoyWebBotAuth.Gateway
