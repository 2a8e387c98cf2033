import Mathlib.Data.List.Basic
/-!
# Settings, results and admission

The filter's configuration (`config.rs`), the result of verifying one request
and the admission decision it leads to (`policy.rs`). An identity exists only
inside `VerificationResult.verified`.
-/

namespace EnvoyWebBotAuth.Gateway

/-! ## Settings -/

def maxTimeoutMs : UInt64 := 2000

inductive Mode where
  | observe
  | optional
  | required
  deriving DecidableEq, Repr

structure ResolverSettings where
  cluster : String := "web-bot-auth-key-resolver"
  timeoutMs : UInt64 := 2000
  deriving DecidableEq

structure Settings where
  mode : Mode := .observe
  resolver : ResolverSettings := {}
  maxSignatureLifetimeSeconds : UInt64 := 86400
  clockSkewSeconds : UInt64 := 5
  requiredComponents : List String := []
  acceptLegacySignatureAgent : Bool := false
  forwardIdentityHeaders : Bool := true
  deriving DecidableEq

inductive ConfigError where
  | json
  | emptyResolverCluster
  | zeroResolverTimeout
  | resolverTimeoutTooLarge
  | zeroSignatureLifetime
  | invalidRequiredComponent (component : String)
  deriving DecidableEq

/-- The names a configuration may require. -/
def validComponentName (component : String) : Bool :=
  component ∈ ["@method", "@authority", "@scheme", "@target-uri", "@path", "@query", "signature",
    "signature-input", "signature-agent"]

/-- `Settings::parse`; `fromSlice` is the JSON decoder derived for the type. -/
def Settings.parse (fromSlice : List UInt8 → Option Settings) (config : List UInt8) :
    Except ConfigError Settings :=
  match if config.isEmpty then some {} else fromSlice config with
  | none => .error .json
  | some settings =>
    if settings.resolver.cluster.isEmpty then .error .emptyResolverCluster
    else if settings.resolver.timeoutMs = 0 then .error .zeroResolverTimeout
    else if settings.resolver.timeoutMs > maxTimeoutMs then .error .resolverTimeoutTooLarge
    else if settings.maxSignatureLifetimeSeconds = 0 then .error .zeroSignatureLifetime
    else match settings.requiredComponents.find? (fun component => !validComponentName component) with
      | some component => .error (.invalidRequiredComponent component)
      | none => .ok settings

/-- Every default passes its own check. -/
theorem settings_default_accepted (fromSlice : List UInt8 → Option Settings) :
    Settings.parse fromSlice [] = .ok {} := by
  simp [Settings.parse, maxTimeoutMs]

theorem settings_parse_components {fromSlice : List UInt8 → Option Settings} {config : List UInt8}
    {settings : Settings} (h : Settings.parse fromSlice config = .ok settings) :
    ∀ component ∈ settings.requiredComponents, validComponentName component = true := by
  unfold Settings.parse at h
  split at h
  · cases h
  · rename_i s _
    repeat' split at h
    all_goals cases h
    rename_i hf
    intro component hc
    simpa using List.find?_eq_none.1 hf component hc

/-! ## Results -/

inductive InvalidKind where
  | malformed
  | rejected
  deriving DecidableEq, Repr

inductive UnverifiedKind where
  | unsupported
  | keyNotFound
  | unavailable
  deriving DecidableEq, Repr

inductive Reason where
  | unsigned
  | incompleteFields
  | requestBodyUnsupported
  | requestCapture
  | malformedProfile
  | unsupportedMultipleSignatures
  | missingSignatureAgent
  | signatureAgentNotBound
  | unsupportedDiscoveryType
  | invalidDiscoveryUrl
  | profileFieldTooLarge
  | missingRequiredComponent
  | invalidFreshness
  | unsupportedAlgorithm
  | resolverEncoding
  | resolverUnavailable
  | resolverResponse
  | resolverCalloutMismatch
  | keyNotFound
  | resolverIdentifier
  | keyThumbprint
  | keyAlgorithm
  | signatureVerification
  | verified
  deriving DecidableEq, Repr

def Reason.asStr : Reason → String
  | .unsigned => "unsigned"
  | .incompleteFields => "incomplete_fields"
  | .requestBodyUnsupported => "request_body_unsupported"
  | .requestCapture => "request_capture"
  | .malformedProfile => "malformed_profile"
  | .unsupportedMultipleSignatures => "unsupported_multiple_signatures"
  | .missingSignatureAgent => "missing_signature_agent"
  | .signatureAgentNotBound => "signature_agent_not_bound"
  | .unsupportedDiscoveryType => "unsupported_discovery_type"
  | .invalidDiscoveryUrl => "invalid_discovery_url"
  | .profileFieldTooLarge => "profile_field_too_large"
  | .missingRequiredComponent => "missing_required_component"
  | .invalidFreshness => "invalid_freshness"
  | .unsupportedAlgorithm => "unsupported_algorithm"
  | .resolverEncoding => "resolver_encoding"
  | .resolverUnavailable => "resolver_unavailable"
  | .resolverResponse => "resolver_response"
  | .resolverCalloutMismatch => "resolver_callout_mismatch"
  | .keyNotFound => "key_not_found"
  | .resolverIdentifier => "resolver_identifier"
  | .keyThumbprint => "key_thumbprint"
  | .keyAlgorithm => "key_algorithm"
  | .signatureVerification => "signature_verification"
  | .verified => "verified"

structure VerifiedIdentity where
  identifier : String
  keyId : String
  deriving DecidableEq, Repr

inductive VerificationResult where
  | notPresent (reason : Reason)
  | invalid (kind : InvalidKind) (reason : Reason)
  | unverified (kind : UnverifiedKind) (reason : Reason)
  | verified (identity : VerifiedIdentity)
  deriving DecidableEq, Repr

namespace VerificationResult

def status : VerificationResult → String
  | .notPresent _ => "not-present"
  | .invalid _ _ => "invalid"
  | .unverified _ _ => "unverified"
  | .verified _ => "verified"

def reason : VerificationResult → Reason
  | .notPresent r | .invalid _ r | .unverified _ r => r
  | .verified _ => .verified

def identity : VerificationResult → Option VerifiedIdentity
  | .verified id => some id
  | _ => none

theorem identity_eq_some {r : VerificationResult} {id : VerifiedIdentity} :
    r.identity = some id ↔ r = .verified id := by
  cases r <;> simp [identity]

end VerificationResult

/-! ## Admission -/

inductive Admission where
  | allow
  | reject (status : UInt32) (challenge : Bool)
  deriving DecidableEq, Repr

def admission (mode : Mode) (result : VerificationResult) : Admission :=
  if mode = .observe then .allow
  else match result with
    | .notPresent _ => match mode with
      | .observe | .optional => .allow
      | .required => .reject 403 true
    | .invalid .malformed _ => .reject 400 false
    | .invalid .rejected _ | .unverified .unsupported _ | .unverified .keyNotFound _ => .reject 403 false
    | .unverified .unavailable _ => .reject 503 false
    | .verified _ => .allow

/-- Required mode admits a verified result only. -/
theorem admission_required {r : VerificationResult} (h : admission .required r = .allow) :
    ∃ id, r = .verified id := by
  cases r with
  | verified id => exact ⟨id, rfl⟩
  | notPresent _ => cases h
  | invalid k _ => cases k <;> cases h
  | unverified k _ => cases k <;> cases h

/-- Optional mode also admits a request that carried no signature. -/
theorem admission_optional {r : VerificationResult} (h : admission .optional r = .allow) :
    (∃ id, r = .verified id) ∨ ∃ reason, r = .notPresent reason := by
  cases r with
  | verified id => exact .inl ⟨id, rfl⟩
  | notPresent reason => exact .inr ⟨reason, rfl⟩
  | invalid k _ => cases k <;> cases h
  | unverified k _ => cases k <;> cases h

end EnvoyWebBotAuth.Gateway
