import EnvoyWebBotAuth.Lib.HeaderMap
import EnvoyWebBotAuth.Lib.Text
import EnvoyWebBotAuth.Protocol.Wire
import EnvoyWebBotAuth.Resolver.Ssrf
/-!
# Fetches

The requests, responses and errors of a fetch (`fetch.rs`). Times and
durations are in nanoseconds.
-/
open EnvoyWebBotAuth.Lib EnvoyWebBotAuth.Protocol

namespace EnvoyWebBotAuth.Resolver

abbrev Duration := Nat
abbrev Instant := Nat
abbrev SystemTime := Nat

def fromSecs (s : Nat) : Duration := s * 1000000000
def fromMillis (ms : Nat) : Duration := ms * 1000000

/-- `Duration::saturating_add` -/
def durationSaturatingAdd (a b : Duration) : Duration := min (a + b) (fromSecs (2 ^ 64) - 1)

abbrev Headers := HeaderMap Bytes

/-- `HeaderValue::from_static` -/
def headerValue (s : String) : Bytes := s.toUTF8.toList

/-- `HeaderValue::to_str`: the text of visible ASCII and tabs. -/
def toStr (value : Bytes) : Option (List Char) :=
  if ∀ b ∈ value, (32 ≤ b ∧ b < 127) ∨ b = 9 then some (value.map (fun b => Char.ofNat b.toNat)) else none

/-! ## Errors -/

inductive FetchErrorKind where
  | badRequest
  | dns
  | unsafeAddress
  | rateLimited
  | overloaded
  | circuitOpen
  | timeout
  | transport
  | httpStatus
  | mediaType
  | contentEncoding
  | bodyTooLarge
  | invalidResource
  deriving DecidableEq, Repr

inductive FailureClass where
  | permanent
  | loadShed
  | transient
  | circuitOpen
  deriving DecidableEq, Repr

structure FetchError where
  kind : FetchErrorKind
  status : Option Nat
  retryAfter : Option Duration
  deriving DecidableEq, Repr

def FetchError.new (kind : FetchErrorKind) : FetchError := ⟨kind, none, none⟩

/-- The statuses a later attempt may get past. -/
def transientStatus (status : Nat) : Bool := status ∈ [408, 425, 429] || (500 ≤ status && status < 600)

/-- `FetchError::class` -/
def FetchError.class (error : FetchError) : FailureClass :=
  match error.kind with
  | .dns | .timeout | .transport => .transient
  | .httpStatus => if error.status.any transientStatus then .transient else .permanent
  | .circuitOpen => .circuitOpen
  | .rateLimited | .overloaded => .loadShed
  | .badRequest | .unsafeAddress | .mediaType | .contentEncoding | .bodyTooLarge | .invalidResource => .permanent

def FetchError.allowsStale (error : FetchError) : Bool :=
  error.class = .transient || error.class = .circuitOpen

/-! ## Requests and responses -/

inductive ResourceKind where
  | jwks
  | cimd
  deriving DecidableEq, Repr

def isDirectoryUrl (url : Url) : Bool := url.path = directoryPath && url.query.isNone && url.fragment.isNone

def ResourceKind.accept (kind : ResourceKind) (url : Url) : String :=
  match kind with
  | .jwks =>
    if isDirectoryUrl url then "application/http-message-signatures-directory+json"
    else "application/jwk-set+json, application/json"
  | .cimd => "application/json"

structure FetchRequest where
  url : Url
  kind : ResourceKind
  headers : Headers
  selectedIp : IpAddr
  deriving DecidableEq

structure FetchResponse where
  status : Nat
  headers : Headers
  body : Bytes
  deriving DecidableEq

end EnvoyWebBotAuth.Resolver
