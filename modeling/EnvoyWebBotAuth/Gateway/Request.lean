import EnvoyWebBotAuth.Lib.HeaderMap
import EnvoyWebBotAuth.Lib.Result
import EnvoyWebBotAuth.Lib.Text
import EnvoyWebBotAuth.Gateway.Message
/-!
# The captured request

Copying the pseudo headers and the signature fields out of Envoy and showing
them as a signed message (`request.rs`).
-/
open EnvoyWebBotAuth.Lib EnvoyWebBotAuth.Protocol

namespace EnvoyWebBotAuth.Gateway

def pseudoHeaderMethod : String := ":method"
def pseudoHeaderAuthority : String := ":authority"
def pseudoHeaderPath : String := ":path"
def pseudoHeaderScheme : String := ":scheme"
def headerSignature : String := "signature"
def headerSignatureInput : String := "signature-input"
def headerSignatureAgent : String := "signature-agent"
def headerStatus : String := "x-web-bot-auth-status"
def headerIdentity : String := "x-web-bot-auth-identity"
def headerKeyId : String := "x-web-bot-auth-keyid"

inductive RequestCaptureError where
  | missingHeader (name : String)
  | invalidUtf8 (name : String)
  | nonAsciiHeader (name : String)
  | headerTooLarge (name : String)
  deriving DecidableEq

def maxSignatureHeaderValues : Nat := 16
def maxSignatureHeaderValueBytes : Nat := 4 * 1024
def maxSignatureFieldBytes : Nat := 8 * 1024
def maxSignatureHeadersBytes : Nat := 16 * 1024

inductive SignatureHeaderState where
  | unsigned
  | incomplete
  | candidate
  deriving DecidableEq, Repr

structure RequestComponents where
  method : String
  scheme : String
  authority : String
  path : String
  query : String
  signature : List String
  signatureInput : List String
  signatureAgent : List String
  deriving DecidableEq

/-! ## Capture -/

def RequestComponents.fromPseudoHeaders (method authority rawPath : String) : RequestComponents :=
  let split := match splitOnce '?' rawPath.toList with
    | some (path, rest) => (path, '?' :: rest)
    | none => (rawPath.toList, [])
  { method
    scheme := "https"
    authority := String.ofList (trimAscii authority.toList)
    path := String.ofList split.1
    query := String.ofList split.2
    signature := []
    signatureInput := []
    signatureAgent := [] }

/-- ASCII bytes are valid UTF-8, one character each, so that test comes first;
other bytes fail, as text that is not ASCII or as no text at all. -/
def decodeAsciiHeader (buffer : Bytes) (name : String) : Except RequestCaptureError String :=
  if ∀ b ∈ buffer, b < 128 then .ok (String.ofList (buffer.map (fun b => Char.ofNat b.toNat)))
  else if (ByteArray.mk buffer.toArray).validateUTF8 then .error (.nonAsciiHeader name)
  else .error (.invalidUtf8 name)

/-- `usize::checked_add` -/
def checkedAddUsize (a b : Nat) : Option Nat := if a + b < 2 ^ 64 then some (a + b) else none

/-- The closure of `copy_ascii_header_values` over the values in order, with the
bytes of the field and of all fields counted so far. -/
def copyValues (name : String) : List Bytes → Nat → Nat → Except RequestCaptureError (List String × Nat)
  | [], _, totalBytes => .ok ([], totalBytes)
  | buffer :: rest, fieldBytes, totalBytes => do
    let valueBytes := buffer.length
    let fieldBytes ← okOr (.headerTooLarge name)
      ((checkedAddUsize fieldBytes valueBytes).filter (· ≤ maxSignatureFieldBytes))
    let totalBytes ← okOr (.headerTooLarge name)
      ((checkedAddUsize totalBytes valueBytes).filter (· ≤ maxSignatureHeadersBytes))
    ensure (valueBytes ≤ maxSignatureHeaderValueBytes) (.headerTooLarge name)
    let value ← decodeAsciiHeader buffer name
    let (values, totalBytes) ← copyValues name rest fieldBytes totalBytes
    .ok (value :: values, totalBytes)

def copyAsciiHeaderValues (buffers : List Bytes) (name : String) (totalBytes : Nat) :
    Except RequestCaptureError (List String × Nat) := do
  ensure (buffers.length ≤ maxSignatureHeaderValues) (.headerTooLarge name)
  copyValues name buffers 0 totalBytes

/-- The decoded first value of a pseudo header. -/
def pseudoHeader (headers : HeaderMap Bytes) (name : String) : Except RequestCaptureError String := do
  let buffer ← okOr (.missingHeader name) (headers.getFirst name)
  decodeAsciiHeader buffer name

/-- All decoded values of a signature field, and the bytes counted after it. -/
def signatureField (headers : HeaderMap Bytes) (name : String) (totalBytes : Nat) :
    Except RequestCaptureError (List String × Nat) := do
  ensure (headers.getAll name ≠ []) (.missingHeader name)
  copyAsciiHeaderValues (headers.getAll name) name totalBytes

def RequestComponents.tryFromEnvoy (headers : HeaderMap Bytes) : Except RequestCaptureError RequestComponents := do
  let method ← pseudoHeader headers pseudoHeaderMethod
  let authority ← pseudoHeader headers pseudoHeaderAuthority
  let scheme ← pseudoHeader headers pseudoHeaderScheme
  let rawPath ← pseudoHeader headers pseudoHeaderPath
  let (signature, total) ← signatureField headers headerSignature 0
  let (signatureInput, total) ← signatureField headers headerSignatureInput total
  let (signatureAgent, _) ← signatureField headers headerSignatureAgent total
  .ok { RequestComponents.fromPseudoHeaders method authority rawPath with
    scheme := String.ofList (scheme.toList.map Char.toLower)
    signature, signatureInput, signatureAgent }

def classifySignatureHeaders (hasSignature hasSignatureInput hasSignatureAgent : Bool) : SignatureHeaderState :=
  if !hasSignature && !hasSignatureInput && !hasSignatureAgent then .unsigned
  else if hasSignature && hasSignatureInput && hasSignatureAgent then .candidate
  else .incomplete

theorem classify_candidate {s i a : Bool} (h : classifySignatureHeaders s i a = .candidate) :
    s = true ∧ i = true ∧ a = true := by
  cases s <;> cases i <;> cases a <;> simp_all [classifySignatureHeaders]

/-! ## The signed message -/

variable (sfv : Sfv)

/-- Visit the lines in order into one dictionary, stopping at the first error. -/
def visitDictionaries : List String → Dictionary → Option Dictionary
  | [], dictionary => some dictionary
  | line :: lines, dictionary => (sfv.visitDictionary line dictionary).bind (visitDictionaries lines)

def selectDictionaryMember (fieldValues : List String) (key : String) : Option String := do
  let dictionary ← visitDictionaries sfv fieldValues IndexMap.empty
  match ← dictionary.get key with
  | .item item => some (sfv.serializeItem item)
  | .innerList _ => none

/-- `lookup_component` -/
def RequestComponents.lookupComponent (r : RequestComponents) : SignedMessage
  | .derived (.method false) => [r.method]
  | .derived (.authority false) => [r.authority]
  | .derived (.scheme false) => [r.scheme]
  | .derived (.targetUri false) => [r.scheme ++ "://" ++ r.authority ++ r.path ++ r.query]
  | .derived (.path false) => [r.path]
  | .derived (.query false) => [r.query]
  | .http field =>
    if field.name = headerSignatureAgent then
      match field.parameters with
      | [] => r.signatureAgent
      | [.key key] => (selectDictionaryMember sfv r.signatureAgent key).toList
      | _ => []
    else if field.parameters = [] then
      if field.name = headerSignature then r.signature
      else if field.name = headerSignatureInput then r.signatureInput
      else []
    else []
  | _ => []

end EnvoyWebBotAuth.Gateway
