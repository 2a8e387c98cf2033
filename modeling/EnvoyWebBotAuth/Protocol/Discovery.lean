import EnvoyWebBotAuth.Protocol.Url
/-!
# Discovery targets

`parse_discovery_target` and the path normalisation behind
`normalized_identifier` (`protocol/src/lib.rs`). Paths of the `url` crate are
ASCII, so a byte of the source is a character here.
-/

namespace EnvoyWebBotAuth.Protocol

def maxAgentUrlBytes : Nat := 2048
def maxKeyIdBytes : Nat := 512
def maxResolveBodyBytes : Nat := 8 * 1024
def directoryPath : String := "/.well-known/http-message-signatures-directory"

inductive DiscoveryMechanism where
  | directory
  | jwksUri
  | cimd
  deriving DecidableEq, Repr

structure DiscoveryTarget where
  fetchUrl : Url
  normalizedIdentifier : String
  deriving DecidableEq

inductive DiscoveryUrlError where
  | tooLong
  | invalidUrl
  | invalidScheme
  | missingHost
  | userInfo
  | directoryNotOrigin
  deriving DecidableEq, Repr

/-! ## Percent encoding -/

/-- There are values, which `Fin.ofNat` asks for. -/
local instance hexDigits : NeZero 16 := ⟨by decide⟩

def hexValue (value : Char) : Option (Fin 16) :=
  if '0' ≤ value ∧ value ≤ '9' then some (Fin.ofNat 16 (value.toNat - '0'.toNat))
  else if 'a' ≤ value ∧ value ≤ 'f' then some (Fin.ofNat 16 (value.toNat - 'a'.toNat + 10))
  else if 'A' ≤ value ∧ value ≤ 'F' then some (Fin.ofNat 16 (value.toNat - 'A'.toNat + 10))
  else none

def hexDigit (value : Fin 16) : Char :=
  if value.val ≤ 9 then Char.ofNat ('0'.toNat + value.val) else Char.ofNat ('A'.toNat + value.val - 10)

/-- The test `byte.is_ascii_alphanumeric() || matches!(byte, b'-' | b'.' | b'_' | b'~')`. -/
def unreserved (byte : Char) : Bool := byte.isAlphanum || byte ∈ ['-', '.', '_', '~']

/-- The byte `(high << 4) | low`. -/
def escapedByte (high low : Fin 16) : Char := Char.ofNat (16 * high.val + low.val)

def normalizePercentEncoding : List Char → List Char
  | '%' :: h :: l :: rest =>
    match hexValue h, hexValue l with
    | some high, some low =>
      if unreserved (escapedByte high low) then escapedByte high low :: normalizePercentEncoding rest
      else '%' :: hexDigit high :: hexDigit low :: normalizePercentEncoding rest
    | _, _ => '%' :: normalizePercentEncoding (h :: l :: rest)
  | b :: rest => b :: normalizePercentEncoding rest
  | [] => []

/-! ## Dot segments -/

/-- Cut the output back to before its last `/`, or empty it. -/
def removeLastPathSegment (output : List Char) : List Char :=
  if '/' ∈ output then ((output.reverse.dropWhile (· ≠ '/')).drop 1).reverse else []

/-- One round of the loop of `remove_dot_segments`: the input left and the
output so far. -/
def dotStep (input output : List Char) : List Char × List Char :=
  if input = ['.'] ∨ input = ['.', '.'] then ([], output)
  else match input with
    | '.' :: '.' :: '/' :: rest => (rest, output)
    | '.' :: '/' :: rest => (rest, output)
    | ['/', '.'] => (['/'], output)
    | '/' :: '.' :: '/' :: rest => ('/' :: rest, output)
    | ['/', '.', '.'] => (['/'], removeLastPathSegment output)
    | '/' :: '.' :: '.' :: '/' :: rest => ('/' :: rest, removeLastPathSegment output)
    | c :: rest => (rest.dropWhile (· ≠ '/'), output ++ c :: rest.takeWhile (· ≠ '/'))
    | [] => ([], output)

/-- The loop, for at most `fuel` rounds. -/
def dotLoop : Nat → List Char → List Char → Option (List Char)
  | _, [], output => some output
  | 0, _ :: _, _ => none
  | fuel + 1, c :: cs, output => dotLoop fuel (dotStep (c :: cs) output).1 (dotStep (c :: cs) output).2

/-- Every round shortens the input. -/
theorem dotStep_length {input : List Char} (output : List Char) (h : input ≠ []) :
    (dotStep input output).1.length < input.length := by
  unfold dotStep
  split
  · exact List.length_pos_iff.2 h
  · split
    case h_7 => exact Nat.lt_succ_of_le (List.dropWhile_suffix _).length_le
    case h_8 => exact absurd rfl h
    all_goals simp only [List.length_cons, List.length_nil]; omega

/-- So the loop ends. -/
theorem dotLoop_isSome (fuel : Nat) : ∀ input output : List Char, input.length ≤ fuel →
    (dotLoop fuel input output).isSome := by
  induction fuel with
  | zero =>
    intro input output h
    obtain rfl := List.length_eq_zero_iff.1 (Nat.le_zero.1 h)
    rfl
  | succ fuel ih =>
    intro input output h
    cases input with
    | nil => rfl
    | cons c cs =>
      have hlt := dotStep_length output (List.cons_ne_nil c cs)
      exact ih _ _ (Nat.le_of_lt_succ (Nat.lt_of_lt_of_le hlt h))

def removeDotSegments (path : List Char) : List Char :=
  (dotLoop path.length path []).get (dotLoop_isSome _ _ _ (Nat.le_refl _))

def normalizePath (path : List Char) : List Char := removeDotSegments (normalizePercentEncoding path)

/-! ## The target of an agent URL -/

variable (c : UrlCrate)

/-- The URL whose text is the normalised identifier. -/
def normalizedUrl (url : Url) : Url :=
  let normalized := { url with query := none, fragment := none }
  c.setPath normalized (String.ofList (normalizePath normalized.path.toList))

def parseDiscoveryTarget (value : String) (discovery : DiscoveryMechanism) :
    Except DiscoveryUrlError DiscoveryTarget :=
  if value.utf8ByteSize > maxAgentUrlBytes then .error .tooLong
  else match c.parse value with
  | none => .error .invalidUrl
  | some url =>
    if url.scheme ≠ "https" then .error .invalidScheme
    else if url.host.isNone then .error .missingHost
    else if url.username ≠ "" ∨ url.password.isSome then .error .userInfo
    else if discovery = .directory ∧
        ((url.path ≠ "" ∧ url.path ≠ "/") ∨ url.query.isSome ∨ url.fragment.isSome) then
      .error .directoryNotOrigin
    else
      let url := if discovery = .directory then c.setPath url directoryPath else url
      let url := { url with fragment := none }
      .ok ⟨url, c.asStr (normalizedUrl c url)⟩

end EnvoyWebBotAuth.Protocol
