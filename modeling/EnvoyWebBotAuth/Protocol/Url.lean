import EnvoyWebBotAuth.Lib.Segments
/-!
# URLs

The `url` crate is outside the repository. `Url` is what the code reads of a
parsed URL and sets in it; `UrlCrate` holds the crate's functions as
parameters. A value of `url::Url` comes out of the parser or of a setter,
which `UrlCrate.Valid` says; `UrlCrate.Lawful` is what the code relies on.
-/
open EnvoyWebBotAuth.Lib

namespace EnvoyWebBotAuth.Protocol

structure Url where
  scheme : String
  username : String
  password : Option String
  host : Option String
  port : Option UInt16
  path : String
  query : Option String
  fragment : Option String
  deriving DecidableEq, Repr

structure UrlCrate where
  parse : String → Option Url
  setPath : Url → String → Url
  asStr : Url → String
  portOrKnownDefault : Url → Option UInt16
  /-- `url.origin().ascii_serialization()` -/
  originAscii : Url → String
  /-- The ASCII characters that stand in a path as they are. -/
  pathChar : Char → Bool

variable (c : UrlCrate)

/-- The values of `url::Url` the code can hold. -/
inductive UrlCrate.Valid : Url → Prop where
  | parsed {s u} : c.parse s = some u → Valid u
  | setPath {u} (p : String) : Valid u → Valid (c.setPath u p)
  | setQuery {u} : Valid u → Valid { u with query := none }
  | setFragment {u} : Valid u → Valid { u with fragment := none }

/-- A dot in a path segment, as it is or escaped. -/
def dotSpellings : List (List Char) := [['.'], ['%', '2', 'e'], ['%', '2', 'E']]

/-- A Windows drive letter. -/
def driveLetter : List Char → Bool
  | [letter, mark] => letter.isAlpha && (mark = ':' || mark = '|')
  | _ => false

/-- The dot segments of the URL standard. The crate takes a drive letter for one
in the URL of any scheme, and does not go up from it. -/
def urlDots : DotForms Char where
  single s := s ∈ dotSpellings
  double s := s ∈ dotSpellings.flatMap (fun d => dotSpellings.map (d ++ ·))
  keeps := driveLetter
  single_nil := by decide
  double_nil := by decide

example : urlDots.removeDots '/' "a/C:/../b/%2e%2E/d".toList = "a/C:/d".toList := by decide +kernel

structure UrlCrate.Lawful : Prop where
  /-- The text of a URL is parsed as that URL. -/
  roundTrip : ∀ u, c.Valid u → u.scheme = "https" → c.parse (c.asStr u) = some u
  /-- A path starts with a slash and has no dot segments. -/
  path : ∀ u, c.Valid u → u.scheme = "https" → ∃ p, u.path = String.ofList ('/' :: p) ∧
    (∀ ch ∈ p, c.pathChar ch = true) ∧ ∀ s ∈ p.splitOn '/', urlDots.Plain s
  /-- Setting a path drops its dot segments and the segments they go up from. -/
  setPath : ∀ u p, c.Valid u → u.scheme = "https" → (∀ ch ∈ p, c.pathChar ch = true) →
    c.setPath u (String.ofList ('/' :: p)) = { u with path := String.ofList ('/' :: urlDots.removeDots '/' p) }
  pathChar : ∀ ch : Char, ch.isAlphanum ∨ ch ∈ ['-', '.', '_', '~', '%', '/'] → c.pathChar ch = true
  /-- The text of a URL holds its path, one byte for each character. -/
  asStr_size : ∀ u p, c.Valid u → u.scheme = "https" → (∀ ch ∈ p, c.pathChar ch = true) →
    (c.asStr { u with path := String.ofList p }).utf8ByteSize + u.path.length =
      (c.asStr u).utf8ByteSize + p.length

end EnvoyWebBotAuth.Protocol
