import EnvoyWebBotAuth.Lib.IndexMap
import EnvoyWebBotAuth.Protocol.Wire
/-!
# Structured fields and message signatures

What the filter uses of the `sfv` and `web-bot-auth` crates: their data types
as the code sees them, and their functions as the parameters `Sfv` and
`WebBotAuth`. `Lawful` states what the code relies on.
-/
open EnvoyWebBotAuth.Lib EnvoyWebBotAuth.Protocol

namespace EnvoyWebBotAuth.Gateway

/-! ## Structured fields -/

inductive BareItem where
  | integer (i : Int)
  | decimal (thousandths : Int)
  | string (s : String)
  | token (s : String)
  | byteSequence (b : Bytes)
  | boolean (b : Bool)
  | date (seconds : Int)
  | displayString (s : String)
  deriving DecidableEq

def BareItem.asString : BareItem → Option String
  | .string s => some s
  | _ => none

def BareItem.asToken : BareItem → Option String
  | .token s => some s
  | _ => none

abbrev Parameters := IndexMap String BareItem

structure Item where
  bareItem : BareItem
  params : Parameters
  deriving DecidableEq

structure InnerList where
  items : List Item
  params : Parameters
  deriving DecidableEq

inductive ListEntry where
  | item (i : Item)
  | innerList (l : InnerList)
  deriving DecidableEq

abbrev Dictionary := IndexMap String ListEntry

structure Sfv where
  parseDictionary : String → Option Dictionary
  /-- `parse_dictionary_with_visitor`, the visitor being a dictionary. -/
  visitDictionary : String → Dictionary → Option Dictionary
  parseItem : String → Option Item
  serializeItem : Item → String
  /-- The items the crate's types admit: keys, tokens and strings of the
  allowed characters, numbers in range. -/
  WellFormed : Item → Prop

structure Sfv.Lawful (sfv : Sfv) : Prop where
  /-- A line is an error, or a list of entries that both forms insert in order. -/
  entries : ∀ line, (sfv.parseDictionary line = none ∧ ∀ d, sfv.visitDictionary line d = none) ∨
    ∃ es, sfv.parseDictionary line = some (IndexMap.ofEntries es) ∧
      ∀ d, sfv.visitDictionary line d = some (d.extend es)
  /-- What is parsed is well formed. -/
  wellFormed : ∀ line d key item, sfv.parseDictionary line = some d → d.get key = some (.item item) →
    sfv.WellFormed item
  /-- A serialised item is read back as itself, so two items never look alike. -/
  serialize_inj : ∀ i j, sfv.WellFormed i → sfv.WellFormed j → sfv.serializeItem i = sfv.serializeItem j → i = j

/-! ## Message signatures -/

inductive HTTPFieldParameter where
  | sf
  | key (k : String)
  /-- A parameter the code does not name. -/
  | other (name : String)
  deriving DecidableEq

structure HTTPField where
  name : String
  parameters : List HTTPFieldParameter
  deriving DecidableEq

inductive DerivedComponent where
  | method (req : Bool)
  | authority (req : Bool)
  | scheme (req : Bool)
  | targetUri (req : Bool)
  | requestTarget (req : Bool)
  | path (req : Bool)
  | query (req : Bool)
  /-- A component the code does not name. -/
  | other (name : String)
  deriving DecidableEq

inductive CoveredComponent where
  | http (field : HTTPField)
  | derived (component : DerivedComponent)
  deriving DecidableEq

structure ParameterDetails where
  created : Option Int64
  expires : Option Int64
  keyid : Option String
  deriving DecidableEq

structure SignatureParams where
  raw : Parameters
  details : ParameterDetails
  deriving DecidableEq

/-- The covered components with the values that enter the signature base. -/
structure SignatureBase where
  components : IndexMap CoveredComponent String
  parameters : SignatureParams
  deriving DecidableEq

structure ParsedLabel where
  label : String
  base : SignatureBase
  deriving DecidableEq

/-- A message, as `SignedMessage::lookup_component` shows it. -/
abbrev SignedMessage := CoveredComponent → List String

/-- `Thumbprintable::OKP` -/
structure Okp where
  crv : String
  x : String

structure WebBotAuth (Verifier KeyRing : Type) where
  /-- `CoveredComponent::try_from` -/
  componentOfItem : Item → Option CoveredComponent
  parse : SignedMessage → Option Verifier
  getParsedLabel : Verifier → ParsedLabel
  b64Thumbprint : Okp → String
  /-- `try_import_jwk` into the default key ring. -/
  tryImportJwk : Okp → Option KeyRing
  /-- Whether `verify` is `Ok`. -/
  verify : Verifier → KeyRing → Bool

/-- The value that enters the signature base for a component the message gives
one value for is that value. -/
structure WebBotAuth.Lawful {Verifier KeyRing : Type} (wba : WebBotAuth Verifier KeyRing) : Prop where
  base_value : ∀ message v, wba.parse message = some v →
    ∀ e ∈ (wba.getParsedLabel v).base.components.entries, ∀ x, message e.1 = [x] → e.2 = x

end EnvoyWebBotAuth.Gateway
