import EnvoyWebBotAuth.Lib.JsonString
import EnvoyWebBotAuth.Protocol.Identifier
import EnvoyWebBotAuth.Protocol.Wire
/-!
# The text of a resolve request

The JSON the derived codecs write for a request, member after member, and that
they read back what its strings say. The codecs themselves are outside.
-/
open EnvoyWebBotAuth.Lib

namespace EnvoyWebBotAuth.Protocol

/-- The bytes of ASCII text. -/
def asciiBytes (text : List Char) : Bytes := text.map (fun ch => UInt8.ofNat ch.toNat)

def DiscoveryMechanism.wireName : DiscoveryMechanism → List Char
  | .directory => "directory".toList
  | .jwksUri => "jwks_uri".toList
  | .cimd => "cimd".toList

def versionPart : List Char := "\x7b\"api_version\":\"v1\",\"discovery\":\"".toList
def agentUrlPart : List Char := "\",\"agent_url\":\"".toList
def keyIdPart : List Char := "\",\"key_id\":\"".toList
def endPart : List Char := "\"\x7d".toList

/-- A request whose strings are written so. -/
def requestText (discovery : DiscoveryMechanism) (agentUrl keyId : List Char) : List Char :=
  versionPart ++ (discovery.wireName ++ (agentUrlPart ++ (agentUrl ++ (keyIdPart ++ (keyId ++ endPart)))))

def printableText (text : String) : Bool := text.toList.all isPrintable

/-- What the derived codecs do with a request whose strings are printable ASCII,
and that a response is read back as it was written. -/
structure WireJson.Exact (wire : WireJson) : Prop where
  writes : ∀ r : ResolveRequest, printableText r.agentUrl = true → printableText r.keyId = true →
    wire.requestToVec r = some (asciiBytes
      (requestText r.discovery (escapeString r.agentUrl.toList) (escapeString r.keyId.toList)))
  reads : ∀ discovery agentUrl keyId url id, agentUrl.all isPrintable = true → keyId.all isPrintable = true →
    readString (agentUrl ++ ['"']) = some (url, []) → readString (keyId ++ ['"']) = some (id, []) →
    wire.requestFromSlice (asciiBytes (requestText discovery agentUrl keyId)) =
      some ⟨.v1, discovery, String.ofList url, String.ofList id⟩
  response : ∀ response body, wire.responseToVec response = some body → wire.responseFromSlice body = some response

theorem requestText_length (discovery : DiscoveryMechanism) (agentUrl keyId : List Char) :
    (requestText discovery agentUrl keyId).length ≤ 71 + agentUrl.length + keyId.length := by
  have hname : discovery.wireName.length ≤ 9 := by cases discovery <;> decide
  have hparts : versionPart.length = 33 ∧ agentUrlPart.length = 15 ∧ keyIdPart.length = 12 ∧ endPart.length = 2 := by
    decide
  simp only [requestText, List.length_append]
  omega

/-- No character takes less than a byte. -/
theorem length_le_utf8ByteSize (text : String) : text.toList.length ≤ text.utf8ByteSize := by
  have hlist : ∀ text : List Char, text.length ≤ (String.ofList text).utf8ByteSize := by
    intro text
    induction text with
    | nil => exact Nat.le_refl _
    | cons ch text ih =>
      have hpos := Char.utf8Size_pos ch
      rw [String.ofList_cons, String.utf8ByteSize_append, String.utf8ByteSize_singleton, List.length_cons]
      omega
  have h := hlist text.toList
  rwa [String.ofList_toList] at h

section Exact

variable {wire : WireJson} (hw : wire.Exact) (request : ResolveRequest)
  (hu : printableText request.agentUrl = true) (hk : printableText request.keyId = true)

include hw hu hk

/-- A request of printable strings is written, in a few bytes more than twice
their length, and read back. -/
theorem WireJson.Exact.round_trip : ∃ body, wire.requestToVec request = some body ∧
    body.length ≤ 71 + 2 * request.agentUrl.utf8ByteSize + 2 * request.keyId.utf8ByteSize ∧
    (request.apiVersion = .v1 → wire.requestFromSlice body = some request) := by
  refine ⟨_, hw.writes request hu hk, ?_, ?_⟩
  · have htext := requestText_length request.discovery (escapeString request.agentUrl.toList)
      (escapeString request.keyId.toList)
    have hurl := escapeString_length request.agentUrl.toList
    have hid := escapeString_length request.keyId.toList
    have hsize := length_le_utf8ByteSize request.agentUrl
    have hsize' := length_le_utf8ByteSize request.keyId
    rw [asciiBytes, List.length_map]
    omega
  · intro hversion
    have hread : ∀ text : String, printableText text = true →
        (escapeString text.toList).all isPrintable = true ∧
          readString (escapeString text.toList ++ ['"']) = some (text.toList, []) := by
      intro text h
      have hall := List.all_eq_true.1 h
      exact ⟨List.all_eq_true.2 (escapeString_printable hall), readString_escape hall []⟩
    rw [hw.reads _ _ _ _ _ (hread _ hu).1 (hread _ hk).1 (hread _ hu).2 (hread _ hk).2, String.ofList_toList,
      String.ofList_toList, ← hversion]

end Exact

/-! ## A sample codec -/

/-- The closing quote is the first character of each part but the first. -/
def afterQuote (part text : List Char) : Option (List Char) := (part.drop 1).isPrefixOf? text

def mechanismOf (name : List Char) : Option DiscoveryMechanism :=
  [.directory, .jwksUri, .cimd].find? (fun mechanism => mechanism.wireName = name)

def readRequestText (text : List Char) : Option ResolveRequest := do
  let (name, text) ← (versionPart.isPrefixOf? text).bind readString
  let mechanism ← mechanismOf name
  let (url, text) ← (afterQuote agentUrlPart text).bind readString
  let (id, text) ← (afterQuote keyIdPart text).bind readString
  if text = endPart.drop 1 then some ⟨.v1, mechanism, String.ofList url, String.ofList id⟩ else none

theorem readString_wireName (discovery : DiscoveryMechanism) (rest : List Char) :
    readString (discovery.wireName ++ '"' :: rest) = some (discovery.wireName, rest) := by
  have hplain : escapeString discovery.wireName = discovery.wireName := by cases discovery <;> decide
  have hprint : discovery.wireName.all isPrintable = true := by cases discovery <;> decide
  have h := readString_escape (List.all_eq_true.1 hprint) rest
  rwa [hplain] at h

theorem readRequestText_requestText {discovery : DiscoveryMechanism} {agentUrl keyId url id : List Char}
    (hu : readString (agentUrl ++ ['"']) = some (url, [])) (hk : readString (keyId ++ ['"']) = some (id, [])) :
    readRequestText (requestText discovery agentUrl keyId) =
      some ⟨.v1, discovery, String.ofList url, String.ofList id⟩ := by
  have hname : mechanismOf discovery.wireName = some discovery := by cases discovery <;> decide
  have hurl := readString_append hu (keyIdPart.drop 1 ++ (keyId ++ endPart))
  have hid := readString_append hk (endPart.drop 1)
  rw [List.append_assoc, List.nil_append] at hurl hid
  have hnext : ∀ (part rest : List Char), afterQuote part (part.drop 1 ++ rest) = some rest := fun part rest =>
    isPrefixOf?_append (part.drop 1) rest
  simp only [readRequestText, requestText, isPrefixOf?_append, Option.bind_eq_bind, Option.bind_some]
  have h₁ : agentUrlPart ++ (agentUrl ++ (keyIdPart ++ (keyId ++ endPart))) =
      '"' :: (agentUrlPart.drop 1 ++ (agentUrl ++ (keyIdPart ++ (keyId ++ endPart)))) := rfl
  have h₂ : keyIdPart ++ (keyId ++ endPart) = ['"'] ++ (keyIdPart.drop 1 ++ (keyId ++ endPart)) := rfl
  have h₃ : endPart = ['"'] ++ endPart.drop 1 := rfl
  rw [h₁, readString_wireName]
  simp only [Option.bind_some, hname, hnext]
  rw [h₂, hurl]
  simp only [Option.bind_some, hnext]
  rw [h₃, hid]
  simp

/-- A response the sample codec knows. -/
def sampleWireResponse : ResolveResponse :=
  .keyNotFound "https://agent.example/.well-known/http-message-signatures-directory"

def sampleWireBody : Bytes :=
  asciiBytes "\x7b\"result\":\"key_not_found\",\"normalized_identifier\":\"https://agent.example/.well-known/http-message-signatures-directory\"\x7d".toList

def sampleWire : WireJson where
  requestToVec r := some (asciiBytes
    (requestText r.discovery (escapeString r.agentUrl.toList) (escapeString r.keyId.toList)))
  requestFromSlice body := readRequestText (body.map (fun b => Char.ofNat b.toNat))
  responseToVec response := if response = sampleWireResponse then some sampleWireBody else none
  responseFromSlice body := if body = sampleWireBody then some sampleWireResponse else none

theorem asciiBytes_read {text : List Char} (h : text.all isPrintable = true) :
    (asciiBytes text).map (fun b => Char.ofNat b.toNat) = text := by
  rw [asciiBytes, List.map_map]
  conv_rhs => rw [← List.map_id text]
  apply List.map_congr_left
  intro ch hm
  have hp := List.all_eq_true.1 h ch hm
  simp only [isPrintable, Bool.and_eq_true, decide_eq_true_eq] at hp
  have hlt : ch.toNat < 2 ^ 8 := by omega
  simp only [Function.comp, UInt8.toNat_ofNat', id]
  rw [Nat.mod_eq_of_lt hlt, Char.ofNat_toNat]

theorem sampleWire_exact : sampleWire.Exact where
  writes _ _ _ := rfl
  reads discovery agentUrl keyId url id hu hk hurl hid := by
    have hprint : (requestText discovery agentUrl keyId).all isPrintable = true := by
      have hname : discovery.wireName.all isPrintable = true := by cases discovery <;> decide
      have hparts : versionPart.all isPrintable = true ∧ agentUrlPart.all isPrintable = true ∧
          keyIdPart.all isPrintable = true ∧ endPart.all isPrintable = true := by decide
      simp only [requestText, List.all_append, hname, hu, hk, hparts, Bool.and_self]
    simp only [sampleWire, asciiBytes_read hprint]
    exact readRequestText_requestText hurl hid
  response response body h := by
    simp only [sampleWire] at h ⊢
    split at h
    · rename_i hr
      obtain rfl := Option.some.inj h
      rw [if_pos rfl, hr]
    · cases h

end EnvoyWebBotAuth.Protocol
