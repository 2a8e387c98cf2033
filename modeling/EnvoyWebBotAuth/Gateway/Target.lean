import EnvoyWebBotAuth.Gateway.Agent
import EnvoyWebBotAuth.Gateway.Capture
/-!
# What covered components say of a request

A signature over `@target-uri` is over one text, put together from four parts.
If the scheme has no colon, the authority no slash, and the path starts with
one, the parts can be read back from it.
-/
open EnvoyWebBotAuth.Lib EnvoyWebBotAuth.Protocol

namespace EnvoyWebBotAuth.Gateway

/-- The first value of a header, as text. -/
def headerText (headers : HeaderMap Bytes) (name : String) : List Char :=
  asciiText ((headers.getFirst name).getD [])

/-- The parts of a target URI end where they seem to end. -/
structure PlainParts (headers : HeaderMap Bytes) : Prop where
  scheme : ':' ∉ headerText headers pseudoHeaderScheme
  authority : '/' ∉ headerText headers pseudoHeaderAuthority
  path : (headerText headers pseudoHeaderPath).head? = some '/'

structure SameTarget (headers headers' : HeaderMap Bytes) : Prop where
  scheme : (headerText headers pseudoHeaderScheme).map Char.toLower =
    (headerText headers' pseudoHeaderScheme).map Char.toLower
  authority : trimAscii (headerText headers pseudoHeaderAuthority) =
    trimAscii (headerText headers' pseudoHeaderAuthority)
  path : headers.getFirst pseudoHeaderPath = headers'.getFirst pseudoHeaderPath

/-- `@path` and `@query` are `:path`, cut before its first question mark. -/
def SplitsPath (sfv : Sfv) (headers : HeaderMap Bytes) (r : RequestComponents) : Prop :=
  ∃ path query, r.lookupComponent sfv (.derived (.path false)) = [path] ∧
    r.lookupComponent sfv (.derived (.query false)) = [query] ∧ '?' ∉ path.toList ∧
    (query = "" ∨ query.toList.head? = some '?') ∧
    ∃ raw, headers.getFirst pseudoHeaderPath = some raw ∧ (path ++ query).toUTF8 = raw.toByteArray

section Parts

variable {headers headers' : HeaderMap Bytes} {r r' : RequestComponents}

theorem fromPseudoHeaders_split (method authority rawPath : String) :
    (RequestComponents.fromPseudoHeaders method authority rawPath).path ++
        (RequestComponents.fromPseudoHeaders method authority rawPath).query = rawPath ∧
      '?' ∉ (RequestComponents.fromPseudoHeaders method authority rawPath).path.toList ∧
      ((RequestComponents.fromPseudoHeaders method authority rawPath).query = "" ∨
        (RequestComponents.fromPseudoHeaders method authority rawPath).query.toList.head? = some '?') := by
  unfold RequestComponents.fromPseudoHeaders
  cases h : splitOnce '?' rawPath.toList with
  | none =>
    have hno := splitOnce_none h
    simp [hno]
  | some split =>
    obtain ⟨path, query⟩ := split
    obtain ⟨heq, hno⟩ := splitOnce_some h
    refine ⟨?_, by simpa using hno, .inr (by simp)⟩
    apply String.toList_inj.1
    simp [heq]

/-- The parts of a captured request. -/
structure Parts (headers : HeaderMap Bytes) (r : RequestComponents) : Prop where
  scheme : r.scheme.toList = (headerText headers pseudoHeaderScheme).map Char.toLower
  authority : r.authority.toList = trimAscii (headerText headers pseudoHeaderAuthority)
  path : ∃ raw, headers.getFirst pseudoHeaderPath = some raw ∧ IsAscii raw ∧ r.path ++ r.query = asciiString raw
  noQuery : '?' ∉ r.path.toList
  query : r.query = "" ∨ r.query.toList.head? = some '?'

theorem Captured.parts (h : Captured headers r) : Parts headers r := by
  obtain ⟨method, hm, -⟩ := h.pseudo pseudoHeaderMethod (by simp [pseudoHeaders])
  obtain ⟨authority, ha, -⟩ := h.pseudo pseudoHeaderAuthority (by simp [pseudoHeaders])
  obtain ⟨scheme, hs, -⟩ := h.pseudo pseudoHeaderScheme (by simp [pseudoHeaders])
  obtain ⟨path, hp, hascii⟩ := h.pseudo pseudoHeaderPath (by simp [pseudoHeaders])
  obtain rfl := h.request method authority scheme path hm ha hs hp
  obtain ⟨hsplit, hno, hquery⟩ := fromPseudoHeaders_split (asciiString method) (asciiString authority) (asciiString path)
  refine ⟨?_, ?_, ⟨path, hp, hascii, hsplit⟩, hno, hquery⟩
  · rw [headerText, hs, Option.getD_some]
    exact String.toList_ofList
  · rw [headerText, ha, Option.getD_some, ← toList_asciiString]
    exact String.toList_ofList

/-- `@path` and `@query` together are the bytes of `:path`. -/
theorem Parts.same_path (h : Parts headers r) (h' : Parts headers' r') (heq : r.path ++ r.query = r'.path ++ r'.query) :
    headers.getFirst pseudoHeaderPath = headers'.getFirst pseudoHeaderPath := by
  obtain ⟨raw, hraw, -, hpath⟩ := h.path
  obtain ⟨raw', hraw', -, hpath'⟩ := h'.path
  rw [hpath, hpath'] at heq
  rw [hraw, hraw', asciiText_injective (String.ofList_injective heq)]

theorem Parts.headerText_path (h : Parts headers r) :
    r.path.toList ++ r.query.toList = headerText headers pseudoHeaderPath := by
  obtain ⟨raw, hraw, -, hpath⟩ := h.path
  rw [← String.toList_append, hpath, headerText, hraw, toList_asciiString, Option.getD_some]

theorem toLower_eq_colon {c : Char} (h : c.toLower = ':') : c = ':' := by
  unfold Char.toLower at h
  split at h
  · rename_i hc
    have hval := congrArg (fun d => d.val.toNat) h
    have hlow : 'A'.val.toNat ≤ c.val.toNat := UInt32.le_iff_toNat_le.1 hc.1
    have hhigh : c.val.toNat ≤ 'Z'.val.toNat := UInt32.le_iff_toNat_le.1 hc.2
    simp only [UInt32.toNat_add] at hval
    have hA : 'A'.val.toNat = 65 := rfl
    have hZ : 'Z'.val.toNat = 90 := rfl
    have hd : ('a'.val - 'A'.val).toNat = 32 := rfl
    have hcolon : ':'.val.toNat = 58 := rfl
    omega
  · exact h

theorem colon_not_mem_toLower {text : List Char} (h : ':' ∉ text) : ':' ∉ text.map Char.toLower := by
  intro hm
  obtain ⟨c, hc, hlower⟩ := List.mem_map.1 hm
  rw [toLower_eq_colon hlower] at hc
  exact h hc

/-- The parts are read back from the text, one after the other. -/
theorem Parts.same_target (h : Parts headers r) (h' : Parts headers' r') (hplain : PlainParts headers)
    (hplain' : PlainParts headers')
    (heq : r.scheme ++ "://" ++ r.authority ++ r.path ++ r.query =
      r'.scheme ++ "://" ++ r'.authority ++ r'.path ++ r'.query) : SameTarget headers headers' := by
  obtain ⟨rest, hrest⟩ := List.head?_eq_some_iff.1 hplain.path
  obtain ⟨rest', hrest'⟩ := List.head?_eq_some_iff.1 hplain'.path
  have hpath := h.headerText_path.trans hrest
  have hpath' := h'.headerText_path.trans hrest'
  have htext := congrArg String.toList heq
  have hsep : "://".toList = ':' :: ['/', '/'] := rfl
  simp only [String.toList_append, hsep, List.append_assoc, hpath, hpath', h.scheme, h'.scheme, h.authority,
    h'.authority, List.cons_append, List.nil_append] at htext
  obtain ⟨hscheme, htext⟩ := append_cons_inj (colon_not_mem_toLower hplain.scheme)
    (colon_not_mem_toLower hplain'.scheme) htext
  obtain ⟨hauthority, htail⟩ := append_cons_inj (fun hm => hplain.authority (mem_trimAscii hm))
    (fun hm => hplain'.authority (mem_trimAscii hm)) (List.cons.inj (List.cons.inj htext).2).2
  refine ⟨hscheme, hauthority, h.same_path h' ?_⟩
  apply String.toList_inj.1
  rw [String.toList_append, String.toList_append, hpath, hpath', htail]

end Parts

theorem components_pin_request (sfv : Sfv) {headers headers' : HeaderMap Bytes} {r r' : RequestComponents}
    (h : RequestComponents.tryFromEnvoy headers = .ok r) (h' : RequestComponents.tryFromEnvoy headers' = .ok r') :
    (PlainParts headers → PlainParts headers' →
      r.lookupComponent sfv (.derived (.targetUri false)) = r'.lookupComponent sfv (.derived (.targetUri false)) →
      SameTarget headers headers') ∧
    (r.lookupComponent sfv (.derived (.path false)) = r'.lookupComponent sfv (.derived (.path false)) →
      r.lookupComponent sfv (.derived (.query false)) = r'.lookupComponent sfv (.derived (.query false)) →
      headers.getFirst pseudoHeaderPath = headers'.getFirst pseudoHeaderPath) ∧
    SplitsPath sfv headers r := by
  have hparts := (tryFromEnvoy_ok.1 h).parts
  have hparts' := (tryFromEnvoy_ok.1 h').parts
  refine ⟨fun hplain hplain' heq => ?_, fun hpath hquery => ?_, ?_⟩
  · exact hparts.same_target hparts' hplain hplain' (List.singleton_injective heq)
  · apply hparts.same_path hparts'
    have hp : r.path = r'.path := List.singleton_injective hpath
    have hq : r.query = r'.query := List.singleton_injective hquery
    rw [hp, hq]
  · obtain ⟨raw, hraw, hascii, hpath⟩ := hparts.path
    refine ⟨r.path, r.query, rfl, rfl, hparts.noQuery, hparts.query, raw, hraw, ?_⟩
    rw [hpath, toUTF8_asciiString hascii]

/-- Two captures of one target. -/
def sampleTarget (scheme authority : String) : RequestComponents :=
  requestOf (asciiBytes "GET".toList) (asciiBytes authority.toList) (asciiBytes scheme.toList)
    (asciiBytes "/a?b".toList) [asciiBytes "sig1=:AA==:".toList] [asciiBytes "sig1=()".toList]
    [asciiBytes "sig1=\"https://agent.example\"".toList]

theorem components_pin_request_sample : SameTarget (sampleLines "https" "example.test" "/a?b")
    (sampleLines "HTTPS" " example.test" "/a?b") := by
  have h : RequestComponents.tryFromEnvoy (sampleLines "https" "example.test" "/a?b") =
      .ok (sampleTarget "https" "example.test") := by decide +kernel
  have h' : RequestComponents.tryFromEnvoy (sampleLines "HTTPS" " example.test" "/a?b") =
      .ok (sampleTarget "HTTPS" " example.test") := by decide +kernel
  refine (components_pin_request sampleSfv h h').1 ⟨?_, ?_, ?_⟩ ⟨?_, ?_, ?_⟩ ?_
  all_goals decide +kernel

end EnvoyWebBotAuth.Gateway
