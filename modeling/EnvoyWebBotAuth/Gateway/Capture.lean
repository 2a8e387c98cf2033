import EnvoyWebBotAuth.Gateway.Request
import EnvoyWebBotAuth.Protocol.WireText
/-!
# The bounds of the capture

`copy_ascii_header_values` stops at the first value that breaks a limit. It
counts the bytes of its field and, over three calls, the bytes of all fields.
`copyValues_ok` says what the loop accepts from any two counters; from it the
capture succeeds exactly within its bounds.
-/
open EnvoyWebBotAuth.Lib EnvoyWebBotAuth.Protocol

namespace EnvoyWebBotAuth.Gateway

def IsAscii (buffer : Bytes) : Prop := ∀ b ∈ buffer, b < 128

instance (buffer : Bytes) : Decidable (IsAscii buffer) := decidableForallByte buffer

/-- The text of ASCII bytes. -/
def asciiText (buffer : Bytes) : List Char := buffer.map (fun b => Char.ofNat b.toNat)

def asciiString (buffer : Bytes) : String := String.ofList (asciiText buffer)

/-- The bytes of all values. -/
def size (values : List Bytes) : Nat := (values.map List.length).sum

def pseudoHeaders : List String := [pseudoHeaderMethod, pseudoHeaderAuthority, pseudoHeaderScheme, pseudoHeaderPath]

def signatureHeaders : List String := [headerSignature, headerSignatureInput, headerSignatureAgent]

/-- The limits, over the three signature fields. -/
structure WithinBounds (signature signatureInput signatureAgent : List Bytes) : Prop where
  count : ∀ values ∈ [signature, signatureInput, signatureAgent], values.length ≤ 16
  value : ∀ values ∈ [signature, signatureInput, signatureAgent], ∀ v ∈ values, v.length ≤ 4096 ∧ IsAscii v
  field : ∀ values ∈ [signature, signatureInput, signatureAgent], size values ≤ 8192
  total : size signature + size signatureInput + size signatureAgent ≤ 16384

/-- Before each value the counters are what was read, and adding a slice (never
more than `isize::MAX` bytes) to either of them stays in `usize`. -/
def CountersFit (name : String) (values : List Bytes) (total : Nat) : Prop :=
  ∀ before buffer after texts reached, values = before ++ buffer :: after →
    copyValues name before 0 total = .ok (texts, reached) →
    reached = total + size before ∧
    copyValues name values 0 total =
      (copyValues name (buffer :: after) (size before) reached).map (fun rest => (texts ++ rest.1, rest.2)) ∧
    (buffer.length < 2 ^ 63 →
      checkedAddUsize (size before) buffer.length = some (size before + buffer.length) ∧
      checkedAddUsize reached buffer.length = some (reached + buffer.length))

/-! ## ASCII bytes and text -/

@[simp] theorem toList_asciiString (buffer : Bytes) : (asciiString buffer).toList = asciiText buffer :=
  String.toList_ofList

theorem decodeAsciiHeader_ok {buffer : Bytes} {name text : String} :
    decodeAsciiHeader buffer name = .ok text ↔ IsAscii buffer ∧ text = asciiString buffer := by
  unfold decodeAsciiHeader
  split
  · rename_i h
    rw [Except.ok.injEq]
    exact ⟨fun he => ⟨h, he.symm⟩, fun he => he.2.symm⟩
  · rename_i h
    split <;> simp [IsAscii, h]

theorem toNat_ofNat_byte (b : UInt8) : (Char.ofNat b.toNat).toNat = b.toNat := by
  have hvalid : b.toNat.isValidChar := .inl (Nat.lt_trans b.toNat_lt (by decide))
  rw [Char.ofNat, dif_pos hvalid]
  rfl

/-- No two lists of bytes are one text. -/
theorem asciiText_injective {buffer buffer' : Bytes} (h : asciiText buffer = asciiText buffer') : buffer = buffer' := by
  apply List.map_injective_iff.2 _ h
  intro b b' heq
  have heq : Char.ofNat b.toNat = Char.ofNat b'.toNat := heq
  apply UInt8.toNat_inj.1
  rw [← toNat_ofNat_byte b, ← toNat_ofNat_byte b', heq]

/-- The text is the bytes. -/
theorem toUTF8_asciiString {buffer : Bytes} (h : IsAscii buffer) :
    (asciiString buffer).toUTF8 = buffer.toByteArray := by
  have hbytes : (asciiText buffer).flatMap String.utf8EncodeChar = buffer := by
    unfold asciiText
    induction buffer with
    | nil => rfl
    | cons b buffer ih =>
      have hb : (Char.ofNat b.toNat).val.toNat = b.toNat := toNat_ofNat_byte b
      have hlt : b.toNat < 128 := h b List.mem_cons_self
      have hone : (Char.ofNat b.toNat).utf8Size = 1 := by
        rw [Char.utf8Size_eq_one_iff, UInt32.le_iff_toNat_le, hb]
        exact Nat.le_of_lt_succ hlt
      have hbyte : (Char.ofNat b.toNat).val.toUInt8 = b := by
        apply UInt8.toNat_inj.1
        rw [UInt32.toNat_toUInt8, hb]
        omega
      rw [List.map_cons, List.flatMap_cons, String.utf8EncodeChar_eq_singleton hone, hbyte,
        ih (fun x hx => h x (List.mem_cons_of_mem b hx))]
      rfl
  exact congrArg List.toByteArray hbytes

/-! ## One field -/

/-- A counter takes the exact sum, or the value is refused. -/
theorem counter_eq_some {a b bound n : Nat} (hbound : bound < 2 ^ 64) :
    (checkedAddUsize a b).filter (· ≤ bound) = some n ↔ a + b ≤ bound ∧ n = a + b := by
  unfold checkedAddUsize
  split
  · rw [Option.filter_eq_some_iff]
    simp only [Option.some.injEq, decide_eq_true_eq]
    constructor
    · rintro ⟨rfl, hle⟩
      exact ⟨hle, rfl⟩
    · rintro ⟨hle, rfl⟩
      exact ⟨rfl, hle⟩
  · rw [Option.filter_none]
    refine ⟨nofun, ?_⟩
    rintro ⟨hle, -⟩
    omega

theorem size_cons (buffer : Bytes) (rest : List Bytes) : size (buffer :: rest) = buffer.length + size rest := by
  simp [size]

/-- What the loop accepts from counters that are within their bounds. -/
theorem copyValues_ok {name : String} {values : List Bytes} {fieldBytes totalBytes total : Nat} {texts : List String}
    (hfield : fieldBytes ≤ 8192) (htotal : totalBytes ≤ 16384) :
    copyValues name values fieldBytes totalBytes = .ok (texts, total) ↔
      (∀ v ∈ values, v.length ≤ 4096 ∧ IsAscii v) ∧ fieldBytes + size values ≤ 8192 ∧
      totalBytes + size values ≤ 16384 ∧ texts = values.map asciiString ∧
      total = totalBytes + size values := by
  have hf : maxSignatureFieldBytes < 2 ^ 64 := by decide
  have ht : maxSignatureHeadersBytes < 2 ^ 64 := by decide
  induction values generalizing fieldBytes totalBytes texts with
  | nil =>
    simp only [copyValues, Except.ok.injEq, Prod.mk.injEq, size, List.map_nil, List.sum_nil, Nat.add_zero]
    constructor
    · rintro ⟨rfl, rfl⟩
      exact ⟨by rintro _ ⟨⟩, hfield, htotal, rfl, rfl⟩
    · rintro ⟨-, -, -, rfl, rfl⟩
      exact ⟨rfl, rfl⟩
  | cons buffer rest ih =>
    simp only [copyValues, bind_ok, okOr_ok, counter_eq_some hf, counter_eq_some ht, ensure_ok, decodeAsciiHeader_ok]
    rw [size_cons, List.forall_mem_cons, List.map_cons]
    constructor
    · rintro ⟨_, ⟨hfit, rfl⟩, _, ⟨hfit', rfl⟩, -, hlen, _, ⟨hascii, rfl⟩, ⟨texts', total'⟩, hrest, heq⟩
      obtain ⟨rfl, rfl⟩ := Prod.mk.inj (Except.ok.inj heq)
      obtain ⟨hvalues, hsize, hsize', rfl, rfl⟩ := (ih hfit hfit').1 hrest
      exact ⟨⟨⟨hlen, hascii⟩, hvalues⟩, by omega, by omega, rfl, by omega⟩
    · rintro ⟨⟨⟨hlen, hascii⟩, hvalues⟩, hsize, hsize', rfl, rfl⟩
      have hfit : fieldBytes + buffer.length ≤ 8192 := by omega
      have hfit' : totalBytes + buffer.length ≤ 16384 := by omega
      refine ⟨_, ⟨hfit, rfl⟩, _, ⟨hfit', rfl⟩, (), hlen, _, ⟨hascii, rfl⟩, (_, _), ?_, rfl⟩
      exact (ih hfit hfit').2 ⟨hvalues, by omega, by omega, rfl, by omega⟩

/-- The loop goes on after some of the values with the counters it has then. -/
theorem copyValues_append (name : String) (before after : List Bytes) (fieldBytes totalBytes : Nat)
    {texts : List String} {total : Nat} (hfield : fieldBytes ≤ 8192) (htotal : totalBytes ≤ 16384)
    (h : copyValues name before fieldBytes totalBytes = .ok (texts, total)) :
    copyValues name (before ++ after) fieldBytes totalBytes =
      (copyValues name after (fieldBytes + size before) total).map (fun rest => (texts ++ rest.1, rest.2)) := by
  induction before generalizing fieldBytes totalBytes texts with
  | nil =>
    obtain ⟨rfl, rfl⟩ := Prod.mk.inj (Except.ok.inj h)
    simp only [List.nil_append, size, List.map_nil, List.sum_nil, Nat.add_zero]
    cases copyValues name after fieldBytes totalBytes <;> rfl
  | cons buffer before ih =>
    have hf : maxSignatureFieldBytes < 2 ^ 64 := by decide
    have ht : maxSignatureHeadersBytes < 2 ^ 64 := by decide
    simp only [copyValues, bind_ok, okOr_ok, counter_eq_some hf, counter_eq_some ht, ensure_ok] at h
    obtain ⟨_, ⟨hfit, rfl⟩, _, ⟨hfit', rfl⟩, -, hlen, text, htext, ⟨texts', total'⟩, hrest, heq⟩ := h
    obtain ⟨rfl, rfl⟩ := Prod.mk.inj (Except.ok.inj heq)
    rw [List.cons_append, copyValues, (counter_eq_some hf).2 ⟨hfit, rfl⟩, (counter_eq_some ht).2 ⟨hfit', rfl⟩]
    simp only [okOr, ensure, if_pos hlen, ok_bind, htext]
    rw [ih _ _ hfit hfit' hrest, size_cons, Nat.add_assoc]
    cases copyValues name after (fieldBytes + (buffer.length + size before)) total' <;> rfl

theorem checkedAddUsize_slice {a b : Nat} (ha : a ≤ 16384) (hb : b < 2 ^ 63) : checkedAddUsize a b = some (a + b) :=
  if_pos (by omega)

theorem countersFit (name : String) (values : List Bytes) {total : Nat} (htotal : total ≤ 16384) :
    CountersFit name values total := by
  rintro before buffer after texts reached rfl h
  obtain ⟨-, hsize, hsize', -, rfl⟩ := (copyValues_ok (Nat.zero_le _) htotal).1 h
  refine ⟨rfl, ?_, fun hlen => ⟨checkedAddUsize_slice (by omega) hlen, checkedAddUsize_slice hsize' hlen⟩⟩
  rw [copyValues_append name before (buffer :: after) 0 total (Nat.zero_le _) htotal h, Nat.zero_add]

theorem forall_fields {α : Type} {p : α → Prop} {a b c : α} : (∀ x ∈ [a, b, c], p x) ↔ p a ∧ p b ∧ p c := by
  simp

/-- What is captured of a field, from a count of the bytes before it. -/
theorem signatureField_ok {headers : HeaderMap Bytes} {name : String} {before total : Nat} {texts : List String}
    (hbefore : before ≤ 16384) :
    signatureField headers name before = .ok (texts, total) ↔
      headers.getAll name ≠ [] ∧ (headers.getAll name).length ≤ 16 ∧
      (∀ v ∈ headers.getAll name, v.length ≤ 4096 ∧ IsAscii v) ∧ size (headers.getAll name) ≤ 8192 ∧
      before + size (headers.getAll name) ≤ 16384 ∧
      texts = (headers.getAll name).map asciiString ∧
      total = before + size (headers.getAll name) := by
  simp only [signatureField, copyAsciiHeaderValues, ensure_bind_ok, copyValues_ok (Nat.zero_le 8192) hbefore,
    Nat.zero_add]
  rfl

/-! ## The request -/

theorem pseudoHeader_ok {headers : HeaderMap Bytes} {name text : String} :
    pseudoHeader headers name = .ok text ↔
      ∃ buffer, headers.getFirst name = some buffer ∧ IsAscii buffer ∧ text = asciiString buffer := by
  simp only [pseudoHeader, bind_ok, okOr_ok, decodeAsciiHeader_ok]

/-- The request of these header values. -/
def requestOf (method authority scheme path : Bytes) (signature signatureInput signatureAgent : List Bytes) :
    RequestComponents :=
  { RequestComponents.fromPseudoHeaders (asciiString method) (asciiString authority) (asciiString path) with
    scheme := String.ofList ((asciiText scheme).map Char.toLower)
    signature := signature.map asciiString
    signatureInput := signatureInput.map asciiString
    signatureAgent := signatureAgent.map asciiString }

/-- What a request must carry to be captured, and as what it is. -/
structure Captured (headers : HeaderMap Bytes) (r : RequestComponents) : Prop where
  pseudo : ∀ name ∈ pseudoHeaders, ∃ buffer, headers.getFirst name = some buffer ∧ IsAscii buffer
  present : ∀ name ∈ signatureHeaders, headers.getAll name ≠ []
  bounds : WithinBounds (headers.getAll headerSignature) (headers.getAll headerSignatureInput)
    (headers.getAll headerSignatureAgent)
  request : ∀ method authority scheme path, headers.getFirst pseudoHeaderMethod = some method →
    headers.getFirst pseudoHeaderAuthority = some authority → headers.getFirst pseudoHeaderScheme = some scheme →
    headers.getFirst pseudoHeaderPath = some path →
    r = requestOf method authority scheme path (headers.getAll headerSignature) (headers.getAll headerSignatureInput)
      (headers.getAll headerSignatureAgent)

theorem tryFromEnvoy_ok {headers : HeaderMap Bytes} {r : RequestComponents} :
    RequestComponents.tryFromEnvoy headers = .ok r ↔ Captured headers r := by
  simp only [RequestComponents.tryFromEnvoy, bind_ok, pseudoHeader_ok]
  constructor
  · rintro ⟨_, ⟨method, hm, ham, rfl⟩, _, ⟨authority, ha, haa, rfl⟩, _, ⟨scheme, hs, has, rfl⟩, _,
      ⟨path, hp, hap, rfl⟩, ⟨signature, total⟩, hsig, ⟨input, total'⟩, hinput, ⟨agent, _⟩, hagent, heq⟩
    obtain ⟨hne, hcount, hvalue, hsize, hfit, rfl, rfl⟩ := (signatureField_ok (Nat.zero_le _)).1 hsig
    obtain ⟨hne', hcount', hvalue', hsize', hfit', rfl, rfl⟩ := (signatureField_ok hfit).1 hinput
    obtain ⟨hne'', hcount'', hvalue'', hsize'', hfit'', rfl, -⟩ := (signatureField_ok hfit').1 hagent
    obtain rfl := Except.ok.inj heq
    refine ⟨?_, ?_, ⟨?_, ?_, ?_, by omega⟩, ?_⟩
    · exact List.forall_mem_cons.2 ⟨⟨method, hm, ham⟩, List.forall_mem_cons.2 ⟨⟨authority, ha, haa⟩,
        List.forall_mem_cons.2 ⟨⟨scheme, hs, has⟩, List.forall_mem_singleton.2 ⟨path, hp, hap⟩⟩⟩⟩
    · exact forall_fields.2 ⟨hne, hne', hne''⟩
    · exact forall_fields.2 ⟨hcount, hcount', hcount''⟩
    · exact forall_fields.2 ⟨hvalue, hvalue', hvalue''⟩
    · exact forall_fields.2 ⟨hsize, hsize', hsize''⟩
    · intro method' authority' scheme' path' hm' ha' hs' hp'
      obtain rfl := Option.some.inj (hm.symm.trans hm')
      obtain rfl := Option.some.inj (ha.symm.trans ha')
      obtain rfl := Option.some.inj (hs.symm.trans hs')
      obtain rfl := Option.some.inj (hp.symm.trans hp')
      rw [requestOf, toList_asciiString]
  · rintro ⟨hpseudo, hpresent, ⟨hcount, hvalue, hsize, htotal⟩, hr⟩
    obtain ⟨hne, hne', hne''⟩ := forall_fields.1 hpresent
    obtain ⟨hcount, hcount', hcount''⟩ := forall_fields.1 hcount
    obtain ⟨hvalue, hvalue', hvalue''⟩ := forall_fields.1 hvalue
    obtain ⟨hsize, hsize', hsize''⟩ := forall_fields.1 hsize
    obtain ⟨method, hm, ham⟩ := hpseudo pseudoHeaderMethod (by simp [pseudoHeaders])
    obtain ⟨authority, ha, haa⟩ := hpseudo pseudoHeaderAuthority (by simp [pseudoHeaders])
    obtain ⟨scheme, hs, has⟩ := hpseudo pseudoHeaderScheme (by simp [pseudoHeaders])
    obtain ⟨path, hp, hap⟩ := hpseudo pseudoHeaderPath (by simp [pseudoHeaders])
    have hfit : 0 + size (headers.getAll headerSignature) ≤ 16384 := by omega
    have hfit' : 0 + size (headers.getAll headerSignature) + size (headers.getAll headerSignatureInput) ≤ 16384 := by
      omega
    have hsig := (signatureField_ok (Nat.zero_le _)).2 ⟨hne, hcount, hvalue, hsize, hfit, rfl, rfl⟩
    have hinput := (signatureField_ok hfit).2 ⟨hne', hcount', hvalue', hsize', hfit', rfl, rfl⟩
    have hagent := (signatureField_ok hfit').2 ⟨hne'', hcount'', hvalue'', hsize'', by omega, rfl, rfl⟩
    refine ⟨_, ⟨method, hm, ham, rfl⟩, _, ⟨authority, ha, haa, rfl⟩, _, ⟨scheme, hs, has, rfl⟩, _,
      ⟨path, hp, hap, rfl⟩, _, hsig, _, hinput, _, hagent, ?_⟩
    rw [hr method authority scheme path hm ha hs hp, requestOf, toList_asciiString]

/-- The text of ASCII values is their bytes. -/
theorem map_toUTF8 {values : List Bytes} (h : ∀ v ∈ values, v.length ≤ 4096 ∧ IsAscii v) :
    (values.map asciiString).map String.toUTF8 = values.map List.toByteArray := by
  rw [List.map_map]
  exact List.map_congr_left fun v hv => toUTF8_asciiString (h v hv).2

theorem capture_bounds_exact (headers : HeaderMap Bytes)
    (hpseudo : ∀ name ∈ pseudoHeaders, ∃ buffer, headers.getFirst name = some buffer ∧ IsAscii buffer)
    (hpresent : ∀ name ∈ signatureHeaders, headers.getAll name ≠ []) :
    ((∃ r, RequestComponents.tryFromEnvoy headers = .ok r) ↔
      WithinBounds (headers.getAll headerSignature) (headers.getAll headerSignatureInput)
        (headers.getAll headerSignatureAgent)) ∧
    (∀ r, RequestComponents.tryFromEnvoy headers = .ok r →
      r.signature.map String.toUTF8 = (headers.getAll headerSignature).map List.toByteArray ∧
      r.signatureInput.map String.toUTF8 = (headers.getAll headerSignatureInput).map List.toByteArray ∧
      r.signatureAgent.map String.toUTF8 = (headers.getAll headerSignatureAgent).map List.toByteArray) ∧
    ∀ name ∈ signatureHeaders, ∀ total ≤ 16384, CountersFit name (headers.getAll name) total := by
  obtain ⟨method, hm, -⟩ := hpseudo pseudoHeaderMethod (by simp [pseudoHeaders])
  obtain ⟨authority, ha, -⟩ := hpseudo pseudoHeaderAuthority (by simp [pseudoHeaders])
  obtain ⟨scheme, hs, -⟩ := hpseudo pseudoHeaderScheme (by simp [pseudoHeaders])
  obtain ⟨path, hp, -⟩ := hpseudo pseudoHeaderPath (by simp [pseudoHeaders])
  refine ⟨⟨?_, fun hbounds => ?_⟩, fun r hr => ?_, fun name _ total htotal => countersFit name _ htotal⟩
  · rintro ⟨r, hr⟩
    exact (tryFromEnvoy_ok.1 hr).bounds
  · refine ⟨requestOf method authority scheme path (headers.getAll headerSignature)
      (headers.getAll headerSignatureInput) (headers.getAll headerSignatureAgent),
      tryFromEnvoy_ok.2 ⟨hpseudo, hpresent, hbounds, ?_⟩⟩
    intro method' authority' scheme' path' hm' ha' hs' hp'
    rw [← Option.some.inj (hm.symm.trans hm'), ← Option.some.inj (ha.symm.trans ha'),
      ← Option.some.inj (hs.symm.trans hs'), ← Option.some.inj (hp.symm.trans hp')]
  · have hcaptured := tryFromEnvoy_ok.1 hr
    obtain ⟨hvalue, hvalue', hvalue''⟩ := forall_fields.1 hcaptured.bounds.value
    rw [hcaptured.request method authority scheme path hm ha hs hp]
    exact ⟨map_toUTF8 hvalue, map_toUTF8 hvalue', map_toUTF8 hvalue''⟩

/-! ## Sample headers -/

def sampleLines (scheme authority path : String) : HeaderMap Bytes :=
  [(pseudoHeaderMethod, asciiBytes "GET".toList), (pseudoHeaderScheme, asciiBytes scheme.toList),
    (pseudoHeaderAuthority, asciiBytes authority.toList), (pseudoHeaderPath, asciiBytes path.toList),
    (headerSignature, asciiBytes "sig1=:AA==:".toList), (headerSignatureInput, asciiBytes "sig1=()".toList),
    (headerSignatureAgent, asciiBytes "sig1=\"https://agent.example\"".toList)]

/-- A value of that length. -/
def longValue (length : Nat) : Bytes := List.replicate length 97

/-- The sample lines with values up to the limits: the first field is full, two
values are as long as any may be, and the third field has all 16 it may have. -/
def fullLines : HeaderMap Bytes :=
  (sampleLines "https" "example.test" "/").without signatureHeaders ++
    [(headerSignature, longValue 4096), (headerSignature, asciiBytes "sig1=:AA==:".toList),
      (headerSignature, longValue 4085), (headerSignatureInput, asciiBytes "sig1=()".toList),
      (headerSignatureInput, longValue 4096)] ++
    List.replicate 16 (headerSignatureAgent, asciiBytes "sig1=\"https://agent.example\"".toList)

theorem length_longValue (length : Nat) : (longValue length).length = length := List.length_replicate

theorem longValue_fits {length : Nat} (h : length ≤ 4096) : (longValue length).length ≤ 4096 ∧ IsAscii (longValue length) := by
  refine ⟨by rwa [length_longValue], ?_⟩
  intro b hb
  rw [List.eq_of_mem_replicate hb]
  decide

theorem fullLines_fields :
    fullLines.getAll headerSignature = [longValue 4096, asciiBytes "sig1=:AA==:".toList, longValue 4085] ∧
    fullLines.getAll headerSignatureInput = [asciiBytes "sig1=()".toList, longValue 4096] ∧
    fullLines.getAll headerSignatureAgent = List.replicate 16 (asciiBytes "sig1=\"https://agent.example\"".toList) := by
  refine ⟨rfl, rfl, rfl⟩

theorem size_fullSignature : size [longValue 4096, asciiBytes "sig1=:AA==:".toList, longValue 4085] = 8192 := by
  simp only [size, List.map_cons, List.map_nil, length_longValue]
  decide +kernel

theorem size_fullInput : size [asciiBytes "sig1=()".toList, longValue 4096] = 4103 := by
  simp only [size, List.map_cons, List.map_nil, length_longValue]
  decide +kernel

theorem fullLines_bounds : WithinBounds (fullLines.getAll headerSignature) (fullLines.getAll headerSignatureInput)
    (fullLines.getAll headerSignatureAgent) := by
  obtain ⟨hsignature, hinput, hagent⟩ := fullLines_fields
  rw [hsignature, hinput, hagent]
  constructor
  · exact forall_fields.2 ⟨by decide, by decide, by decide⟩
  · refine forall_fields.2 ⟨?_, ?_, by decide +kernel⟩
    · simp only [List.forall_mem_cons]
      exact ⟨longValue_fits (Nat.le_refl _), by decide +kernel, longValue_fits (by omega), by simp⟩
    · simp only [List.forall_mem_cons]
      exact ⟨by decide +kernel, longValue_fits (Nat.le_refl _), by simp⟩
  · refine forall_fields.2 ⟨by rw [size_fullSignature], by rw [size_fullInput]; decide, by decide +kernel⟩
  · rw [size_fullSignature, size_fullInput]
    decide +kernel

theorem capture_bounds_exact_sample : (∃ r, RequestComponents.tryFromEnvoy fullLines = .ok r) ∧
    size (fullLines.getAll headerSignature) = 8192 ∧ (fullLines.getAll headerSignatureAgent).length = 16 := by
  refine ⟨(capture_bounds_exact fullLines (by decide +kernel) (by decide +kernel)).1.2 fullLines_bounds, ?_, ?_⟩
  · rw [fullLines_fields.1, size_fullSignature]
  · decide +kernel

end EnvoyWebBotAuth.Gateway
