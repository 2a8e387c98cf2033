import Mathlib.Data.List.Basic
/-!
# JSON strings

The text between the quotes of a JSON string. Of printable ASCII only the quote
and the backslash are escaped, with a backslash before them. `readString` reads
such a text up to its closing quote; escapes of other characters are not read.
-/

namespace EnvoyWebBotAuth.Lib

def isPrintable (ch : Char) : Bool := 32 ≤ ch.toNat && ch.toNat < 127

def escapeChar (ch : Char) : List Char := if ch = '"' ∨ ch = '\\' then ['\\', ch] else [ch]

def escapeString (text : List Char) : List Char := text.flatMap escapeChar

/-- What a string says, from after its opening quote on, and what follows it. -/
def readString : List Char → Option (List Char × List Char)
  | [] => none
  | '"' :: rest => some ([], rest)
  | '\\' :: ch :: rest =>
    if ch = '"' ∨ ch = '\\' ∨ ch = '/' then (readString rest).map (fun r => (ch :: r.1, r.2)) else none
  | ch :: rest => if ch = '\\' ∨ ch.toNat < 32 then none else (readString rest).map (fun r => (ch :: r.1, r.2))

theorem escapeString_cons (ch : Char) (text : List Char) :
    escapeString (ch :: text) = escapeChar ch ++ escapeString text := rfl

theorem escapeString_length (text : List Char) : (escapeString text).length ≤ 2 * text.length := by
  induction text with
  | nil => exact Nat.le_refl _
  | cons ch text ih =>
    have hch : (escapeChar ch).length ≤ 2 := by
      unfold escapeChar
      split <;> simp
    rw [escapeString_cons, List.length_append, List.length_cons]
    omega

theorem escapeString_printable {text : List Char} (h : ∀ ch ∈ text, isPrintable ch = true) :
    ∀ ch ∈ escapeString text, isPrintable ch = true := by
  intro ch hm
  obtain ⟨x, hx, hm⟩ := List.mem_flatMap.1 hm
  unfold escapeChar at hm
  split at hm
  · rcases List.mem_cons.1 hm with rfl | hm
    · decide
    · rw [List.mem_singleton.1 hm]
      exact h x hx
  · rw [List.mem_singleton.1 hm]
    exact h x hx

/-- Reading a character that stands for itself. -/
theorem readString_plain {ch : Char} {rest : List Char} (hq : ch ≠ '"') (hb : ch ≠ '\\') :
    readString (ch :: rest) =
      if ch.toNat < 32 then none else (readString rest).map (fun r => (ch :: r.1, r.2)) := by
  rw [readString]
  · simp only [hb, false_or]
  · exact hq
  · rintro c' rest' rfl
    exact absurd rfl hb

theorem readString_escape {text : List Char} (h : ∀ ch ∈ text, isPrintable ch = true) (rest : List Char) :
    readString (escapeString text ++ '"' :: rest) = some (text, rest) := by
  induction text with
  | nil => rw [escapeString, List.flatMap_nil, List.nil_append, readString]
  | cons ch text ih =>
    rw [List.forall_mem_cons] at h
    have ih := ih h.2
    rw [escapeString_cons, escapeChar, List.append_assoc]
    split
    · rename_i hesc
      have hread : ch = '"' ∨ ch = '\\' ∨ ch = '/' := hesc.imp_right .inl
      simp only [List.cons_append, List.nil_append]
      rw [readString, if_pos hread, ih]
      rfl
    · rename_i hesc
      obtain ⟨hq, hb⟩ := not_or.1 hesc
      have hlow : ¬ch.toNat < 32 := by
        have := h.1
        simp only [isPrintable, Bool.and_eq_true, decide_eq_true_eq] at this
        omega
      rw [List.singleton_append, readString_plain hq hb, if_neg hlow, ih]
      rfl

/-- What follows a string does not matter to reading it. -/
theorem readString_append {text said left : List Char} (h : readString text = some (said, left)) (more : List Char) :
    readString (text ++ more) = some (said, left ++ more) := by
  induction text using readString.induct generalizing said left with
  | case1 => cases h
  | case2 rest =>
    rw [readString] at h
    obtain ⟨rfl, rfl⟩ := Prod.mk.inj (Option.some.inj h)
    rw [List.cons_append, readString]
  | case3 ch rest hesc ih =>
    rw [readString, if_pos hesc, Option.map_eq_some_iff] at h
    obtain ⟨⟨s, l⟩, hr, hs⟩ := h
    obtain ⟨rfl, rfl⟩ := Prod.mk.inj hs
    rw [List.cons_append, List.cons_append, readString, if_pos hesc, ih hr]
    rfl
  | case4 ch rest hesc =>
    rw [readString, if_neg hesc] at h
    cases h
  | case5 ch rest hq hb hlow =>
    rw [readString.eq_4 ch rest hq hb, if_pos hlow] at h
    cases h
  | case6 ch rest hq hb hlow ih =>
    obtain ⟨hne, hprint⟩ := not_or.1 hlow
    rw [readString_plain hq hne, if_neg hprint, Option.map_eq_some_iff] at h
    obtain ⟨⟨s, l⟩, hr, hs⟩ := h
    obtain ⟨rfl, rfl⟩ := Prod.mk.inj hs
    rw [List.cons_append, readString_plain hq hne, if_neg hprint, ih hr]
    rfl

end EnvoyWebBotAuth.Lib
