import Mathlib.Algebra.Order.Ring.Nat
import Mathlib.Data.List.Basic
/-!
# Byte offsets

Rust cuts a `str` at byte offsets, and panics at an offset past the end or
inside a character. `none` stands for that panic. The offset after a prefix is
the byte length of the prefix, and every search gives such an offset.
-/

namespace EnvoyWebBotAuth.Lib

def byteLength (text : List Char) : Nat := (text.map Char.utf8Size).sum

/-- `&text[offset..]` -/
def sliceFrom : List Char → Nat → Option (List Char)
  | [], offset => if offset = 0 then some [] else none
  | c :: text, offset =>
    if offset = 0 then some (c :: text)
    else if c.utf8Size ≤ offset then sliceFrom text (offset - c.utf8Size)
    else none

/-- `&text[..offset]` -/
def sliceTo : List Char → Nat → Option (List Char)
  | [], offset => if offset = 0 then some [] else none
  | c :: text, offset =>
    if offset = 0 then some []
    else if c.utf8Size ≤ offset then (sliceTo text (offset - c.utf8Size)).map (c :: ·)
    else none

/-- `find`: the offset of the first `sep`. -/
def find (sep : Char) : List Char → Option Nat
  | [] => none
  | c :: text => if c = sep then some 0 else (find sep text).map (c.utf8Size + ·)

/-- `rfind`: the offset of the last `sep`. -/
def rfind (sep : Char) : List Char → Option Nat
  | [] => none
  | c :: text =>
    match rfind sep text with
    | some offset => some (c.utf8Size + offset)
    | none => if c = sep then some 0 else none

@[simp] theorem byteLength_nil : byteLength [] = 0 := rfl

@[simp] theorem byteLength_cons (c : Char) (text : List Char) :
    byteLength (c :: text) = c.utf8Size + byteLength text := by
  simp [byteLength]

/-- ASCII characters are one byte each. -/
theorem utf8Size_of_ascii {c : Char} (h : c.toNat < 128) : c.utf8Size = 1 := by
  rw [Char.utf8Size_eq_one_iff, UInt32.le_iff_toNat_le]
  exact Nat.le_of_lt_succ h

/-- A text is cut after any prefix of it. -/
theorem sliceFrom_append (before after : List Char) : sliceFrom (before ++ after) (byteLength before) = some after := by
  induction before with
  | nil => cases after <;> rfl
  | cons c before ih =>
    have hpos := c.utf8Size_pos
    rw [List.cons_append, sliceFrom, byteLength_cons, if_neg (by omega), if_pos (by omega), Nat.add_sub_cancel_left, ih]

theorem sliceTo_append (before after : List Char) : sliceTo (before ++ after) (byteLength before) = some before := by
  induction before with
  | nil => cases after <;> rfl
  | cons c before ih =>
    have hpos := c.utf8Size_pos
    rw [List.cons_append, sliceTo, byteLength_cons, if_neg (by omega), if_pos (by omega), Nat.add_sub_cancel_left, ih]
    rfl

theorem find_append {sep : Char} {before : List Char} (h : sep ∉ before) (after : List Char) :
    find sep (before ++ sep :: after) = some (byteLength before) := by
  induction before with
  | nil => simp [find]
  | cons c before ih =>
    rw [List.mem_cons, not_or] at h
    rw [List.cons_append, find, if_neg (Ne.symm h.1), ih h.2]
    simp

theorem find_eq_none {sep : Char} {text : List Char} (h : sep ∉ text) : find sep text = none := by
  induction text with
  | nil => rfl
  | cons c text ih =>
    rw [List.mem_cons, not_or] at h
    rw [find, if_neg (Ne.symm h.1), ih h.2]
    rfl

theorem rfind_eq_none {sep : Char} {text : List Char} (h : sep ∉ text) : rfind sep text = none := by
  induction text with
  | nil => rfl
  | cons c text ih =>
    rw [List.mem_cons, not_or] at h
    rw [rfind, ih h.2]
    exact if_neg (Ne.symm h.1)

theorem rfind_append {sep : Char} {after : List Char} (h : sep ∉ after) (before : List Char) :
    rfind sep (before ++ sep :: after) = some (byteLength before) := by
  induction before with
  | nil =>
    rw [List.nil_append, rfind, rfind_eq_none h]
    exact if_pos rfl
  | cons c before ih =>
    rw [List.cons_append, rfind, ih]
    simp

end EnvoyWebBotAuth.Lib
