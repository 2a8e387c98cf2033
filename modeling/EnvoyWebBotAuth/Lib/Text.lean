import Mathlib.Algebra.Order.Ring.Nat
import Mathlib.Data.List.Basic
import Mathlib.Data.List.TakeWhile
/-!
# Text functions

Functions of Rust's `str` on lists of characters, as far as the code uses
them, and on ASCII text where that is all it has.
-/

namespace EnvoyWebBotAuth.Lib

/-- All characters of a list are decided along the list, not by trying every
character there is. -/
instance (priority := high) decidableForallChar {p : Char → Prop} [DecidablePred p] (s : List Char) :
    Decidable (∀ c ∈ s, p c) := List.decidableBAll p s

instance (priority := high) decidableForallByte {p : UInt8 → Prop} [DecidablePred p] (s : List UInt8) :
    Decidable (∀ b ∈ s, p b) := List.decidableBAll p s

section Cut

variable {c : Char} {before s : List Char}

theorem decide_ne_of_not_mem (h : c ∉ s) : ∀ x ∈ s, decide (x ≠ c) = true := by
  intro x hx
  rw [decide_eq_true_eq]
  rintro rfl
  exact h hx

/-- What stands before the first `c`, and what stands from there. -/
theorem takeWhile_ne_append (h : c ∉ before) (after : List Char) : (before ++ c :: after).takeWhile (· ≠ c) = before := by
  rw [List.takeWhile_append_of_pos (decide_ne_of_not_mem h), List.takeWhile_cons_of_neg (by simp), List.append_nil]

theorem dropWhile_ne_append (h : c ∉ before) (after : List Char) :
    (before ++ c :: after).dropWhile (· ≠ c) = c :: after := by
  rw [List.dropWhile_append_of_pos (decide_ne_of_not_mem h), List.dropWhile_cons_of_neg (by simp)]

theorem takeWhile_ne_self (h : c ∉ s) : s.takeWhile (· ≠ c) = s :=
  List.takeWhile_eq_self_iff.2 (decide_ne_of_not_mem h)

theorem dropWhile_ne_self (h : c ∉ s) : s.dropWhile (· ≠ c) = [] :=
  List.dropWhile_eq_nil_iff.2 (decide_ne_of_not_mem h)

end Cut

/-- `split_once`: what stands before and after the first `c`. -/
def splitOnce (c : Char) (s : List Char) : Option (List Char × List Char) :=
  if c ∈ s then some (s.takeWhile (· ≠ c), (s.dropWhile (· ≠ c)).drop 1) else none

theorem splitOnce_some {c : Char} {s before after : List Char} (h : splitOnce c s = some (before, after)) :
    s = before ++ c :: after ∧ c ∉ before := by
  unfold splitOnce at h
  split at h
  · rename_i hc
    obtain ⟨rfl, rfl⟩ := Prod.mk.inj (Option.some.inj h)
    obtain ⟨before, after, rfl, hno⟩ := List.eq_append_cons_of_mem hc
    rw [takeWhile_ne_append hno, dropWhile_ne_append hno]
    exact ⟨rfl, hno⟩
  · cases h

theorem splitOnce_none {c : Char} {s : List Char} (h : splitOnce c s = none) : c ∉ s := by
  unfold splitOnce at h
  split at h
  · cases h
  · assumption

/-- A text is cut at its first `c` in one way. -/
theorem append_cons_inj {c : Char} {s t x y : List Char} (hs : c ∉ s) (ht : c ∉ t) (h : s ++ c :: x = t ++ c :: y) :
    s = t ∧ x = y := by
  induction s generalizing t with
  | nil =>
    cases t with
    | nil => exact ⟨rfl, (List.cons.inj h).2⟩
    | cons b t => exact absurd (List.cons.inj h).1 (fun he => ht (he ▸ List.mem_cons_self))
  | cons a s ih =>
    cases t with
    | nil => exact absurd (List.cons.inj h).1 (fun he => hs (he ▸ List.mem_cons_self))
    | cons b t =>
      obtain ⟨rfl, htail⟩ := List.cons.inj h
      obtain ⟨rfl, rfl⟩ := ih (fun hm => hs (List.mem_cons_of_mem a hm)) (fun hm => ht (List.mem_cons_of_mem a hm)) htail
      exact ⟨rfl, rfl⟩

/-- `trim_matches` -/
def trimMatches (p : Char → Bool) (s : List Char) : List Char := ((s.dropWhile p).reverse.dropWhile p).reverse

def isAsciiWhitespace (c : Char) : Bool := c ∈ [' ', '\t', '\n', '\x0c', '\r']

def trimAscii (s : List Char) : List Char := trimMatches isAsciiWhitespace s

theorem mem_trimAscii {c : Char} {s : List Char} (h : c ∈ trimAscii s) : c ∈ s := by
  have h := (List.dropWhile_suffix _).subset (List.mem_reverse.1 h)
  exact (List.dropWhile_suffix _).subset (List.mem_reverse.1 h)

/-- `eq_ignore_ascii_case` -/
def eqIgnoreAsciiCase (a b : List Char) : Bool := a.map Char.toLower = b.map Char.toLower

/-- `parse::<u64>`: an optional plus sign, then digits, without overflow. -/
def parseU64 (s : List Char) : Option Nat :=
  let digits := if s.head? = some '+' then s.tail else s
  let value := digits.foldl (fun n c => 10 * n + (c.toNat - '0'.toNat)) 0
  if digits ≠ [] ∧ digits.all Char.isDigit ∧ value < 2 ^ 64 then some value else none

example : parseU64 "+0300".toList = some 300 ∧ parseU64 "18446744073709551616".toList = none := by decide

end EnvoyWebBotAuth.Lib
