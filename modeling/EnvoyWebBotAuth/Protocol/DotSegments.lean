import EnvoyWebBotAuth.Lib.ByteOffsets
import EnvoyWebBotAuth.Protocol.Identifier
/-!
# Removing dot segments

`remove_dot_segments` rewrites the front of a text until nothing is left.
Written with the byte offsets the code cuts at (`slicedLoop`), it never cuts
outside a text of ASCII characters. What it computes is a fold over the
segments between the slashes (`referencePath`).
-/
open EnvoyWebBotAuth.Lib

namespace EnvoyWebBotAuth.Protocol

/-! ## The loop with its slices -/

/-- `remove_last_path_segment` -/
def slicedLast (output : List Char) : Option (List Char) :=
  match rfind '/' output with
  | some separator => sliceTo output separator
  | none => some []

/-- Move what comes before the next slash to the output. -/
def slicedSegment (input output : List Char) : Option (List Char × List Char) := do
  let tail ← sliceFrom input 1
  let segmentEnd := match find '/' tail with
    | some index => index + 1
    | none => byteLength input
  let segment ← sliceTo input segmentEnd
  let rest ← sliceFrom input segmentEnd
  some (rest, output ++ segment)

/-- One round; `none` where a slice would panic. -/
def slicedStep (input output : List Char) : Option (List Char × List Char) :=
  if input = ['.'] ∨ input = ['.', '.'] then some ([], output)
  else match input with
    | [] => some ([], output)
    | '.' :: '.' :: '/' :: rest => some (rest, output)
    | '.' :: '/' :: rest => some (rest, output)
    | ['/', '.'] => (sliceFrom ['/', '.'] 2).map fun rest => ('/' :: rest, output)
    | '/' :: '.' :: '/' :: rest => some ('/' :: rest, output)
    | ['/', '.', '.'] => (sliceFrom ['/', '.', '.'] 3).bind fun rest =>
        (slicedLast output).map fun output => ('/' :: rest, output)
    | '/' :: '.' :: '.' :: '/' :: rest => (slicedLast output).map fun output => ('/' :: rest, output)
    | c :: rest => slicedSegment (c :: rest) output

/-- The loop; `none` if it panics or does not end in `fuel` rounds. -/
def slicedLoop : Nat → List Char → List Char → Option (List Char)
  | _, [], output => some output
  | 0, _ :: _, _ => none
  | fuel + 1, c :: cs, output => (slicedStep (c :: cs) output).bind fun next => slicedLoop fuel next.1 next.2

def AsciiText (text : List Char) : Prop := ∀ c ∈ text, c.toNat < 128

theorem slicedLast_eq (output : List Char) : slicedLast output = some (removeLastPathSegment output) := by
  unfold slicedLast
  by_cases h : '/' ∈ output
  · -- cut at the last slash
    obtain ⟨after, before, heq, hno⟩ := List.eq_append_cons_of_mem (List.mem_reverse.2 h)
    have hoff : '/' ∉ after.reverse := fun hm => hno (List.mem_reverse.1 hm)
    have hout : output = before.reverse ++ '/' :: after.reverse := by
      rw [← List.reverse_reverse output, heq]
      simp
    rw [hout, removeLastPathSegment_append hoff, rfind_append hoff]
    exact sliceTo_append _ _
  · rw [removeLastPathSegment, if_neg h, rfind_eq_none h]

/-- The round that moves a segment to the output cuts after its first
character, and before the next slash. -/
theorem slicedSegment_eq {c : Char} (hc : c.toNat < 128) (rest output : List Char) :
    slicedSegment (c :: rest) output = some (rest.dropWhile (· ≠ '/'), output ++ c :: rest.takeWhile (· ≠ '/')) := by
  have hone : byteLength [c] = 1 := by simp [utf8Size_of_ascii hc]
  have htail : sliceFrom (c :: rest) 1 = some rest := hone ▸ sliceFrom_append [c] rest
  simp only [slicedSegment, htail, Option.bind_eq_bind, Option.bind_some]
  by_cases h : '/' ∈ rest
  · obtain ⟨before, after, rfl, hno⟩ := List.eq_append_cons_of_mem h
    have hend : byteLength before + 1 = byteLength (c :: before) := by
      rw [byteLength_cons, utf8Size_of_ascii hc, Nat.add_comm]
    rw [find_append hno]
    dsimp only
    rw [hend, ← List.cons_append, sliceTo_append, sliceFrom_append, takeWhile_ne_append hno, dropWhile_ne_append hno]
    rfl
  · have hto : sliceTo (c :: rest) (byteLength (c :: rest)) = some (c :: rest) := by
      simpa using sliceTo_append (c :: rest) []
    have hfrom : sliceFrom (c :: rest) (byteLength (c :: rest)) = some [] := by
      simpa using sliceFrom_append (c :: rest) []
    rw [find_eq_none h]
    dsimp only
    rw [hto, hfrom, takeWhile_ne_self h, dropWhile_ne_self h]
    rfl

theorem slicedStep_eq {input : List Char} (h : AsciiText input) (output : List Char) :
    slicedStep input output = some (dotStep input output) := by
  unfold slicedStep dotStep
  split
  · rfl
  · split
    · rfl
    · rfl
    · rfl
    · rfl
    · rfl
    · rw [slicedLast_eq]
      rfl
    · rw [slicedLast_eq]
      rfl
    · rename_i c rest hup hhere hslash hinner hlast hparent hnone
      rw [slicedSegment_eq (h _ List.mem_cons_self)]
      -- no front is special, so both rounds move the segment
      split <;> rename_i heq
      · cases heq
        exact (hup _ rfl rfl).elim
      · cases heq
        exact (hhere _ rfl rfl).elim
      · cases heq
        exact (hslash rfl rfl).elim
      · cases heq
        exact (hinner _ rfl rfl).elim
      · cases heq
        exact (hlast rfl rfl).elim
      · cases heq
        exact (hparent _ rfl rfl).elim
      · cases heq
        rfl
      · cases heq

/-! ## The loop on ASCII text -/

/-- A round brings no character that was not there. -/
theorem dotStep_subset {input : List Char} (output : List Char) : (dotStep input output).1 ⊆ input := by
  unfold dotStep
  split
  · exact List.nil_subset _
  · split
    case h_7 => exact List.Subset.trans (List.dropWhile_sublist _).subset (List.subset_cons_self _ _)
    all_goals simp +contextual [List.subset_def]

theorem slicedLoop_eq (fuel : Nat) : ∀ {input : List Char} (output : List Char), AsciiText input →
    slicedLoop fuel input output = dotLoop fuel input output := by
  induction fuel with
  | zero => intro input output _; cases input <;> rfl
  | succ fuel ih =>
    intro input output h
    cases input with
    | nil => rfl
    | cons c cs =>
      have hnext : AsciiText (dotStep (c :: cs) output).1 := fun x hx => h x (dotStep_subset output hx)
      rw [slicedLoop, slicedStep_eq h, Option.bind_some, ih _ hnext, dotLoop]

theorem slicedLoop_removeDotSegments {path : List Char} (h : AsciiText path) :
    slicedLoop path.length path [] = some (removeDotSegments path) := by
  rw [slicedLoop_eq _ _ h, removeDotSegments, Option.some_get]

-- outside of ASCII the cut after the first byte panics
example : slicedLoop 1 ['é'] [] = none := by decide +kernel

/-! ## The reference fold -/

/-- The segments kept so far, after one more. -/
def keepSegment (kept : List (List Char)) (segment : List Char) : List (List Char) :=
  if segment = ['.'] then kept
  else if segment = ['.', '.'] then kept.dropLast
  else kept ++ [segment]

/-- A trailing dot segment leaves a trailing slash. -/
def trailing (segments : List (List Char)) : List (List Char) :=
  if segments.getLast? = some ['.'] ∨ segments.getLast? = some ['.', '.'] then [[]] else []

def referenceSegments (segments : List (List Char)) : List (List Char) :=
  segments.foldl keepSegment [] ++ trailing segments

/-- The path `/path` without its dot segments. -/
def referencePath (path : List Char) : List Char :=
  '/' :: ['/'].intercalate (referenceSegments (path.splitOn '/'))

theorem trailing_cons (s t : List Char) (segments : List (List Char)) :
    trailing (s :: t :: segments) = trailing (t :: segments) := by
  simp [trailing]

theorem dropDots_eq_fold (segments kept : List (List Char)) :
    rfcDots.dropDots kept segments = segments.foldl keepSegment kept ++ trailing segments := by
  fun_induction rfcDots.dropDots kept segments with
  | case1 kept => simp [trailing]
  | case2 kept s hd =>
    obtain rfl := of_decide_eq_true hd
    rw [rfcDots_up]
    rfl
  | case3 kept s hd hs =>
    obtain rfl := of_decide_eq_true hs
    rfl
  | case4 kept s hd hs =>
    have hs := of_decide_eq_false (Bool.eq_false_iff.2 hs)
    have hd := of_decide_eq_false (Bool.eq_false_iff.2 hd)
    simp [trailing, keepSegment, hs, hd]
  | case5 kept s t rest hd ih =>
    obtain rfl := of_decide_eq_true hd
    rw [ih, trailing_cons, rfcDots_up]
    rfl
  | case6 kept s t rest hd hs ih =>
    obtain rfl := of_decide_eq_true hs
    rw [ih, trailing_cons]
    rfl
  | case7 kept s t rest hd hs ih =>
    have hs := of_decide_eq_false (Bool.eq_false_iff.2 hs)
    have hd := of_decide_eq_false (Bool.eq_false_iff.2 hd)
    have hkeep : keepSegment kept s = kept ++ [s] := by rw [keepSegment, if_neg hs, if_neg hd]
    rw [ih, trailing_cons, ← hkeep]
    rfl

theorem removeDotSegments_eq_reference (path : List Char) : removeDotSegments ('/' :: path) = referencePath path := by
  rw [removeDotSegments_eq, DotForms.removeDots, dropDots_eq_fold]
  rfl

example : removeDotSegments "/a//../../../b/.".toList = "/b/".toList := by decide +kernel

/-! ## What is left -/

theorem removeDotSegments_result (path : List Char) :
    ∃ rest, removeDotSegments ('/' :: path) = '/' :: rest ∧ NoDots rest := by
  refine ⟨_, removeDotSegments_eq path, fun s hs => ?_⟩
  obtain ⟨hsingle, hdouble⟩ := rfcDots.plain_removeDots '/' path s hs
  exact ⟨of_decide_eq_false hsingle, of_decide_eq_false hdouble⟩

/-- `remove_dot_segments` ends on ASCII text without a cut outside of it. A path
is left with the segments of the reference fold, none of them a dot segment, so
that nothing is left to remove. -/
theorem dot_segments_removed :
    (∀ text, AsciiText text → slicedLoop text.length text [] = some (removeDotSegments text)) ∧
    ∀ path, removeDotSegments ('/' :: path) = referencePath path ∧
      (∃ rest, removeDotSegments ('/' :: path) = '/' :: rest ∧ NoDots rest) ∧
      removeDotSegments (removeDotSegments ('/' :: path)) = removeDotSegments ('/' :: path) := by
  refine ⟨fun text h => slicedLoop_removeDotSegments h, fun path => ⟨removeDotSegments_eq_reference path,
    removeDotSegments_result path, ?_⟩⟩
  obtain ⟨rest, heq, hrest⟩ := removeDotSegments_result path
  rw [heq, removeDotSegments_noDots hrest]

end EnvoyWebBotAuth.Protocol
