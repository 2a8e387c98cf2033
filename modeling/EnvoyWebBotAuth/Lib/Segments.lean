import Mathlib.Algebra.Order.Ring.Nat
import Mathlib.Data.List.Induction
/-!
# Segments and dot segments

A path is its segments with a separator between them. `DotForms` says which
segments stand for "here" and which for "one up", and which ones "one up" does
not drop; `removeDots` drops the dot segments the way a URL parser does. Dropping commutes with any change of the path that goes
element by element and keeps the separators (`removeDots_flatMap`).
-/

namespace EnvoyWebBotAuth.Lib

variable {α β : Type} [DecidableEq α] [DecidableEq β]

/-! ## Splitting -/

theorem splitOn_append_of_not_mem {a : α} {ys : List α} (h : a ∉ ys) (zs : List α) :
    (ys ++ zs).splitOn a = (zs.splitOn a).modifyHead (ys ++ ·) := by
  induction ys with
  | nil => cases hz : zs.splitOn a <;> simp [hz]
  | cons y ys ih =>
    simp only [List.mem_cons, not_or] at h
    rw [List.cons_append, List.splitOn_cons_eq_if_modifyHead, if_neg (by simpa using Ne.symm h.1), ih h.2]
    cases zs.splitOn a <;> rfl

theorem not_mem_of_mem_splitOn {a : α} {xs s : List α} (h : s ∈ xs.splitOn a) : a ∉ s := by
  induction xs generalizing s with
  | nil => simp_all
  | cons x xs ih =>
    rw [List.splitOn_cons_eq_if_modifyHead] at h
    split at h
    · rcases List.mem_cons.1 h with rfl | h
      · simp
      · exact ih h
    · rename_i hx
      cases hs : xs.splitOn a with
      | nil => exact absurd hs (List.splitOn_ne_nil a xs)
      | cons t ts =>
        rw [hs, List.modifyHead_cons] at h
        rcases List.mem_cons.1 h with rfl | h
        · have ht := ih (s := t) (by simp [hs])
          simp only [List.mem_cons, not_or]
          exact ⟨fun h => hx (by simp [h]), ht⟩
        · exact ih (by simp [hs, h])

/-- Replacing elements by lists replaces them inside the segments, if only the
separator becomes the separator. -/
theorem splitOn_flatMap {a : α} {b : β} {f : α → List β} (ha : f a = [b]) (hne : ∀ x, x ≠ a → b ∉ f x)
    (xs : List α) : (xs.flatMap f).splitOn b = (xs.splitOn a).map (·.flatMap f) := by
  induction xs with
  | nil => simp
  | cons x xs ih =>
    rw [List.flatMap_cons, List.splitOn_cons_eq_if_modifyHead]
    by_cases hx : x = a
    · subst hx
      rw [ha, List.singleton_append, List.splitOn_cons_eq_if_modifyHead]
      simp [ih]
    · rw [splitOn_append_of_not_mem (hne x hx), ih, if_neg (by simpa using hx)]
      cases xs.splitOn a <;> simp

omit [DecidableEq α] in
/-- A property that holds of a list with a separator exactly if it holds on
both sides of it holds exactly if it holds of every segment. -/
theorem forall_intercalate {a : α} {P : List α → Prop} (hP : ∀ s rest, P (s ++ a :: rest) ↔ P s ∧ P rest)
    {segs : List (List α)} (hne : segs ≠ []) : P ([a].intercalate segs) ↔ ∀ s ∈ segs, P s := by
  induction segs, hne using List.recNeNil with
  | singleton s => simp
  | cons s segs hne ih =>
    rw [List.intercalate_cons_of_ne_nil hne, List.append_assoc, List.singleton_append, hP, ih]
    exact List.forall_mem_cons.symm

omit [DecidableEq α] [DecidableEq β] in
/-- What goes segment by segment goes into the segments of a path. -/
theorem map_intercalate {a : α} {b : β} {F : List α → List β} (hF : ∀ s rest, F (s ++ a :: rest) = F s ++ b :: F rest)
    {segs : List (List α)} (hne : segs ≠ []) : F ([a].intercalate segs) = [b].intercalate (segs.map F) := by
  induction segs, hne using List.recNeNil with
  | singleton s => simp
  | cons s segs hne ih =>
    have hmap : segs.map F ≠ [] := by simpa using hne
    rw [List.intercalate_cons_of_ne_nil hne, List.append_assoc, List.singleton_append, hF, ih, List.map_cons,
      List.intercalate_cons_of_ne_nil hmap]
    simp

/-- Splitting commutes with what goes segment by segment. -/
theorem splitOn_of_append {a : α} {b : β} {F : List α → List β} (hF : ∀ s rest, F (s ++ a :: rest) = F s ++ b :: F rest)
    (hno : ∀ s, a ∉ s → b ∉ F s) (xs : List α) : (F xs).splitOn b = (xs.splitOn a).map F := by
  have hwhole := map_intercalate hF (List.splitOn_ne_nil a xs)
  rw [List.intercalate_splitOn] at hwhole
  rw [hwhole]
  refine List.splitOn_intercalate b (fun l hl => ?_) (by simp)
  obtain ⟨s, hs, rfl⟩ := List.mem_map.1 hl
  exact hno s (not_mem_of_mem_splitOn hs)

theorem forall_splitOn {a : α} {P : List α → Prop} (hP : ∀ s rest, P (s ++ a :: rest) ↔ P s ∧ P rest)
    (xs : List α) : P xs ↔ ∀ s ∈ xs.splitOn a, P s := by
  rw [← forall_intercalate hP (List.splitOn_ne_nil a xs), List.intercalate_splitOn]

/-! ## Dropping dot segments -/

structure DotForms (α : Type) where
  single : List α → Bool
  double : List α → Bool
  /-- The segments a double form leaves in place. -/
  keeps : List α → Bool
  single_nil : single [] = false
  double_nil : double [] = false

namespace DotForms

variable (f : DotForms α)

omit [DecidableEq α] in
theorem ext_forms {f g : DotForms α} (hs : f.single = g.single) (hd : f.double = g.double) (hk : f.keeps = g.keeps) :
    f = g := by
  cases f
  cases g
  obtain rfl := hs
  obtain rfl := hd
  obtain rfl := hk
  rfl

/-- Neither form. -/
def Plain (s : List α) : Prop := f.single s = false ∧ f.double s = false

instance (s : List α) : Decidable (f.Plain s) := by unfold Plain; infer_instance

omit [DecidableEq α] in
theorem plain_nil : f.Plain [] := ⟨f.single_nil, f.double_nil⟩

/-- One up from the segments kept so far. -/
def up (done : List (List α)) : List (List α) :=
  if done.getLast?.any f.keeps then done else done.dropLast

omit [DecidableEq α] in
theorem up_cases (done : List (List α)) : f.up done = done ∨ f.up done = done.dropLast := by
  unfold up
  split
  · exact .inl rfl
  · exact .inr rfl

omit [DecidableEq α] in
theorem up_of_keeps_nothing (h : ∀ s, f.keeps s = false) (done : List (List α)) : f.up done = done.dropLast := by
  have hnone : done.getLast?.any f.keeps = false := by cases done.getLast? <;> simp [h]
  rw [up, hnone, if_neg (by decide)]

omit [DecidableEq α] in
theorem up_subset (done : List (List α)) : f.up done ⊆ done := by
  rcases f.up_cases done with h | h
  · rw [h]
    exact List.Subset.refl done
  · rw [h]
    exact List.dropLast_subset done

omit [DecidableEq α] [DecidableEq β] in
theorem up_map {f' : DotForms β} {g : List α → List β} (hk : ∀ s, f'.keeps (g s) = f.keeps s)
    (done : List (List α)) : f'.up (done.map g) = (f.up done).map g := by
  have hany : (done.map g).getLast?.any f'.keeps = done.getLast?.any f.keeps := by
    rw [List.getLast?_map]
    cases done.getLast? <;> simp [hk]
  rw [up, up, hany]
  split
  · rfl
  · exact List.map_dropLast.symm

/-- Go through the segments with those kept so far. A last segment of either
form leaves an empty one, so that the path ends as a directory. -/
def dropDots : List (List α) → List (List α) → List (List α)
  | done, [] => done
  | done, [s] =>
    if f.double s then f.up done ++ [[]] else if f.single s then done ++ [[]] else done ++ [s]
  | done, s :: s' :: rest =>
    if f.double s then dropDots (f.up done) (s' :: rest)
    else if f.single s then dropDots done (s' :: rest)
    else dropDots (done ++ [s]) (s' :: rest)

omit [DecidableEq α] in
theorem dropDots_of_plain (segs : List (List α)) (h : ∀ s ∈ segs, f.Plain s) (done : List (List α)) :
    f.dropDots done segs = done ++ segs := by
  induction segs generalizing done with
  | nil => simp [dropDots]
  | cons s segs ih =>
    obtain ⟨hs, hd⟩ := h s List.mem_cons_self
    cases segs with
    | nil => simp [dropDots, hs, hd]
    | cons s' rest =>
      rw [dropDots, hs, hd]
      simp [ih (fun t ht => h t (List.mem_cons_of_mem _ ht))]

omit [DecidableEq α] in
/-- What is left was left before, or is a plain segment, or the empty one. -/
theorem mem_dropDots {segs done : List (List α)} {t : List α} (h : t ∈ f.dropDots done segs) :
    t ∈ done ∨ (t ∈ segs ∧ f.Plain t) ∨ t = [] := by
  fun_induction f.dropDots done segs with
  | case1 done => exact .inl h
  | case2 done s hd =>
    rcases List.mem_append.1 h with h | h
    · exact .inl (f.up_subset _ h)
    · exact .inr (.inr (List.mem_singleton.1 h))
  | case3 done s hd hs =>
    rcases List.mem_append.1 h with h | h
    · exact .inl h
    · exact .inr (.inr (List.mem_singleton.1 h))
  | case4 done s hd hs =>
    rcases List.mem_append.1 h with h | h
    · exact .inl h
    · obtain rfl := List.mem_singleton.1 h
      exact .inr (.inl ⟨h, by simpa using hs, by simpa using hd⟩)
  | case5 done s s' rest hd ih =>
    rcases ih h with h | ⟨h, hp⟩ | h
    · exact .inl (f.up_subset _ h)
    · exact .inr (.inl ⟨List.mem_cons_of_mem _ h, hp⟩)
    · exact .inr (.inr h)
  | case6 done s s' rest hd hs ih =>
    rcases ih h with h | ⟨h, hp⟩ | h
    · exact .inl h
    · exact .inr (.inl ⟨List.mem_cons_of_mem _ h, hp⟩)
    · exact .inr (.inr h)
  | case7 done s s' rest hd hs ih =>
    rcases ih h with h | ⟨h, hp⟩ | h
    · rcases List.mem_append.1 h with h | h
      · exact .inl h
      · obtain rfl := List.mem_singleton.1 h
        exact .inr (.inl ⟨List.mem_cons_self, by simpa using hs, by simpa using hd⟩)
    · exact .inr (.inl ⟨List.mem_cons_of_mem _ h, hp⟩)
    · exact .inr (.inr h)

omit [DecidableEq α] in
theorem dropDots_ne_nil {segs : List (List α)} (h : segs ≠ []) (done : List (List α)) :
    f.dropDots done segs ≠ [] := by
  fun_induction f.dropDots done segs with
  | case1 => exact absurd rfl h
  | case2 | case3 | case4 => simp
  | case5 done s s' rest hd ih | case6 done s s' rest hd hs ih | case7 done s s' rest hd hs ih => exact ih (by simp)

omit [DecidableEq α] [DecidableEq β] in
/-- Dropping commutes with a change of the segments that keeps their form. -/
theorem dropDots_map {f' : DotForms β} {g : List α → List β} (hnil : g [] = [])
    (hs : ∀ s, f'.single (g s) = f.single s) (hd : ∀ s, f'.double (g s) = f.double s)
    (hk : ∀ s, f'.keeps (g s) = f.keeps s) (segs done : List (List α)) : f'.dropDots (done.map g) (segs.map g) = (f.dropDots done segs).map g := by
  fun_induction f.dropDots done segs <;>
    simp_all [dropDots, f.up_map hk]

omit [DecidableEq α] in
theorem up_size (size : List α → Nat) (l : List (List α)) :
    ((f.up l).map (fun s => size s + 1)).sum ≤ (l.map (fun s => size s + 1)).sum := by
  rcases f.up_cases l with h | h
  · rw [h]
  · rw [h]
    induction l using List.reverseRecOn with
    | nil => simp
    | append_singleton l s _ => simp

omit [DecidableEq α] in
/-- Dropping never makes a path longer: its segments, each counted with its
separator, are among those of the input. -/
theorem dropDots_size (size : List α → Nat) (h0 : size [] = 0) (segs done : List (List α)) :
    ((f.dropDots done segs).map (fun s => size s + 1)).sum ≤
      (done.map (fun s => size s + 1)).sum + (segs.map (fun s => size s + 1)).sum := by
  fun_induction f.dropDots done segs with
  | case1 | case3 | case4 => simp [h0]
  | case2 done s hd =>
    have hlast := f.up_size size done
    simp only [List.map_append, List.map_cons, List.map_nil, List.sum_append, List.sum_cons, List.sum_nil, h0]
    omega
  | case5 done s s' rest hd ih =>
    have hlast := f.up_size size done
    simp only [List.map_cons, List.sum_cons] at ih ⊢
    omega
  | case6 done s s' rest hd hs ih =>
    simp only [List.map_cons, List.sum_cons] at ih ⊢
    omega
  | case7 done s s' rest hd hs ih =>
    simp only [List.map_append, List.map_cons, List.map_nil, List.sum_append, List.sum_cons, List.sum_nil] at ih ⊢
    omega

omit [DecidableEq α] in
/-- A dot segment makes the path shorter when it is dropped. -/
theorem dropDots_size_lt (size : List α → Nat) (h0 : size [] = 0) (hpos : ∀ s, s ≠ [] → 0 < size s)
    (segs done : List (List α)) (h : ∃ s ∈ segs, ¬ f.Plain s) :
    ((f.dropDots done segs).map (fun s => size s + 1)).sum <
      (done.map (fun s => size s + 1)).sum + (segs.map (fun s => size s + 1)).sum := by
  have hdot : ∀ s, ¬ f.Plain s → 0 < size s := by
    intro s hs
    apply hpos
    rintro rfl
    exact hs f.plain_nil
  fun_induction f.dropDots done segs with
  | case1 =>
    obtain ⟨s, hs, -⟩ := h
    cases hs
  | case2 done s hd =>
    have hlast := f.up_size size done
    have hsize := hdot s fun hp => by simp [hp.2] at hd
    simp only [List.map_append, List.map_cons, List.map_nil, List.sum_append, List.sum_cons, List.sum_nil, h0]
    omega
  | case3 done s hd hs =>
    have hsize := hdot s fun hp => by simp [hp.1] at hs
    simp only [List.map_append, List.map_cons, List.map_nil, List.sum_append, List.sum_cons, List.sum_nil, h0]
    omega
  | case4 done s hd hs =>
    obtain ⟨t, ht, hplain⟩ := h
    obtain rfl := List.mem_singleton.1 ht
    exact absurd ⟨by simpa using hs, by simpa using hd⟩ hplain
  | case5 done s s' rest hd ih =>
    -- the segment itself is dropped, so nothing is asked of the others
    have hle := f.dropDots_size size h0 (s' :: rest) (f.up done)
    have hlast := f.up_size size done
    simp only [List.map_cons, List.sum_cons] at hle ⊢
    omega
  | case6 done s s' rest hd hs ih =>
    have hle := f.dropDots_size size h0 (s' :: rest) done
    simp only [List.map_cons, List.sum_cons] at hle ⊢
    omega
  | case7 done s s' rest hd hs ih =>
    have hrest : ∃ t ∈ s' :: rest, ¬ f.Plain t := by
      obtain ⟨t, ht, hplain⟩ := h
      rcases List.mem_cons.1 ht with rfl | ht
      · exact absurd ⟨by simpa using hs, by simpa using hd⟩ hplain
      · exact ⟨t, ht, hplain⟩
    have ih := ih hrest
    simp only [List.map_append, List.map_cons, List.map_nil, List.sum_append, List.sum_cons, List.sum_nil] at ih ⊢
    omega

/-! ## Paths -/

def removeDots (a : α) (xs : List α) : List α := [a].intercalate (f.dropDots [] (xs.splitOn a))

theorem removeDots_of_plain {a : α} {xs : List α} (h : ∀ s ∈ xs.splitOn a, f.Plain s) : f.removeDots a xs = xs := by
  rw [removeDots, dropDots_of_plain f _ h, List.nil_append, List.intercalate_splitOn]

theorem splitOn_removeDots (a : α) (xs : List α) : (f.removeDots a xs).splitOn a = f.dropDots [] (xs.splitOn a) := by
  refine List.splitOn_intercalate a (fun s hs => ?_) (f.dropDots_ne_nil (List.splitOn_ne_nil a xs) [])
  rcases f.mem_dropDots hs with h | ⟨h, -⟩ | rfl
  · cases h
  · exact not_mem_of_mem_splitOn h
  · simp

/-- No dot segment is left. -/
theorem plain_removeDots (a : α) (xs : List α) : ∀ s ∈ (f.removeDots a xs).splitOn a, f.Plain s := by
  intro s hs
  rw [splitOn_removeDots] at hs
  rcases f.mem_dropDots hs with h | ⟨-, h⟩ | rfl
  · cases h
  · exact h
  · exact f.plain_nil

/-- A property of segmentwise kind survives the dropping. -/
theorem forall_removeDots {a : α} {P : List α → Prop} (hP : ∀ s rest, P (s ++ a :: rest) ↔ P s ∧ P rest)
    (hnil : P []) {xs : List α} (h : P xs) : P (f.removeDots a xs) := by
  refine (forall_splitOn hP _).2 fun s hs => ?_
  rw [splitOn_removeDots] at hs
  rcases f.mem_dropDots hs with hd | ⟨hm, -⟩ | rfl
  · cases hd
  · exact (forall_splitOn hP xs).1 h s hm
  · exact hnil

omit [DecidableEq α] [DecidableEq β] in
theorem intercalate_size {a : α} {g : α → List β} (ha : (g a).length = 1) {segs : List (List α)} (hne : segs ≠ []) :
    (([a].intercalate segs).flatMap g).length + 1 = (segs.map (fun s => (s.flatMap g).length + 1)).sum := by
  induction segs, hne using List.recNeNil with
  | singleton s => simp
  | cons s segs hne ih =>
    rw [List.intercalate_cons_of_ne_nil hne]
    simp only [List.flatMap_append, List.length_append, List.flatMap_cons, List.flatMap_nil, List.append_nil, ha,
      List.map_cons, List.sum_cons] at ih ⊢
    omega

omit [DecidableEq β] in
theorem removeDots_size {a : α} {g : α → List β} (ha : (g a).length = 1) (xs : List α) :
    ((f.removeDots a xs).flatMap g).length ≤ (xs.flatMap g).length := by
  have hne := List.splitOn_ne_nil a xs
  have hout := intercalate_size ha (f.dropDots_ne_nil hne [])
  have hin := intercalate_size ha hne
  have hle := f.dropDots_size (fun s => (s.flatMap g).length) rfl (xs.splitOn a) []
  rw [List.intercalate_splitOn] at hin
  simp only [List.map_nil, List.sum_nil] at hle
  rw [removeDots]
  omega

/-- A path that is as long without its dot segments has none. -/
theorem plain_of_length {a : α} {xs : List α} (h : xs.length ≤ (f.removeDots a xs).length) :
    ∀ s ∈ xs.splitOn a, f.Plain s := by
  by_contra hn
  push Not at hn
  have hlt := f.dropDots_size_lt List.length rfl (fun s hs => List.length_pos_iff.2 hs) _ [] hn
  have hne := List.splitOn_ne_nil a xs
  have hout := intercalate_size (a := a) (g := fun x => [x]) rfl (f.dropDots_ne_nil hne [])
  have hin := intercalate_size (a := a) (g := fun x => [x]) rfl hne
  simp only [List.flatMap_singleton', List.intercalate_splitOn, List.map_nil, List.sum_nil] at hout hin hlt
  rw [removeDots] at h
  omega

theorem removeDots_flatMap {f' : DotForms β} {a : α} {b : β} {g : α → List β} (ha : g a = [b])
    (hne : ∀ x, x ≠ a → b ∉ g x) (hs : ∀ s, f'.single (s.flatMap g) = f.single s)
    (hd : ∀ s, f'.double (s.flatMap g) = f.double s) (hk : ∀ s, f'.keeps (s.flatMap g) = f.keeps s) (xs : List α) :
    f'.removeDots b (xs.flatMap g) = (f.removeDots a xs).flatMap g := by
  have hsegment : ∀ s rest : List α, (s ++ a :: rest).flatMap g = s.flatMap g ++ b :: rest.flatMap g := by
    intro s rest
    simp [ha]
  have hne' := f.dropDots_ne_nil (List.splitOn_ne_nil a xs) []
  rw [removeDots, removeDots, map_intercalate (F := List.flatMap g) hsegment hne', splitOn_flatMap ha hne]
  exact congrArg _ (dropDots_map f rfl hs hd hk _ [])

end DotForms

end EnvoyWebBotAuth.Lib
