import Mathlib.Data.List.Nodup
import Mathlib.Data.List.Induction
/-!
# Insertion-ordered maps

A map that remembers the order in which its keys first came in. Inserting a
key that is there already replaces its value and leaves its place. A value of
`IndexMap` carries the proof that its keys are distinct, so looking a key up
finds the only entry it has.

`extend_ofEntries` is the fact the rest uses: merging a map built from some
entries gives the map that inserting these entries one by one gives.
-/

namespace EnvoyWebBotAuth.Lib

variable {κ υ : Type} [DecidableEq κ]

/-- Replace the value of `k` where it stands, or append it. -/
def putEntry (k : κ) (v : υ) : List (κ × υ) → List (κ × υ)
  | [] => [(k, v)]
  | e :: es => if e.1 = k then (k, v) :: es else e :: putEntry k v es

theorem mem_keys_putEntry {k k' : κ} {v : υ} {es : List (κ × υ)} :
    k' ∈ (putEntry k v es).map Prod.fst ↔ k' = k ∨ k' ∈ es.map Prod.fst := by
  induction es with
  | nil => simp [putEntry]
  | cons e es ih =>
    rw [putEntry]
    split
    · rename_i he; simp [he]
    · rw [List.map_cons, List.mem_cons, ih, List.map_cons, List.mem_cons]; tauto

theorem nodup_putEntry (k : κ) (v : υ) (es : List (κ × υ)) (h : (es.map Prod.fst).Nodup) :
    ((putEntry k v es).map Prod.fst).Nodup := by
  induction es with
  | nil => simp [putEntry]
  | cons e es ih =>
    simp only [List.map_cons, List.nodup_cons] at h
    rw [putEntry]
    split
    · rename_i he; simpa [← he] using h
    · rename_i he
      refine List.nodup_cons.2 ⟨fun hm => ?_, ih h.2⟩
      rcases mem_keys_putEntry.1 hm with hk | hm
      · exact he hk
      · exact h.1 hm

/-- Entries with distinct keys, in the order the keys came in. -/
structure IndexMap (κ υ : Type) where
  entries : List (κ × υ)
  nodup : (entries.map Prod.fst).Nodup

instance [DecidableEq υ] : DecidableEq (IndexMap κ υ) :=
  fun m m' => decidable_of_iff (m.entries = m'.entries) (by cases m; cases m'; simp)

namespace IndexMap

omit [DecidableEq κ] in
theorem ext_entries {m m' : IndexMap κ υ} (h : m.entries = m'.entries) : m = m' := by
  cases m; cases m'; cases h; rfl

def empty : IndexMap κ υ := ⟨[], List.nodup_nil⟩

def keys (m : IndexMap κ υ) : List κ := m.entries.map Prod.fst

def get (m : IndexMap κ υ) (k : κ) : Option υ := (m.entries.find? (fun e => e.1 = k)).map Prod.snd

def insert (m : IndexMap κ υ) (k : κ) (v : υ) : IndexMap κ υ :=
  ⟨putEntry k v m.entries, nodup_putEntry k v m.entries m.nodup⟩

/-- Insert entries one by one. -/
def extend (m : IndexMap κ υ) (es : List (κ × υ)) : IndexMap κ υ :=
  es.foldl (fun m e => m.insert e.1 e.2) m

def ofEntries (es : List (κ × υ)) : IndexMap κ υ := empty.extend es

@[simp] theorem extend_nil (m : IndexMap κ υ) : m.extend [] = m := rfl

@[simp] theorem extend_cons (m : IndexMap κ υ) (e : κ × υ) (es : List (κ × υ)) :
    m.extend (e :: es) = (m.insert e.1 e.2).extend es := rfl

theorem extend_append (m : IndexMap κ υ) (es es' : List (κ × υ)) :
    m.extend (es ++ es') = (m.extend es).extend es' := List.foldl_append

/-! ## Looking up -/

@[simp] theorem get_empty (k : κ) : (empty : IndexMap κ υ).get k = none := rfl

theorem find?_putEntry (k k' : κ) (v : υ) (es : List (κ × υ)) :
    ((putEntry k v es).find? (fun e => e.1 = k')).map Prod.snd =
      if k = k' then some v else (es.find? (fun e => e.1 = k')).map Prod.snd := by
  induction es with
  | nil => by_cases h : k = k' <;> simp [putEntry, h]
  | cons e es ih =>
    rw [putEntry]
    by_cases he : e.1 = k
    · rw [if_pos he]
      by_cases h : k = k' <;> simp [h, he]
    · rw [if_neg he, List.find?_cons, List.find?_cons]
      by_cases h' : e.1 = k'
      · have : k ≠ k' := fun hk => he (h'.trans hk.symm)
        simp [h', this]
      · simpa [h'] using ih

theorem get_insert (m : IndexMap κ υ) (k k' : κ) (v : υ) :
    (m.insert k v).get k' = if k = k' then some v else m.get k' :=
  find?_putEntry k k' v m.entries

theorem get_eq_some_iff {m : IndexMap κ υ} {k : κ} {v : υ} : m.get k = some v ↔ (k, v) ∈ m.entries := by
  unfold get
  constructor
  · intro h
    obtain ⟨⟨k', v'⟩, hf, rfl⟩ := Option.map_eq_some_iff.1 h
    have hk : k' = k := by simpa using List.find?_some hf
    exact hk ▸ List.mem_of_find?_eq_some hf
  · intro h
    cases hf : m.entries.find? (fun e => e.1 = k) with
    | none => simpa using List.find?_eq_none.1 hf _ h
    | some e =>
      have hk : e.1 = k := by simpa using List.find?_some hf
      have he := List.inj_on_of_nodup_map m.nodup (List.mem_of_find?_eq_some hf) h hk
      simp [he]

/-- What a key has after inserts it had before, or one of the inserts gave it. -/
theorem get_extend {es : List (κ × υ)} {k : κ} {v : υ} :
    ∀ {m : IndexMap κ υ}, (m.extend es).get k = some v → m.get k = some v ∨ (k, v) ∈ es := by
  induction es with
  | nil => exact fun h => .inl h
  | cons e es ih =>
    intro m h
    rcases ih h with hi | hm
    · rw [get_insert] at hi
      split at hi
      · rename_i hk
        obtain ⟨k', v'⟩ := e
        cases hi; cases hk
        exact .inr List.mem_cons_self
      · exact .inl hi
    · exact .inr (List.mem_cons_of_mem _ hm)

/-! ## Merging -/

theorem putEntry_putEntry (k : κ) (v v' : υ) (es : List (κ × υ)) :
    putEntry k v (putEntry k v' es) = putEntry k v es := by
  induction es with
  | nil => simp [putEntry]
  | cons e es ih =>
    by_cases h : e.1 = k
    · simp [putEntry, h]
    · simp [putEntry, h, ih]

/-- Replacing the value of a key that is there commutes with any other insert. -/
theorem putEntry_comm {k k' : κ} (v v' : υ) {es : List (κ × υ)} (hk : k ∈ es.map Prod.fst) (hne : k ≠ k') :
    putEntry k v (putEntry k' v' es) = putEntry k' v' (putEntry k v es) := by
  induction es with
  | nil => cases hk
  | cons e es ih =>
    by_cases h : e.1 = k
    · have h' : e.1 ≠ k' := fun he => hne (h.symm.trans he)
      simp [putEntry, h, hne]
    · have hk' : k ∈ es.map Prod.fst := by
        rcases List.mem_cons.1 hk with he | hm
        · exact absurd he.symm h
        · exact hm
      by_cases h' : e.1 = k'
      · simp [putEntry, h', Ne.symm hne]
      · simp [putEntry, h, h', ih hk']

/-- A key's value may be replaced before or after entries of other keys. -/
theorem extend_insert_comm (es : List (κ × υ)) (k : κ) (v : υ) (h : k ∉ es.map Prod.fst) :
    ∀ m : IndexMap κ υ, k ∈ m.keys → (m.extend es).insert k v = (m.insert k v).extend es := by
  induction es with
  | nil => intro m _; rfl
  | cons e es ih =>
    intro m hm
    simp only [List.map_cons, List.mem_cons, not_or] at h
    have hk : k ∈ (m.insert e.1 e.2).keys := mem_keys_putEntry.2 (.inr hm)
    rw [extend_cons, extend_cons, ih h.2 _ hk]
    exact congrArg (extend · es) (ext_entries (putEntry_comm v e.2 hm h.1))

/-- Merging a map after one more insert is one more insert after the merge. -/
theorem extend_putEntry (es : List (κ × υ)) (k : κ) (v : υ) (hn : (es.map Prod.fst).Nodup) :
    ∀ m : IndexMap κ υ, m.extend (putEntry k v es) = (m.extend es).insert k v := by
  induction es with
  | nil => intro m; rfl
  | cons e es ih =>
    intro m
    simp only [List.map_cons, List.nodup_cons] at hn
    by_cases he : e.1 = k
    · have hk : k ∈ (m.insert e.1 e.2).keys := mem_keys_putEntry.2 (.inl he.symm)
      rw [putEntry, if_pos he, extend_cons, extend_cons, extend_insert_comm es k v (he ▸ hn.1) _ hk]
      subst he
      exact congrArg (extend · es) (ext_entries (putEntry_putEntry e.1 v e.2 m.entries).symm)
    · rw [putEntry, if_neg he, extend_cons, extend_cons, ih hn.2]

/-- Merging the map of some entries is inserting these entries. -/
theorem extend_ofEntries (m : IndexMap κ υ) (es : List (κ × υ)) :
    m.extend (ofEntries es).entries = m.extend es := by
  induction es using List.reverseRecOn with
  | nil => rfl
  | append_singleton es e ih =>
    have hof : (ofEntries (es ++ [e])).entries = putEntry e.1 e.2 (ofEntries es).entries := by
      simp only [ofEntries, extend_append]; rfl
    rw [hof, extend_putEntry _ _ _ (ofEntries es).nodup, ih, extend_append]
    rfl

end IndexMap

end EnvoyWebBotAuth.Lib
