import Mathlib.Data.List.Basic
/-!
# HTTP header lines

A header map is its lines in order, names in lower case. A name may have any
number of lines. Removing a name drops all of them; setting a name leaves it
with one line.
-/

namespace EnvoyWebBotAuth.Lib

abbrev HeaderMap (υ : Type) := List (String × υ)

namespace HeaderMap

variable {υ : Type}

/-- The values of a name, in order. -/
def getAll (h : HeaderMap υ) (name : String) : List υ := (h.filter (fun l => l.1 = name)).map Prod.snd

/-- The first value of a name. -/
def getFirst (h : HeaderMap υ) (name : String) : Option υ := (getAll h name).head?

def remove (h : HeaderMap υ) (name : String) : HeaderMap υ := h.filter (fun l => l.1 ≠ name)

def set (h : HeaderMap υ) (name : String) (v : υ) : HeaderMap υ := remove h name ++ [(name, v)]

def names (h : HeaderMap υ) : List String := h.map Prod.fst

/-- The lines of all other names. -/
def without (h : HeaderMap υ) (ns : List String) : HeaderMap υ := h.filter (fun l => l.1 ∉ ns)

@[simp] theorem getAll_nil (name : String) : getAll ([] : HeaderMap υ) name = [] := rfl

@[simp] theorem getAll_append (h h' : HeaderMap υ) (name : String) :
    getAll (h ++ h') name = getAll h name ++ getAll h' name := by
  simp [getAll]

@[simp] theorem getAll_singleton_self (name : String) (v : υ) : getAll [(name, v)] name = [v] := by
  simp [getAll]

theorem getAll_singleton_ne {name name' : String} (v : υ) (h : name ≠ name') : getAll [(name, v)] name' = [] := by
  simp [getAll, h]

theorem getAll_without_of_mem {name : String} {ns : List String} (h : HeaderMap υ) (hn : name ∈ ns) :
    getAll (without h ns) name = [] := by
  simp only [getAll, without, List.map_eq_nil_iff, List.filter_eq_nil_iff, List.mem_filter]
  rintro l ⟨-, hl⟩ he
  simp_all

theorem getAll_without_of_not_mem {name : String} {ns : List String} (h : HeaderMap υ) (hn : name ∉ ns) :
    getAll (without h ns) name = getAll h name := by
  simp only [getAll, without, List.filter_filter]
  congr 2
  funext l
  by_cases hl : l.1 = name <;> simp [hl, hn]

theorem remove_eq_without (h : HeaderMap υ) (name : String) : remove h name = without h [name] := by
  simp [remove, without]

theorem without_without (h : HeaderMap υ) (ns ns' : List String) :
    without (without h ns) ns' = without h (ns ++ ns') := by
  simp only [without, List.filter_filter]
  congr 1
  funext l
  simp [not_or, Bool.and_comm]

@[simp] theorem getAll_set_self (h : HeaderMap υ) (name : String) (v : υ) : getAll (set h name v) name = [v] := by
  simp [set, remove_eq_without, getAll_without_of_mem]

theorem getAll_set_ne {name name' : String} (h : HeaderMap υ) (v : υ) (hn : name ≠ name') :
    getAll (set h name v) name' = getAll h name' := by
  rw [set, getAll_append, remove_eq_without, getAll_without_of_not_mem h (by simpa using hn.symm),
    getAll_singleton_ne v hn, List.append_nil]

/-- Setting a name leaves the other lines. -/
theorem set_without {name : String} {ns : List String} (h : HeaderMap υ) (v : υ) (hn : name ∈ ns) :
    without (set h name v) ns = without h ns := by
  have hlast : without [(name, v)] ns = [] := by simp [without, hn]
  have hrest : without (without h [name]) ns = without h ns := by
    rw [without_without]
    refine List.filter_congr fun l _ => ?_
    by_cases hl : l.1 = name <;> simp [hl, hn]
  rw [set, remove_eq_without]
  calc without (without h [name] ++ [(name, v)]) ns
      = without (without h [name]) ns ++ without [(name, v)] ns := List.filter_append _ _
    _ = without h ns := by rw [hlast, hrest, List.append_nil]

theorem getFirst_isSome_iff {h : HeaderMap υ} {name : String} :
    (getFirst h name).isSome ↔ getAll h name ≠ [] := by
  rw [getFirst]; cases getAll h name <;> simp

end HeaderMap

end EnvoyWebBotAuth.Lib
