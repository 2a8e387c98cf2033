import Mathlib.Data.Finset.Card
/-!
# Sliding windows

A bounded table of keys and of the time each was last stamped. Entries expire
lazily: only the steps that look at the table drop the old ones. However the
steps follow each other, no window of time sees more than `cap` different keys
stamped (`Runs.card_le`).
-/

namespace EnvoyWebBotAuth.Lib.SlidingWindow

variable {κ : Type}

def recent (window now : Nat) (stamps : List (κ × Nat)) : List (κ × Nat) :=
  stamps.filter (fun seen => now - seen.2 < window)

def stamp [DecidableEq κ] (key : κ) (now : Nat) (stamps : List (κ × Nat)) : List (κ × Nat) :=
  (key, now) :: stamps.filter (fun seen => seen.1 ≠ key)

/-- Whether the table has room for the key, or has it already. -/
def HasRoom (cap : Nat) (key : κ) (stamps : List (κ × Nat)) : Prop :=
  (∃ seen ∈ stamps, seen.1 = key) ∨ stamps.length < cap

/-- The tables of a run, with the stamps that were given, the latest first,
and the time of the last step. -/
inductive Runs [DecidableEq κ] (cap window : Nat) : List (κ × Nat) → Nat → List (κ × Nat) → Prop
  | start : Runs cap window [] 0 []
  | idle {history stamps : List (κ × Nat)} {last now : Nat} :
      Runs cap window history last stamps → last ≤ now → Runs cap window history now stamps
  | expire {history stamps : List (κ × Nat)} {last now : Nat} :
      Runs cap window history last stamps → last ≤ now → Runs cap window history now (recent window now stamps)
  | stamp {history stamps : List (κ × Nat)} {last now : Nat} {key : κ} :
      Runs cap window history last stamps → last ≤ now → HasRoom cap key (recent window now stamps) →
      Runs cap window ((key, now) :: history) now (stamp key now (recent window now stamps))

variable {cap window start now last : Nat} {key : κ} {stamps history : List (κ × Nat)}

theorem recent_subset : recent window now stamps ⊆ stamps := List.filter_subset_self _

theorem recent_length : (recent window now stamps).length ≤ stamps.length := List.length_filter_le _ _

/-- A key that was stamped lately is in the table, with that stamp or a later one. -/
def Kept (window last : Nat) (history stamps : List (κ × Nat)) : Prop :=
  ∀ given ∈ history, last - given.2 < window → ∃ seen, given.2 ≤ seen ∧ (given.1, seen) ∈ stamps

theorem Kept.recent (h : Kept window last history stamps) (hle : last ≤ now) :
    Kept window now history (recent window now stamps) := by
  intro given hg hw
  obtain ⟨seen, hs, hm⟩ := h given hg (by omega)
  refine ⟨seen, hs, List.mem_filter.2 ⟨hm, ?_⟩⟩
  rw [decide_eq_true_eq]
  omega

variable [DecidableEq κ]

/-- Stamping a key takes a place only if the key has none. -/
theorem stamp_length (hroom : HasRoom cap key stamps) (h : stamps.length ≤ cap) : (stamp key now stamps).length ≤ cap := by
  unfold stamp
  rw [List.length_cons]
  rcases hroom with ⟨seen, hs, hk⟩ | hlt
  · have hless : (stamps.filter (fun seen => seen.1 ≠ key)).length < stamps.length := by
      apply List.length_filter_lt_length_iff_exists.2
      exact ⟨seen, hs, by simp [hk]⟩
    omega
  · have hle := List.length_filter_le (fun seen : κ × Nat => decide (seen.1 ≠ key)) stamps
    omega

theorem Runs.length_le (h : Runs cap window history last stamps) : stamps.length ≤ cap := by
  induction h with
  | start => exact Nat.zero_le _
  | idle _ _ ih => exact ih
  | expire _ _ ih => exact le_trans recent_length ih
  | stamp _ _ hroom ih => exact stamp_length hroom (le_trans recent_length ih)

theorem Runs.le_last (h : Runs cap window history last stamps) : ∀ given ∈ history, given.2 ≤ last := by
  induction h with
  | start => simp
  | idle _ hle ih => exact fun given hg => le_trans (ih given hg) hle
  | expire _ hle ih => exact fun given hg => le_trans (ih given hg) hle
  | stamp _ hle _ ih =>
    intro given hg
    rcases List.mem_cons.1 hg with rfl | hg
    · exact le_refl _
    · exact le_trans (ih given hg) hle

theorem Kept.stamp (h : Kept window now history stamps) (hle : ∀ given ∈ history, given.2 ≤ now) :
    Kept window now ((key, now) :: history) (stamp key now stamps) := by
  intro given hg hw
  rcases List.mem_cons.1 hg with rfl | hg
  · exact ⟨now, le_refl _, List.mem_cons_self⟩
  · by_cases hk : given.1 = key
    · -- the key had an entry of its own, which the new one replaces
      refine ⟨now, hle given hg, ?_⟩
      rw [hk]
      exact List.mem_cons_self
    · obtain ⟨seen, hs, hm⟩ := h given hg hw
      refine ⟨seen, hs, List.mem_cons_of_mem _ (List.mem_filter.2 ⟨hm, ?_⟩)⟩
      simpa using hk

theorem Runs.kept (h : Runs cap window history last stamps) : Kept window last history stamps := by
  induction h with
  | start => intro given hg; cases hg
  | idle _ hle ih => exact fun given hg hw => ih given hg (by omega)
  | expire _ hle ih => exact ih.recent hle
  | stamp hrun hle _ ih => exact (ih.recent hle).stamp fun given hg => le_trans (hrun.le_last given hg) hle

/-- The keys stamped in the window that begins at `start`. -/
def stampedIn (window start : Nat) (history : List (κ × Nat)) : Finset κ :=
  ((history.filter (fun given => start ≤ given.2 ∧ given.2 < start + window)).map Prod.fst).toFinset

theorem mem_stampedIn :
    key ∈ stampedIn window start history ↔
      ∃ given ∈ history, (start ≤ given.2 ∧ given.2 < start + window) ∧ given.1 = key := by
  simp [stampedIn]

/-- The last stamp of a window finds the earlier ones of it in the table. -/
theorem Runs.stampedIn_subset (h : Runs cap window history last stamps) (hlast : last < start + window) :
    stampedIn window start history ⊆ (stamps.map Prod.fst).toFinset := by
  intro key hk
  obtain ⟨given, hg, ⟨hfrom, -⟩, rfl⟩ := mem_stampedIn.1 hk
  have hle := h.le_last given hg
  obtain ⟨seen, -, hm⟩ := h.kept given hg (by omega)
  rw [List.mem_toFinset]
  exact List.mem_map.2 ⟨_, hm, rfl⟩

theorem stampedIn_cons_of_not (h : ¬(start ≤ now ∧ now < start + window)) :
    stampedIn window start ((key, now) :: history) = stampedIn window start history := by
  unfold stampedIn
  rw [List.filter_cons_of_neg (by simpa using h)]

theorem card_keys_le : (stamps.map Prod.fst).toFinset.card ≤ stamps.length := by
  simpa using List.toFinset_card_le (stamps.map Prod.fst)

/-- At most `cap` keys are stamped in any window of time. -/
theorem Runs.card_le (h : Runs cap window history last stamps) (start : Nat) :
    (stampedIn window start history).card ≤ cap := by
  induction h with
  | start => simp [stampedIn]
  | idle _ _ ih => exact ih
  | expire _ _ ih => exact ih
  | @stamp _ _ _ now key hrun hle hroom ih =>
    by_cases hin : start ≤ now ∧ now < start + window
    · have hnext := hrun.stamp hle hroom
      exact le_trans (Finset.card_le_card (hnext.stampedIn_subset hin.2)) (le_trans card_keys_le hnext.length_le)
    · rw [stampedIn_cons_of_not hin]
      exact ih

end EnvoyWebBotAuth.Lib.SlidingWindow
