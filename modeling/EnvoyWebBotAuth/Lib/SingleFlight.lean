import Mathlib.Data.List.Basic
import Mathlib.Logic.Function.Basic
/-!
# A single-flight cache

A cache that computes the value of an absent key once for all threads that ask
for it (`get_with` of the `moka` crate). The first thread to ask leads: it
computes the value and lands it. Threads that ask meanwhile are parked and are
served what lands. A leader that leaves wakes the parked threads, and each of
them asks again: it finds a value, leads, or is parked once more. Entries may
be forgotten at any time.

The history has what the threads learned, newest first. A value a thread gets
landed after the thread last found the key missing, or after it was parked.
-/

namespace EnvoyWebBotAuth.Lib

/-! ## Since an event -/

section Since

variable {η : Type}

/-- `e` is in the history and no event of `p` is newer. -/
def Since (p : η → Bool) (e : η) (h : List η) : Prop := e ∈ h.takeWhile (fun x => !p x)

theorem Since.head {p : η → Bool} {e : η} (h : List η) (he : p e = false) : Since p e (e :: h) := by
  simp [Since, he]

theorem Since.cons {p : η → Bool} {e x : η} {h : List η} (hs : Since p e h) (hx : p x = false) :
    Since p e (x :: h) := by
  unfold Since at hs ⊢
  rw [List.takeWhile_cons, hx]
  exact List.mem_cons_of_mem x hs

theorem Since.mem_newer {p : η → Bool} {e x : η} {newer older : List η} (hs : Since p e (newer ++ x :: older))
    (hx : p x = true) : e ∈ newer := by
  induction newer with
  | nil => simp [Since, hx] at hs
  | cons y newer ih =>
    unfold Since at hs ih
    rw [List.cons_append, List.takeWhile_cons] at hs
    split at hs
    · rcases List.mem_cons.1 hs with rfl | hs
      · exact List.mem_cons_self
      · exact List.mem_cons_of_mem y (ih hs)
    · cases hs

end Since

/-! ## The cache -/

inductive Seat (K V : Type) where
  | parked (k : K)
  | woken (k : K)
  | served (k : K) (v : V)

structure SingleFlight (K V : Type) where
  entries : K → Option V
  /-- The leader for a key. -/
  running : K → Option Nat
  seats : Nat → Option (Seat K V)

namespace SingleFlight

variable {K V : Type} [DecidableEq K]

inductive Reply (V : Type) where
  | value (v : V)
  | lead
  | wait

def empty : SingleFlight K V := ⟨fun _ => none, fun _ => none, fun _ => none⟩

def leadBy (s : SingleFlight K V) (t : Nat) (k : K) : SingleFlight K V :=
  { s with running := Function.update s.running k (some t) }

def seat (s : SingleFlight K V) (t : Nat) (k : K) : SingleFlight K V :=
  { s with seats := Function.update s.seats t (some (.parked k)) }

def unseat (s : SingleFlight K V) (t : Nat) : SingleFlight K V :=
  { s with seats := Function.update s.seats t none }

def enter (s : SingleFlight K V) (t : Nat) (k : K) : Reply V × SingleFlight K V :=
  match s.entries k with
  | some v => (.value v, s)
  | none =>
    match s.running k with
    | none => (.lead, s.leadBy t k)
    | some _ => (.wait, s.seat t k)

/-- The answer to a thread that was parked, if there is one yet: the value, or
none if the thread leads now. -/
def await (s : SingleFlight K V) (t : Nat) (k : K) : Option (Option V × SingleFlight K V) :=
  match s.seats t with
  | some (.served k' v) => if k' = k then some (some v, s.unseat t) else none
  | some (.woken k') =>
    if k' = k then
      match s.entries k, s.running k with
      | some v, _ => some (some v, s.unseat t)
      | none, none => some (none, (s.unseat t).leadBy t k)
      | none, some _ => none
    else none
  | _ => none

/-- A woken thread finds another leader and is parked again. -/
def park (s : SingleFlight K V) (t : Nat) : Option (SingleFlight K V) :=
  match s.seats t with
  | some (.woken k) =>
    if (s.running k).isSome then some (s.seat t k) else none
  | _ => none

def serve (k : K) (v : V) : Option (Seat K V) → Option (Seat K V)
  | some (.parked k') => if k' = k then some (.served k v) else some (.parked k')
  | seat => seat

def land (s : SingleFlight K V) (k : K) (v : V) : SingleFlight K V where
  entries := Function.update s.entries k (some v)
  running := Function.update s.running k none
  seats t := serve k v (s.seats t)

def forget (s : SingleFlight K V) (k : K) : SingleFlight K V :=
  { s with entries := Function.update s.entries k none }

/-- Wake the threads that wait for a leader `t`. -/
def wake (s : SingleFlight K V) (t : Nat) : Option (Seat K V) → Option (Seat K V)
  | some (.parked k) => if s.running k = some t then some (.woken k) else some (.parked k)
  | seat => seat

def leave (s : SingleFlight K V) (t : Nat) : SingleFlight K V where
  entries := s.entries
  running k := if s.running k = some t then none else s.running k
  seats t' := if t' = t then none else wake s t (s.seats t')

/-- The answers to a thread that asks. -/
theorem enter_cases (s : SingleFlight K V) (t : Nat) (k : K) :
    (∃ v, s.entries k = some v ∧ s.enter t k = (.value v, s)) ∨
    (s.entries k = none ∧ s.running k = none ∧ s.enter t k = (.lead, s.leadBy t k)) ∨
    (s.entries k = none ∧ s.enter t k = (.wait, s.seat t k)) := by
  unfold enter
  cases hk : s.entries k with
  | some v => exact .inl ⟨v, rfl, rfl⟩
  | none =>
    cases hr : s.running k with
    | none => exact .inr (.inl ⟨rfl, rfl, rfl⟩)
    | some t' => exact .inr (.inr ⟨rfl, rfl⟩)

/-- The answers to a thread that was parked. -/
theorem await_cases {s s' : SingleFlight K V} {t : Nat} {k : K} {r : Option V} (h : s.await t k = some (r, s')) :
    (∃ v, r = some v ∧ s' = s.unseat t ∧ (s.entries k = some v ∨ s.seats t = some (.served k v))) ∨
    (r = none ∧ s' = (s.unseat t).leadBy t k ∧ s.entries k = none ∧ s.running k = none) := by
  unfold await at h
  split at h
  · rename_i k' v hseat
    split at h
    · rename_i hk
      obtain ⟨rfl, rfl⟩ := Prod.mk.inj (Option.some.inj h)
      exact .inl ⟨v, rfl, rfl, .inr (hk ▸ hseat)⟩
    · cases h
  · split at h
    · split at h
      · rename_i v hv
        obtain ⟨rfl, rfl⟩ := Prod.mk.inj (Option.some.inj h)
        exact .inl ⟨v, rfl, rfl, .inl hv⟩
      · rename_i hk hr
        obtain ⟨rfl, rfl⟩ := Prod.mk.inj (Option.some.inj h)
        exact .inr ⟨rfl, rfl, hk, hr⟩
      · cases h
    · cases h
  · cases h

omit [DecidableEq K] in
theorem park_seat {s s' : SingleFlight K V} {t : Nat} (h : s.park t = some s') : ∃ k, s' = s.seat t k := by
  unfold park at h
  split at h
  · split at h
    · exact ⟨_, (Option.some.inj h).symm⟩
    · cases h
  · cases h

omit [DecidableEq K] in
theorem park_running {s s' : SingleFlight K V} {t : Nat} (h : s.park t = some s') : s'.running = s.running := by
  obtain ⟨k, rfl⟩ := park_seat h
  rfl

omit [DecidableEq K] in
theorem park_entries {s s' : SingleFlight K V} {t : Nat} (h : s.park t = some s') : s'.entries = s.entries := by
  obtain ⟨k, rfl⟩ := park_seat h
  rfl

/-! ## Where values come from -/

inductive Event (K V : Type) where
  /-- The key was looked up in vain, or forgotten on demand. -/
  | missed (k : K)
  | waits (t : Nat) (k : K)
  | landed (t : Nat) (k : K) (v : V)

def Event.misses (k : K) : Event K V → Bool
  | .missed k' => k' = k
  | _ => false

def Event.waitsOf (t : Nat) : Event K V → Bool
  | .waits t' _ => t' = t
  | _ => false

structure Traced (s : SingleFlight K V) (h : List (Event K V)) : Prop where
  entries : ∀ k v, s.entries k = some v → ∃ t, Since (Event.misses k) (.landed t k v) h
  seats : ∀ t k v, s.seats t = some (.served k v) → ∃ t', Since (Event.waitsOf t) (.landed t' k v) h
  /-- A key someone leads for is absent. -/
  absent : ∀ k t, s.running k = some t → s.entries k = none

namespace Traced

variable {s : SingleFlight K V} {h : List (Event K V)}

theorem empty : Traced (SingleFlight.empty : SingleFlight K V) [] where
  entries := by rintro k v ⟨⟩
  seats := by rintro t k v ⟨⟩
  absent := by rintro k t ⟨⟩

/-- A lookup in vain tells the history nothing about the entries there are. -/
theorem missed (hs : Traced s h) {k : K} (hk : s.entries k = none) : Traced s (.missed k :: h) where
  entries k' v hv := by
    obtain ⟨t, ht⟩ := hs.entries k' v hv
    refine ⟨t, ht.cons ?_⟩
    have hne : k ≠ k' := by
      rintro rfl
      rw [hk] at hv
      cases hv
    simpa [Event.misses] using hne
  seats t k' v hv := by
    obtain ⟨t', ht'⟩ := hs.seats t k' v hv
    exact ⟨t', ht'.cons rfl⟩
  absent := hs.absent

theorem forget (hs : Traced s h) (k : K) : Traced (s.forget k) h where
  entries k' v hv := by
    simp only [SingleFlight.forget, Function.update_apply] at hv
    split at hv
    · cases hv
    · exact hs.entries k' v hv
  seats := hs.seats
  absent k' t ht := by
    simp only [SingleFlight.forget, Function.update_apply]
    split
    · rfl
    · exact hs.absent k' t ht

theorem forget_missed (hs : Traced s h) (k : K) : Traced (s.forget k) (.missed k :: h) :=
  (hs.forget k).missed (by simp [SingleFlight.forget])

theorem land (hs : Traced s h) (t : Nat) (k : K) (v : V) : Traced (s.land k v) (.landed t k v :: h) where
  entries k' v' hv := by
    simp only [SingleFlight.land, Function.update_apply] at hv
    split at hv
    · rename_i hk
      obtain rfl := Option.some.inj hv
      subst hk
      exact ⟨t, Since.head h rfl⟩
    · obtain ⟨t', ht'⟩ := hs.entries k' v' hv
      exact ⟨t', ht'.cons rfl⟩
  seats t' k' v' hv := by
    simp only [SingleFlight.land] at hv
    -- a thread is served by this landing if it was parked, else it was served before
    cases hseat : s.seats t' with
    | none => simp [hseat, serve] at hv
    | some seat =>
      cases seat with
      | parked k₀ =>
        simp only [hseat, serve] at hv
        split at hv
        · simp only [Option.some.injEq, Seat.served.injEq] at hv
          obtain ⟨rfl, rfl⟩ := hv
          exact ⟨t, Since.head h rfl⟩
        · simp at hv
      | woken k₀ => simp [hseat, serve] at hv
      | served k₀ v₀ =>
        simp only [hseat, serve, Option.some.injEq, Seat.served.injEq] at hv
        obtain ⟨rfl, rfl⟩ := hv
        obtain ⟨t₁, ht₁⟩ := hs.seats t' k₀ v₀ hseat
        exact ⟨t₁, ht₁.cons rfl⟩
  absent k' t' ht := by
    simp only [SingleFlight.land, Function.update_apply] at ht ⊢
    split at ht
    · cases ht
    · rename_i hk
      rw [if_neg hk]
      exact hs.absent k' t' ht

theorem unseat (hs : Traced s h) (t : Nat) : Traced (s.unseat t) h where
  entries := hs.entries
  seats t' k v hv := by
    simp only [SingleFlight.unseat, Function.update_apply] at hv
    split at hv
    · cases hv
    · exact hs.seats t' k v hv
  absent := hs.absent

theorem leadBy (hs : Traced s h) {k : K} (hk : s.entries k = none) (t : Nat) : Traced (s.leadBy t k) h where
  entries := hs.entries
  seats := hs.seats
  absent k' t' ht := by
    simp only [SingleFlight.leadBy, Function.update_apply] at ht ⊢
    split at ht
    · rename_i hk'
      rw [hk', hk]
    · exact hs.absent k' t' ht

theorem seat (hs : Traced s h) (t : Nat) (k : K) : Traced (s.seat t k) h where
  entries := hs.entries
  seats t' k' v hv := by
    simp only [SingleFlight.seat, Function.update_apply] at hv
    split at hv
    · simp at hv
    · exact hs.seats t' k' v hv
  absent := hs.absent

theorem waits (hs : Traced s h) (t : Nat) (k : K) : Traced (s.seat t k) (.waits t k :: h) where
  entries k' v hv := by
    obtain ⟨t', ht'⟩ := hs.entries k' v hv
    exact ⟨t', ht'.cons rfl⟩
  seats t' k' v hv := by
    simp only [SingleFlight.seat, Function.update_apply] at hv
    split at hv
    · simp at hv
    · rename_i hne
      obtain ⟨t₁, ht₁⟩ := hs.seats t' k' v hv
      exact ⟨t₁, ht₁.cons (by simpa [Event.waitsOf] using Ne.symm hne)⟩
  absent := hs.absent

theorem park (hs : Traced s h) {t : Nat} {s' : SingleFlight K V} (hp : s.park t = some s') : Traced s' h := by
  obtain ⟨k, rfl⟩ := park_seat hp
  exact hs.seat t k

theorem leave (hs : Traced s h) (t : Nat) : Traced (s.leave t) h where
  entries := hs.entries
  seats t' k v hv := by
    simp only [SingleFlight.leave] at hv
    split at hv
    · cases hv
    · cases hseat : s.seats t' with
      | none => simp [hseat, wake] at hv
      | some seat =>
        cases seat with
        | parked k₀ =>
          simp only [hseat, wake] at hv
          split at hv <;> simp at hv
        | woken k₀ => simp [hseat, wake] at hv
        | served k₀ v₀ =>
          apply hs.seats t' k v
          simpa [hseat, wake] using hv
  absent k t' ht := by
    simp only [SingleFlight.leave] at ht
    split at ht
    · cases ht
    · exact hs.absent k t' ht

end Traced

/-! ## Nobody waits for nothing -/

def seatKey : Seat K V → K
  | .parked k => k
  | .woken k => k
  | .served k _ => k

/-- The key a thread has a seat for. -/
def seatOf (s : SingleFlight K V) (t : Nat) : Option K := (s.seats t).map seatKey

/-- A parked thread has a leader to wait for. -/
def Manned (s : SingleFlight K V) : Prop := ∀ t k, s.seats t = some (.parked k) → (s.running k).isSome

section Seats

variable {s s' : SingleFlight K V} {t t' : Nat} {k : K} {v : V}

omit [DecidableEq K] in
theorem seat_seatOf : (s.seat t k).seatOf t' = if t' = t then some k else s.seatOf t' := by
  simp only [seatOf, seat, Function.update_apply]
  split <;> rfl

omit [DecidableEq K] in
theorem unseat_seatOf : (s.unseat t).seatOf t' = if t' = t then none else s.seatOf t' := by
  simp only [seatOf, unseat, Function.update_apply]
  split <;> rfl

theorem land_seatOf : (s.land k v).seatOf t' = s.seatOf t' := by
  simp only [seatOf, land]
  cases hs : s.seats t' with
  | none => rfl
  | some seat =>
    cases seat with
    | parked k' =>
      simp only [serve]
      split
      · rename_i hk
        simp [seatKey, hk]
      · rfl
    | woken => rfl
    | served => rfl

omit [DecidableEq K] in
theorem leave_seatOf : (s.leave t).seatOf t' = if t' = t then none else s.seatOf t' := by
  simp only [seatOf, leave]
  split
  · rfl
  · cases hs : s.seats t' with
    | none => rfl
    | some seat =>
      cases seat with
      | parked k' =>
        simp only [wake]
        split <;> rfl
      | woken => rfl
      | served => rfl

omit [DecidableEq K] in
theorem park_seatOf (h : s.park t = some s') : s'.seatOf t' = s.seatOf t' := by
  unfold park at h
  split at h
  · rename_i k hs
    split at h
    · obtain rfl := Option.some.inj h
      rw [seat_seatOf]
      split
      · rename_i ht
        rw [ht, seatOf, hs]
        rfl
      · rfl
    · cases h
  · cases h

omit [DecidableEq K] in
theorem leave_running : (s.leave t).running k = some t' ↔ s.running k = some t' ∧ t' ≠ t := by
  simp only [leave]
  split
  · rename_i hr
    rw [hr]
    simp [eq_comm]
  · rename_i hr
    constructor
    · intro ht
      refine ⟨ht, ?_⟩
      rintro rfl
      exact hr ht
    · exact fun ht => ht.1

/-- A thread that has a seat for a key gets its answer, or another leads for the key. -/
theorem await_or_led (hm : s.Manned) (hk : s.seatOf t = some k) :
    (∃ r, s.await t k = some r) ∨ ∃ leader, s.running k = some leader := by
  obtain ⟨seat, hs, hkey⟩ := Option.map_eq_some_iff.1 hk
  unfold await
  rw [hs]
  cases seat with
  | parked k' =>
    obtain rfl : k' = k := hkey
    exact .inr (Option.isSome_iff_exists.1 (hm t k' hs))
  | served k' v =>
    obtain rfl : k' = k := hkey
    simp
  | woken k' =>
    obtain rfl : k' = k := hkey
    cases he : s.entries k' with
    | some v => simp
    | none =>
      cases hr : s.running k' with
      | none => simp
      | some leader => exact .inr ⟨leader, rfl⟩

theorem enter_wait (h : (s.enter t k).1 = .wait) : (s.running k).isSome := by
  unfold enter at h
  cases hk : s.entries k with
  | some v =>
    simp only [hk] at h
    cases h
  | none =>
    cases hr : s.running k with
    | none =>
      simp only [hk, hr] at h
      cases h
    | some leader => rfl

namespace Manned

omit [DecidableEq K] in
theorem empty : (SingleFlight.empty : SingleFlight K V).Manned := by
  rintro t k ⟨⟩

theorem leadBy (h : s.Manned) : (s.leadBy t k).Manned := by
  intro t' k' hs
  simp only [SingleFlight.leadBy, Function.update_apply]
  split
  · rfl
  · exact h t' k' hs

omit [DecidableEq K] in
theorem seat (h : s.Manned) (hk : (s.running k).isSome) : (s.seat t k).Manned := by
  intro t' k' hs
  simp only [SingleFlight.seat, Function.update_apply] at hs
  split at hs
  · cases hs
    exact hk
  · exact h t' k' hs

omit [DecidableEq K] in
theorem unseat (h : s.Manned) : (s.unseat t).Manned := by
  intro t' k' hs
  simp only [SingleFlight.unseat, Function.update_apply] at hs
  split at hs
  · cases hs
  · exact h t' k' hs

omit [DecidableEq K] in
theorem park (h : s.Manned) (hp : s.park t = some s') : s'.Manned := by
  unfold SingleFlight.park at hp
  split at hp
  · split at hp
    · rename_i hk
      obtain rfl := Option.some.inj hp
      exact h.seat hk
    · cases hp
  · cases hp

/-- Whoever waits for the key is served. -/
theorem land (h : s.Manned) : (s.land k v).Manned := by
  intro t' k' hs
  simp only [SingleFlight.land] at hs ⊢
  cases hseat : s.seats t' with
  | none => simp [hseat, serve] at hs
  | some seat =>
    cases seat with
    | parked k₀ =>
      simp only [hseat, serve] at hs
      split at hs
      · cases hs
      · rename_i hne
        obtain rfl : k₀ = k' := by simpa using hs
        rw [Function.update_of_ne hne]
        exact h t' k₀ hseat
    | woken k₀ => simp [hseat, serve] at hs
    | served k₀ v₀ => simp [hseat, serve] at hs

omit [DecidableEq K] in
/-- Whoever waits for a leader that leaves is woken. -/
theorem leave (h : s.Manned) : (s.leave t).Manned := by
  intro t' k' hs
  simp only [SingleFlight.leave] at hs ⊢
  split at hs
  · cases hs
  · cases hseat : s.seats t' with
    | none => simp [hseat, wake] at hs
    | some seat =>
      cases seat with
      | parked k₀ =>
        simp only [hseat, wake] at hs
        split at hs
        · cases hs
        · rename_i hne
          obtain rfl : k₀ = k' := by simpa using hs
          rw [if_neg hne]
          exact h t' k₀ hseat
      | woken k₀ => simp [hseat, wake] at hs
      | served k₀ v₀ => simp [hseat, wake] at hs

end Manned

end Seats

end SingleFlight

end EnvoyWebBotAuth.Lib
