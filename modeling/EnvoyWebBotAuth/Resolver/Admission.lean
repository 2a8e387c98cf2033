import EnvoyWebBotAuth.Lib.SlidingWindow
import EnvoyWebBotAuth.Resolver.Controls
/-!
# New origins

How many origins `begin_fetch` lets in that its limiter cache does not know.
The cache may drop any entry at any time, also while a call runs; the record of
the new origins is a sliding window (`Lib.SlidingWindow`) whatever it drops.
-/
open EnvoyWebBotAuth.Lib EnvoyWebBotAuth.Protocol

namespace EnvoyWebBotAuth.Resolver

namespace WorkControls

variable {L : Type} (g : Governor L) (limits : Limits)

/-- `begin_fetch` up to the limiter of the origin. -/
def admitFetch (w : WorkControls L) (origin : String) (now : Instant) : Except FetchError Unit × WorkControls L :=
  if limits.outboundFetches ≤ w.outbound.length then (.error (.new .overloaded), w)
  else
    let (allowed, limiter) := g.check w.global now
    let w := { w with global := limiter }
    if !allowed then (.error (.new .rateLimited), w)
    else
      let (admitted, w) := admitOrigin limits w origin now
      if !admitted then (.error (.new .rateLimited), w) else (.ok (), w)

/-- `begin_fetch` from the limiter of the origin on. -/
def limitOrigin (w : WorkControls L) (t : Nat) (origin : String) (now : Instant) :
    Except FetchError Unit × WorkControls L :=
  let (allowed, w) := checkOrigin g limits w origin now
  if !allowed then (.error (.new .rateLimited), w) else (.ok (), { w with outbound := t :: w.outbound })

/-- There is no permit, the global limiter says no, or the origin is one too many. -/
def refuses (w : WorkControls L) (origin : String) (now : Instant) : Bool :=
  limits.outboundFetches ≤ w.outbound.length || !(g.check w.global now).1 || !(w.admitOrigin limits origin now).1

theorem beginFetch_eq (w : WorkControls L) (t : Nat) (origin : String) (now : Instant) :
    w.beginFetch g limits t origin now =
      match w.admitFetch g limits origin now with
      | (.error error, w) => (.error error, w)
      | (.ok (), w) => w.limitOrigin g limits t origin now := by
  unfold beginFetch admitFetch
  split
  · rfl
  · dsimp only
    split
    · rfl
    · split <;> rfl

end WorkControls

open WorkControls

/-! ## Calls -/

/-- What others may do to the controls: the limiter cache loses entries, and
what is not about origins changes in any way. -/
structure Evicted {L : Type} (w w' : WorkControls L) : Prop where
  newOrigins : w'.newOrigins = w.newOrigins
  origins (origin : String) : w'.origins origin = none ∨ w'.origins origin = w.origins origin

/-- A call of `begin_fetch`, with the controls it found and left. -/
structure FetchCall (L : Type) where
  origin : String
  now : Instant
  before : WorkControls L
  result : Except FetchError Unit
  after : WorkControls L

section Calls

variable {L : Type} (g : Governor L) (limits : Limits)

/-- A call of thread `t`. Between the lookup of the origin and its limiter the
cache may lose the origin. -/
inductive Begins (t : Nat) : FetchCall L → Prop
  | refused {w w' : WorkControls L} {origin : String} {now : Instant} {error : FetchError} :
      w.admitFetch g limits origin now = (.error error, w') → Begins t ⟨origin, now, w, .error error, w'⟩
  | limited {w w₁ w₂ : WorkControls L} {origin : String} {now : Instant} :
      w.admitFetch g limits origin now = (.ok (), w₁) → Evicted w₁ w₂ →
      Begins t ⟨origin, now, w, (w₂.limitOrigin g limits t origin now).1, (w₂.limitOrigin g limits t origin now).2⟩

/-- The controls after a sequence of calls, the latest first. -/
inductive Fetches : List (FetchCall L) → WorkControls L → Prop
  | new : Fetches [] (.new g limits)
  | evict {calls : List (FetchCall L)} {w w' : WorkControls L} : Fetches calls w → Evicted w w' → Fetches calls w'
  | call {calls : List (FetchCall L)} {t : Nat} {c : FetchCall L} : Fetches calls c.before →
      (∀ earlier ∈ calls, earlier.now ≤ c.now) → Begins g limits t c → Fetches (c :: calls) c.after

namespace FetchCall

variable (c : FetchCall L)

/-- The call is turned away for the permits, the global limiter or the bound on
new origins. -/
def refused : Bool := c.before.refuses g limits c.origin c.now

/-- The call is let in though the cache did not have its origin. -/
def admitsNew : Bool := (c.before.origins c.origin).isNone && !c.refused g limits

end FetchCall

/-- The new origins let in within a minute from `start`. -/
def newOriginsIn (start : Instant) (calls : List (FetchCall L)) : Finset String :=
  ((calls.filter (fun c => c.admitsNew g limits && start ≤ c.now && c.now < start + originWindow)).map
    FetchCall.origin).toFinset

end Calls

/-! ## What a call does -/

section Steps

variable {L : Type} {g : Governor L} {limits : Limits} {w w' : WorkControls L} {origin : String} {now : Instant}

/-- How many new origins are recorded at most. -/
def maxNewOrigins (limits : Limits) : Nat := min limits.newOriginsPerMinute limits.stateEntries

theorem hasRoom_of_not {stamps : List (String × Nat)}
    (h : ¬((stamps.all fun seen => seen.1 ≠ origin) ∧
      (limits.newOriginsPerMinute ≤ stamps.length ∨ limits.stateEntries ≤ stamps.length))) :
    SlidingWindow.HasRoom (maxNewOrigins limits) origin stamps := by
  unfold SlidingWindow.HasRoom maxNewOrigins
  by_cases hany : ∃ seen ∈ stamps, seen.1 = origin
  · exact .inl hany
  · right
    have hall : (stamps.all fun seen => seen.1 ≠ origin) = true := by
      rw [List.all_eq_true]
      intro seen hs
      rw [decide_eq_true_eq]
      exact fun heq => hany ⟨seen, hs, heq⟩
    simp only [hall, true_and, not_or] at h
    omega

/-- A known origin, a new one without room, a new one with room. -/
theorem admitOrigin_cases (limits : Limits) (w : WorkControls L) (origin : String) (now : Instant) :
    (w.origins origin ≠ none ∧ w.admitOrigin limits origin now = (true, w)) ∨
    (w.origins origin = none ∧ w.admitOrigin limits origin now =
      (false, { w with newOrigins := SlidingWindow.recent originWindow now w.newOrigins })) ∨
    (w.origins origin = none ∧
      SlidingWindow.HasRoom (maxNewOrigins limits) origin (SlidingWindow.recent originWindow now w.newOrigins) ∧
      w.admitOrigin limits origin now =
        (true, { w with newOrigins :=
          SlidingWindow.stamp origin now (SlidingWindow.recent originWindow now w.newOrigins) })) := by
  unfold admitOrigin
  by_cases hk : (w.origins origin).isSome = true
  · left
    rw [if_pos hk]
    exact ⟨Option.isSome_iff_ne_none.1 hk, rfl⟩
  · right
    rw [if_neg hk]
    rw [Option.not_isSome_iff_eq_none] at hk
    dsimp only
    split
    · exact .inl ⟨hk, rfl⟩
    · rename_i hroom
      exact .inr ⟨hk, hasRoom_of_not hroom, rfl⟩

/-- The record decides nothing about the limiters. -/
theorem admitOrigin_global (limiter : L) :
    ({ w with global := limiter } : WorkControls L).admitOrigin limits origin now =
      ((w.admitOrigin limits origin now).1, { (w.admitOrigin limits origin now).2 with global := limiter }) := by
  unfold admitOrigin
  dsimp only
  split
  · rfl
  · split <;> rfl

/-- The record and the cache of a call that is turned away. -/
structure TurnedAway (w : WorkControls L) (now : Instant) (w' : WorkControls L) : Prop where
  origins : w'.origins = w.origins
  newOrigins : w'.newOrigins = w.newOrigins ∨
    w'.newOrigins = SlidingWindow.recent originWindow now w.newOrigins

/-- The record of a call that is let in. -/
def LetIn (limits : Limits) (w : WorkControls L) (origin : String) (now : Instant) (w' : WorkControls L) : Prop :=
  if w.origins origin = none then
    SlidingWindow.HasRoom (maxNewOrigins limits) origin (SlidingWindow.recent originWindow now w.newOrigins) ∧
      w'.newOrigins = SlidingWindow.stamp origin now (SlidingWindow.recent originWindow now w.newOrigins)
  else w'.newOrigins = w.newOrigins

theorem admitFetch_cases (g : Governor L) (limits : Limits) (w : WorkControls L) (origin : String) (now : Instant) :
    (w.refuses g limits origin now = true ∧ (∃ error, (w.admitFetch g limits origin now).1 = .error error) ∧
      TurnedAway w now (w.admitFetch g limits origin now).2) ∨
    (w.refuses g limits origin now = false ∧ (w.admitFetch g limits origin now).1 = .ok () ∧
      LetIn limits w origin now (w.admitFetch g limits origin now).2) := by
  unfold admitFetch refuses
  by_cases hp : limits.outboundFetches ≤ w.outbound.length
  · left
    simp only [hp, decide_true, Bool.true_or, if_true]
    exact ⟨trivial, ⟨_, rfl⟩, ⟨rfl, .inl rfl⟩⟩
  · simp only [hp, decide_false, Bool.false_or, if_false]
    cases hg : (g.check w.global now).1 with
    | false =>
      left
      simp only [Bool.not_false, if_true, Bool.true_or]
      exact ⟨trivial, ⟨_, rfl⟩, ⟨rfl, .inl rfl⟩⟩
    | true =>
      simp only [Bool.not_true, Bool.false_eq_true, if_false, Bool.false_or, admitOrigin_global]
      rcases admitOrigin_cases limits w origin now with
        ⟨hk, ha⟩ | ⟨-, ha⟩ | ⟨hn, hroom, ha⟩ <;> rw [ha]
      · right
        refine ⟨rfl, rfl, ?_⟩
        unfold LetIn
        rw [if_neg hk]
        rfl
      · left
        exact ⟨rfl, ⟨_, rfl⟩, ⟨rfl, .inr rfl⟩⟩
      · right
        refine ⟨rfl, rfl, ?_⟩
        unfold LetIn
        rw [if_pos hn]
        exact ⟨hroom, rfl⟩

theorem limitOrigin_result (w : WorkControls L) (t : Nat) :
    (w.limitOrigin g limits t origin now).1 ≠ .error (.new .overloaded) := by
  unfold limitOrigin
  dsimp only
  split <;> simp [FetchError.new]

theorem limitOrigin_newOrigins (w : WorkControls L) (t : Nat) :
    (w.limitOrigin g limits t origin now).2.newOrigins = w.newOrigins := by
  unfold limitOrigin
  dsimp only
  split <;> rfl

/-- A call is turned away before it records anything, or it records its origin. -/
theorem Begins.cases {t : Nat} {c : FetchCall L} (h : Begins g limits t c) :
    (c.refused g limits = true ∧ (∃ error, c.result = .error error) ∧ TurnedAway c.before c.now c.after) ∨
    (c.refused g limits = false ∧ c.result ≠ .error (.new .overloaded) ∧
      LetIn limits c.before c.origin c.now c.after) := by
  unfold FetchCall.refused
  cases h with
  | @refused w w' origin now error hr =>
    left
    rcases admitFetch_cases g limits w origin now with
      ⟨hf, -, hu⟩ | ⟨-, ho, -⟩
    · rw [hr] at hu
      exact ⟨hf, ⟨error, rfl⟩, hu⟩
    · rw [hr] at ho
      cases ho
  | @limited w w₁ w₂ origin now hr he =>
    right
    rcases admitFetch_cases g limits w origin now with
      ⟨-, ⟨error, ho⟩, -⟩ | ⟨hf, -, hrec⟩
    · rw [hr] at ho
      cases ho
    · rw [hr] at hrec
      refine ⟨hf, limitOrigin_result w₂ t, ?_⟩
      unfold LetIn at hrec ⊢
      rw [limitOrigin_newOrigins, he.newOrigins]
      exact hrec

theorem begins_beginFetch (w : WorkControls L) (t : Nat) (origin : String) (now : Instant) :
    Begins g limits t
      ⟨origin, now, w, (w.beginFetch g limits t origin now).1, (w.beginFetch g limits t origin now).2⟩ := by
  rw [beginFetch_eq]
  rcases hr : w.admitFetch g limits origin now with ⟨_ | ⟨⟨⟩⟩, w₁⟩
  · exact .refused hr
  · exact .limited hr ⟨rfl, fun _ => .inr rfl⟩

end Steps

/-! ## Sequences of calls -/

section Sequences

variable {L : Type} {g : Governor L} {limits : Limits} {calls : List (FetchCall L)} {w : WorkControls L}

/-- The new origins that were let in, and when. -/
def admissions (g : Governor L) (limits : Limits) (calls : List (FetchCall L)) : List (String × Instant) :=
  (calls.filter (fun c => c.admitsNew g limits)).map (fun c => (c.origin, c.now))

theorem admissions_cons (c : FetchCall L) :
    admissions g limits (c :: calls) =
      (if c.admitsNew g limits then [(c.origin, c.now)] else []) ++ admissions g limits calls := by
  unfold admissions
  rw [List.filter_cons]
  split <;> rfl

/-- The record is a sliding window of the new origins. -/
theorem Fetches.window (h : Fetches g limits calls w) : ∃ last,
    SlidingWindow.Runs (maxNewOrigins limits) originWindow (admissions g limits calls) last w.newOrigins ∧
      ∀ now, (∀ c ∈ calls, c.now ≤ now) → last ≤ now := by
  induction h with
  | new => exact ⟨0, .start, fun now _ => Nat.zero_le now⟩
  | evict _ he ih =>
    rw [he.newOrigins]
    exact ih
  | @call calls t c _ hnow hb ih =>
    obtain ⟨last, hrun, hlast⟩ := ih
    have hle : last ≤ c.now := hlast c.now hnow
    refine ⟨c.now, ?_, fun now hn => hn c List.mem_cons_self⟩
    rw [admissions_cons]
    unfold FetchCall.admitsNew
    rcases hb.cases with ⟨hr, -, hu⟩ | ⟨hr, -, hrec⟩
    · simp only [hr, Bool.not_true, Bool.and_false, Bool.false_eq_true, if_false, List.nil_append]
      rcases hu.newOrigins with hn | hn <;> rw [hn]
      · exact hrun.idle hle
      · exact hrun.expire hle
    · unfold LetIn at hrec
      by_cases hk : c.before.origins c.origin = none
      · rw [if_pos hk] at hrec
        simp only [hr, hk, Option.isNone_none, Bool.not_false, Bool.and_self, if_true, List.singleton_append]
        rw [hrec.2]
        exact hrun.stamp hle hrec.1
      · rw [if_neg hk] at hrec
        simp only [Option.isNone_eq_false_iff.2 (Option.isSome_iff_ne_none.2 hk), Bool.false_and, Bool.false_eq_true,
          if_false, List.nil_append]
        rw [hrec]
        exact hrun.idle hle

theorem newOriginsIn_eq (start : Instant) :
    newOriginsIn g limits start calls = SlidingWindow.stampedIn originWindow start (admissions g limits calls) := by
  ext origin
  rw [SlidingWindow.mem_stampedIn]
  unfold newOriginsIn admissions
  simp only [List.mem_toFinset, List.mem_map, List.mem_filter, Bool.and_eq_true, decide_eq_true_eq]
  constructor
  · rintro ⟨c, ⟨hc, ⟨ha, hfrom⟩, hto⟩, rfl⟩
    exact ⟨(c.origin, c.now), ⟨c, ⟨hc, ha⟩, rfl⟩, ⟨hfrom, hto⟩, rfl⟩
  · rintro ⟨_, ⟨c, ⟨hc, ha⟩, rfl⟩, ⟨hfrom, hto⟩, rfl⟩
    exact ⟨c, ⟨hc, ⟨ha, hfrom⟩, hto⟩, rfl⟩

/-- Every call of a sequence began from the controls that the earlier ones left. -/
theorem Fetches.call_of_mem (h : Fetches g limits calls w) {c : FetchCall L} (hc : c ∈ calls) :
    (∃ t, Begins g limits t c) ∧ ∃ earlier, Fetches g limits earlier c.after := by
  induction h with
  | new => cases hc
  | evict _ _ ih => exact ih hc
  | @call calls t c' hw hnow hb ih =>
    rcases List.mem_cons.1 hc with rfl | hc
    · exact ⟨⟨t, hb⟩, c :: calls, hw.call hnow hb⟩
    · exact ih hc

/-- Whatever the limiter cache drops, new origins are let in at a bounded rate,
the record of them is bounded, and a call that is turned away adds nothing. -/
theorem new_origins_bounded (h : Fetches g limits calls w) :
    (∀ start, (newOriginsIn g limits start calls).card ≤ limits.newOriginsPerMinute) ∧
    (∀ c ∈ calls, c.after.newOrigins.length ≤ min limits.newOriginsPerMinute limits.stateEntries) ∧
    (∀ c ∈ calls, c.result = .error (.new .overloaded) ∨ c.refused g limits = true →
      (∃ error, c.result = .error error) ∧ c.after.origins = c.before.origins ∧
        c.after.newOrigins ⊆ c.before.newOrigins) := by
  refine ⟨?_, ?_, ?_⟩
  · intro start
    obtain ⟨last, hrun, -⟩ := h.window
    rw [newOriginsIn_eq]
    exact le_trans (hrun.card_le start) (Nat.min_le_left _ _)
  · intro c hc
    obtain ⟨-, earlier, he⟩ := h.call_of_mem hc
    obtain ⟨last, hrun, -⟩ := he.window
    exact hrun.length_le
  · intro c hc hr
    obtain ⟨⟨t, hb⟩, -⟩ := h.call_of_mem hc
    rcases hb.cases with ⟨-, herr, hu⟩ | ⟨hf, ho, -⟩
    · refine ⟨herr, hu.origins, ?_⟩
      rcases hu.newOrigins with hn | hn <;> rw [hn]
      · exact List.Subset.refl _
      · exact SlidingWindow.recent_subset
    · -- a call that is let in is not overloaded
      exfalso
      rcases hr with hr | hr
      · exact ho hr
      · rw [hf] at hr
        cases hr

/-! ## A sample sequence -/

def oneNewOrigin : Limits := { Limits.standard with newOriginsPerMinute := 1 }

def unlimited : Governor Unit := ⟨fun _ _ => (), fun _ _ => (true, ())⟩

def sampleCall (w : WorkControls Unit) (origin : String) (now : Instant) : FetchCall Unit :=
  ⟨origin, now, w, (w.beginFetch unlimited oneNewOrigin 0 origin now).1, (w.beginFetch unlimited oneNewOrigin 0 origin now).2⟩

def firstCall : FetchCall Unit := sampleCall (.new unlimited oneNewOrigin) "https://one.example:443" 0

/-- The permit was dropped, and the cache has lost the first origin. -/
def betweenCalls : WorkControls Unit := { firstCall.after.dropPermit 0 with origins := fun _ => none }

def secondCall : FetchCall Unit := sampleCall betweenCalls "https://two.example:443" (fromSecs 59)

/-- The second new origin within a minute is turned away. -/
theorem new_origins_bounded_sample :
    (newOriginsIn unlimited oneNewOrigin 0 [secondCall, firstCall]).card ≤ 1 ∧
    firstCall.after.newOrigins.length ≤ 1 ∧ secondCall.result = .error (.new .rateLimited) ∧
    secondCall.after.newOrigins ⊆ secondCall.before.newOrigins := by
  have hfirst : Fetches unlimited oneNewOrigin [firstCall] firstCall.after :=
    .call (t := 0) .new (by simp) (begins_beginFetch _ 0 _ _)
  have hbetween : Evicted firstCall.after betweenCalls := ⟨rfl, fun _ => .inl rfl⟩
  have hsecond : Fetches unlimited oneNewOrigin [secondCall, firstCall] secondCall.after :=
    .call (t := 0) (hfirst.evict hbetween) (by simp [firstCall, sampleCall]) (begins_beginFetch _ 0 _ _)
  obtain ⟨hcard, hlength, hrefused⟩ := new_origins_bounded hsecond
  have hr : secondCall.refused unlimited oneNewOrigin = true := by decide
  refine ⟨hcard 0, ?_, by decide, ?_⟩
  · exact hlength firstCall (by simp)
  · exact (hrefused secondCall List.mem_cons_self (.inr hr)).2.2

end Sequences

end EnvoyWebBotAuth.Resolver
