import EnvoyWebBotAuth.Lib.Polls
import EnvoyWebBotAuth.Resolver.Refreshes
import EnvoyWebBotAuth.Resolver.Tasks
/-!
# One poll of a call

What a call does in one poll in which nothing comes from outside: a lookup and a
fetch are never answered in the poll that asks for them. A load gives a document
within the poll exactly if there is one `AtHand`.
-/
open EnvoyWebBotAuth.Lib EnvoyWebBotAuth.Protocol

namespace EnvoyWebBotAuth.Resolver

variable {P L : Type}

/-- There is a document for the key that needs no answer from outside. -/
inductive AtHand (s : ResolverService P L) (w : World P L) (key : ResourceKey) : Prop where
  | fresh (request old) : cacheRequest s.crates key = .ok request → w.representations key = some old →
      (old.freshRequest s.crates.policy request w.wall).isSome → AtHand s w key
  /-- The outcome of the last refresh is still good, and is a document or an error
  the origin gets over. -/
  | recorded (request outcome) : cacheRequest s.crates key = .ok request →
      w.refreshes.entries key = some outcome → w.instant < outcome.validUntil →
      (outcome.result.isOk = true ∨ ∃ error old, outcome.result = .error error ∧ error.allowsStale = true ∧
        w.representations key = some old ∧ old.staleAllowedAfterError w.wall = true) → AtHand s w key
  /-- The circuit is open, so that a refresh fails at once. -/
  | rejected (request old) : cacheRequest s.crates key = .ok request →
      (∀ outcome, w.refreshes.entries key = some outcome → outcome.validUntil ≤ w.instant) →
      w.refreshes.running key = none → (w.controls.circuit key).isOpen w.instant = true →
      w.representations key = some old → old.staleAllowedAfterError w.wall = true → AtHand s w key

/-- The call can be answered from the document without an answer from outside. -/
inductive Complete (s : ResolverService P L) (w : World P L) (document : Representation P) : Prop where
  | jwks (keys) : document.resource = .jwks keys → Complete s w document
  | inline (cimd keys) : document.resource = .cimd cimd → cimd.inlineJwks = some keys → Complete s w document
  | named (cimd url) : document.resource = .cimd cimd → cimd.inlineJwks = none → cimd.jwksUri = some url →
      AtHand s w ⟨url, .jwks⟩ → Complete s w document

/-- The keys a document has, or the document it names. -/
inductive KeysOf (s : ResolverService P L) (log : Log P) (document : Representation P) (keys : List ResourceKeyEntry) :
    Prop where
  | jwks : document.resource = .jwks keys → KeysOf s log document keys
  | inline (cimd) : document.resource = .cimd cimd → cimd.inlineJwks = some keys → KeysOf s log document keys
  | named (cimd url r) : document.resource = .cimd cimd → cimd.inlineJwks = none → cimd.jwksUri = some url →
      Held s log ⟨url, .jwks⟩ r → r.resource = .jwks keys → KeysOf s log document keys

theorem KeysOf.mono {s : ResolverService P L} {log log' : Log P} {document : Representation P}
    {keys : List ResourceKeyEntry} (h : KeysOf s log document keys) (hl : log <:+ log') : KeysOf s log' document keys := by
  cases h with
  | jwks hkeys => exact .jwks hkeys
  | inline cimd hcimd hi => exact .inline cimd hcimd hi
  | named cimd url r hcimd hi hu hheld hkeys => exact .named cimd url r hcimd hi hu (hheld.mono hl) hkeys

/-- What a poll that is about other keys leaves alone. -/
structure Beside (key : ResourceKey) (w w' : World P L) : Prop where
  instant : w'.instant = w.instant
  circuit : w'.controls.circuit key = w.controls.circuit key
  entry : w'.refreshes.entries key = w.refreshes.entries key

/-- What bears on a load of the key is alike. -/
structure Alike (key : ResourceKey) (w w' : World P L) : Prop extends Beside key w w' where
  wall : w'.wall = w.wall
  representation : w'.representations key = w.representations key
  running : w'.refreshes.running key = w.refreshes.running key

theorem Beside.refl {key : ResourceKey} (w : World P L) : Beside key w w := ⟨rfl, rfl, rfl⟩

theorem Beside.trans {key : ResourceKey} {w₁ w₂ w₃ : World P L} (h : Beside key w₁ w₂) (h' : Beside key w₂ w₃) :
    Beside key w₁ w₃ :=
  ⟨h'.instant.trans h.instant, h'.circuit.trans h.circuit, h'.entry.trans h.entry⟩

theorem Alike.symm {key : ResourceKey} {w w' : World P L} (h : Alike key w w') : Alike key w' w :=
  ⟨⟨h.instant.symm, h.circuit.symm, h.entry.symm⟩, h.wall.symm, h.representation.symm, h.running.symm⟩

/-- The last entry is not of the end of thread `t`. -/
def Unfinished (t : Nat) (st : ResolverState P L) : Prop :=
  ∀ task answer older, st.log ≠ .returned t task answer :: older

/-- Thread `t` has gone on from `st` to `st'`, where the shared state is `w`. -/
structure Went (t : Nat) (st st' : ResolverState P L) (w : World P L) : Prop where
  world : st'.world = w
  log : st.log <:+ st'.log
  unfinished : Unfinished t st → Unfinished t st'

variable {s : ResolverService P L} {t : Nat} {key : ResourceKey} {w w' w₁ w₂ w₃ : World P L}
  {p p₁ p₂ p₃ : Calls P (Answer P)}

/-- A poll of the thread that goes on with `p`. -/
abbrev polled (s : ResolverService P L) (t : Nat) (task : Task) (p : Calls P (Answer P)) (st : ResolverState P L) :
    ResolverState P L := s.system.pollFrom .silent t task p st

/-- A poll of `p` gets to `p'`. -/
def Goes (s : ResolverService P L) (t : Nat) (p : Calls P (Answer P)) (w : World P L) (p' : Calls P (Answer P))
    (w' : World P L) : Prop :=
  ∀ task st, st.world = w → ∃ st', polled s t task p st = polled s t task p' st' ∧ Went t st st' w'

/-- A poll of `p` ends at a call that is not answered. -/
def Stops (s : ResolverService P L) (t : Nat) (p : Calls P (Answer P)) (w : World P L) : Prop :=
  ∀ task st, st.world = w → Unfinished t st → Unfinished t (polled s t task p st)

theorem Goes.refl (p : Calls P (Answer P)) (w : World P L) : Goes s t p w p w :=
  fun _ st hw => ⟨st, rfl, hw, List.suffix_refl _, id⟩

theorem Goes.trans (h : Goes s t p₁ w₁ p₂ w₂) (h' : Goes s t p₂ w₂ p₃ w₃) : Goes s t p₁ w₁ p₃ w₃ := by
  intro task st hw
  obtain ⟨st₁, heq, hwent⟩ := h task st hw
  obtain ⟨st₂, heq', hwent'⟩ := h' task st₁ hwent.world
  exact ⟨st₂, heq.trans heq', hwent'.world, hwent.log.trans hwent'.log, hwent'.unfinished ∘ hwent.unfinished⟩

theorem Goes.stops (h : Goes s t p₁ w₁ p₂ w₂) (h' : Stops s t p₂ w₂) : Stops s t p₁ w₁ := by
  intro task st hw hlast
  obtain ⟨st₁, heq, hwent⟩ := h task st hw
  rw [heq]
  exact h' task st₁ hwent.world (hwent.unfinished hlast)

theorem Goes.op {o : Op P} {k : Ans o → Calls P (Answer P)} {a : Ans o} (h : World.exec s t o .silent w = some (a, w')) :
    Goes s t (.op o k) w (k a) w' := by
  rintro task st rfl
  refine ⟨_, System.pollFrom_turn h, rfl, List.suffix_cons _ _, ?_⟩
  rintro - task' answer older ⟨⟩

theorem Stops.op {o : Op P} {k : Ans o → Calls P (Answer P)} (h : World.exec s t o .silent w = none) :
    Stops s t (.op o k) w := by
  rintro task st rfl hlast
  rcases System.pollFrom_waits (S := s.system) (k := k) (c := task) h with heq | ⟨y, hdropped⟩
  · rw [polled, heq]
    exact hlast
  · intro task' answer older hl
    rw [polled, hdropped] at hl
    cases hl

/-- A poll of `p` gets to `K` with an error, or ends before. -/
def Fails (s : ResolverService P L) (t : Nat) (K : Except FetchError (Representation P) → Calls P (Answer P))
    (p : Calls P (Answer P)) (w : World P L) : Prop :=
  (∃ error w', Goes s t p w (K (.error error)) w') ∨ Stops s t p w

theorem Goes.fails {K : Except FetchError (Representation P) → Calls P (Answer P)} (h : Goes s t p₁ w₁ p₂ w₂)
    (h' : Fails s t K p₂ w₂) : Fails s t K p₁ w₁ := by
  rcases h' with ⟨error, w', hgoes⟩ | hstops
  · exact .inl ⟨error, w', h.trans hgoes⟩
  · exact .inr (h.stops hstops)

/-- A poll that gets to the end of its thread. -/
theorem Goes.returned {y : Answer P} (h : Goes s t p w (.ret y) w') (task : Task) {st : ResolverState P L}
    (hw : st.world = w) : ∃ older, (polled s t task p st).log = .returned t task y :: older ∧ st.log <:+ older ∧
      (polled s t task p st).world = w' := by
  obtain ⟨st', heq, hwent⟩ := h task st hw
  rw [heq]
  exact ⟨st'.log, rfl, hwent.log, hwent.world⟩

/-! ## Loads -/

section Load

variable {K : Except FetchError (Representation P) → Calls P (Answer P)} {request : Request}

/-- A load gives the representation if it is fresh. -/
theorem goes_fresh {old : Representation P} (hreq : cacheRequest s.crates key = .ok request)
    (hf : (w.representations key).filter (fun old => (old.freshRequest s.crates.policy request w.wall).isSome) = some old) :
    Goes s t ((load s key).run >>= K) w (K (.ok old)) w := by
  simp only [load, hreq, Prog.run_bind, Prog.run_check, Prog.run_ask, Prog.ret_bind, Prog.orReturn_ok, Prog.op_bind]
  refine (Goes.op rfl).trans ((Goes.op rfl).trans ?_)
  simp only [hf]
  exact .refl _ _

theorem goes_loadStale (hreq : cacheRequest s.crates key = .ok request)
    (hf : (w.representations key).filter (fun old => (old.freshRequest s.crates.policy request w.wall).isSome) = none) :
    Goes s t ((load s key).run >>= K) w (loadStale s key (w.representations key) w.wall >>= K) w := by
  simp only [load, hreq, Prog.run_bind, Prog.run_check, Prog.run_ask, Prog.ret_bind, Prog.orReturn_ok, Prog.op_bind]
  refine (Goes.op rfl).trans ((Goes.op rfl).trans ?_)
  simp only [hf]
  exact .refl _ _

variable (s t K) (previous : Option (Representation P)) (now : SystemTime)

/-- Where nothing is fresh, the outcome of the last refresh is used if it is still good. -/
theorem goes_recorded {outcome : RefreshOutcome P} (hent : w.refreshes.entries key = some outcome)
    (hv : w.instant < outcome.validUntil) :
    Goes s t (loadStale s key previous now >>= K) w (K (resultOrStale outcome.result previous now)) w := by
  simp only [loadStale, Prog.call_bind, Prog.op_bind]
  have hget : World.exec s t (.refreshesGet key) .silent w = some (some outcome, w) := by rw [World.exec, hent]
  refine (Goes.op hget).trans ?_
  refine (Goes.op rfl).trans ?_
  simp only [if_pos hv]
  exact .refl _ _

/-- Otherwise the load asks for a refresh. -/
theorem goes_coalesced (hent : ∀ outcome, w.refreshes.entries key = some outcome → outcome.validUntil ≤ w.instant) :
    ∃ w', Goes s t (loadStale s key previous now >>= K) w (coalesced s key previous now >>= K) w' ∧
      w'.refreshes.entries key = none ∧ w'.refreshes.running = w.refreshes.running ∧ w'.instant = w.instant ∧
      w'.controls = w.controls ∧ ∀ key' ≠ key, Beside key' w w' := by
  simp only [loadStale, Prog.call_bind, Prog.op_bind]
  cases hfound : w.refreshes.entries key with
  | none =>
    have hget : World.exec s t (.refreshesGet key) .silent w = some (none, w) := by rw [World.exec, hfound]
    exact ⟨w, Goes.op hget, hfound, rfl, rfl, rfl, fun _ _ => .refl w⟩
  | some outcome =>
    have hget : World.exec s t (.refreshesGet key) .silent w = some (some outcome, w) := by rw [World.exec, hfound]
    refine ⟨{ w with refreshes := w.refreshes.forget key }, (Goes.op hget).trans ((Goes.op rfl).trans ?_),
      Function.update_self _ _ _, rfl, rfl, rfl, ?_⟩
    · simp only [if_neg (Nat.not_lt.2 (hent outcome hfound))]
      exact Goes.op rfl
    · intro key' hne
      exact ⟨rfl, rfl, Function.update_of_ne hne _ _⟩

/-- The rest of a load that leads, from the result of its refresh on. -/
def landing (s : ResolverService P L) (key : ResourceKey) (previous : Option (Representation P)) (now : SystemTime)
    (K : Except FetchError (Representation P) → Calls P (Answer P)) (result : Except FetchError (Representation P)) :
    Calls P (Answer P) :=
  refreshOutcome s key result >>= fun outcome =>
    .op (.initDone key outcome) (fun _ => K (resultOrStale outcome.result previous now))

/-- A load asks for a refresh that nobody makes. -/
theorem goes_lead (hent : w.refreshes.entries key = none) (hrun : w.refreshes.running key = none) :
    Goes s t (coalesced s key previous now >>= K) w ((refreshInner s key previous).run >>= landing s key previous now K)
      { w with refreshes := w.refreshes.leadBy t key } := by
  have hlead : World.exec s t (.getWith key) .silent w = some (.lead, { w with refreshes := w.refreshes.leadBy t key }) := by
    rw [World.exec, SingleFlight.enter, hent, hrun]
  simp only [coalesced, getWith, Prog.call_bind, Prog.op_bind]
  refine Goes.trans (Goes.op hlead) ?_
  simp only [leadWith, refresh, Prog.bind_assoc, Prog.call_bind, Prog.op_bind, pure_bind]
  exact .refl _ _

/-- A load asks for a refresh that another makes. -/
theorem stops_wait {t' : Nat} (hent : w.refreshes.entries key = none) (hrun : w.refreshes.running key = some t') :
    Stops s t (coalesced s key previous now >>= K) w := by
  have hwait : World.exec s t (.getWith key) .silent w = some (.wait, { w with refreshes := w.refreshes.seat t key }) := by
    rw [World.exec, SingleFlight.enter, hent, hrun]
  simp only [coalesced, getWith, Prog.call_bind, Prog.op_bind]
  refine Goes.stops (Goes.op hwait) ?_
  simp only [Prog.op_bind]
  apply Stops.op
  simp [World.exec, SingleFlight.await, SingleFlight.seat]

/-- A refresh that fails in a way its origin has no part in gives an error. -/
theorem landing_fails {error : FetchError} (hc : error.class = .permanent ∨ error.class = .loadShed) :
    Fails s t K (landing s key previous now K (.error error)) w := by
  have hno : error.allowsStale = false := by
    rw [Bool.eq_false_iff, ne_eq, allowsStale_iff]
    rcases hc with hc | hc <;> rw [hc] <;> decide
  have hresult : resultOrStale (.error error) previous now = .error error :=
    resultOrStale_refused (by rintro ⟨hyes, -⟩; rw [hno] at hyes; cases hyes)
  have hlanding : landing s key previous now K (.error error) = .op .instantNow (fun instant =>
      .op (.initDone key ⟨.error error, instant + coalescedFailureTtl⟩) (fun _ => K (.error error))) := by
    rcases hc with hc | hc <;>
    · simp only [landing, refreshOutcome, validFor, hc, Prog.call_bind, Prog.op_bind, pure_bind, hresult]
  rw [hlanding]
  exact .inl ⟨error, _, (Goes.op rfl).trans (Goes.op rfl)⟩

/-- The landing of a refresh that the circuit rejects. -/
theorem goes_open (key : ResourceKey) (w : World P L) : ∃ w', Goes s t (landing s key previous now K (.error (.new .circuitOpen))) w
      (K (resultOrStale (.error (.new .circuitOpen)) previous now)) w' ∧ ∀ key' ≠ key, Beside key' w w' := by
  have hclass : (FetchError.new .circuitOpen).class = .circuitOpen := rfl
  have hlanding : landing s key previous now K (.error (.new .circuitOpen)) =
      .op (.circuitRemaining key) (fun period => .op .instantNow (fun instant =>
        .op (.initDone key ⟨.error (.new .circuitOpen), instant + period⟩)
          (fun _ => K (resultOrStale (.error (.new .circuitOpen)) previous now)))) := by
    simp only [landing, refreshOutcome, validFor, hclass, Prog.call_bind, Prog.op_bind, pure_bind]
  have hremaining : World.exec s t (.circuitRemaining key) .silent w = some ((w.controls.circuit key).remaining w.instant,
      { w with controls := w.controls.setCircuit key (w.controls.circuit key) }) := rfl
  rw [hlanding]
  refine ⟨_, (Goes.op hremaining).trans ((Goes.op rfl).trans (Goes.op rfl)), ?_⟩
  intro key' hne
  exact ⟨rfl, setCircuit_other _ hne _, Function.update_of_ne hne _ _⟩

/-- A refresh that the circuit rejects. -/
theorem goes_rejected (key : ResourceKey) (w : World P L) (hopen : (w.controls.circuit key).isOpen w.instant = true) :
    ∃ w', Goes s t ((refreshInner s key previous).run >>= landing s key previous now K) w
        (K (resultOrStale (.error (.new .circuitOpen)) previous now)) w' ∧ ∀ key' ≠ key, Beside key' w w' := by
  have hcheck : World.exec s t (.checkCircuit key) .silent w = some (.error (.new .circuitOpen),
      { w with controls := w.controls.setCircuit key (w.controls.circuit key) }) := by
    rw [World.exec, World.withControls, WorkControls.checkCircuit, if_pos hopen]
  obtain ⟨w', hgoes, hbeside⟩ := goes_open s t K previous now key
    { w with controls := w.controls.setCircuit key (w.controls.circuit key) }
  refine ⟨w', ?_, ?_⟩
  · simp only [refreshInner, Prog.run_bind, ExceptT.run_mk, Prog.call_bind, Prog.op_bind]
    exact (Goes.op hcheck).trans hgoes
  · intro key' hne
    have hchecked : Beside key' w { w with controls := w.controls.setCircuit key (w.controls.circuit key) } :=
      ⟨rfl, setCircuit_other _ hne _, rfl⟩
    exact hchecked.trans (hbeside key' hne)

/-- The admission of a fetch fails only to shed load. -/
theorem beginFetch_loadShed {g : Governor L} {limits : Limits} {c : WorkControls L} {origin : String} {now : Instant}
    {error : FetchError} (h : (c.beginFetch g limits t origin now).1 = .error error) : error.class = .loadShed := by
  unfold WorkControls.beginFetch at h
  dsimp only at h
  repeat' split at h
  all_goals cases h
  all_goals rfl

/-- A refresh that the circuit lets pass fails, or asks for a lookup. -/
theorem refresh_fails (hopen : ¬(w.controls.circuit key).isOpen w.instant = true) :
    Fails s t K ((refreshInner s key previous).run >>= landing s key previous now K) w := by
  have hcheck : World.exec s t (.checkCircuit key) .silent w = some (.ok (),
      { w with controls := w.controls.setCircuit key (w.controls.circuit key) }) := by
    rw [World.exec, World.withControls, WorkControls.checkCircuit, if_neg hopen]
  simp only [refreshInner, Prog.run_bind, ExceptT.run_mk, Prog.call_bind, Prog.op_bind, Prog.run_check, Prog.ret_bind]
  refine (Goes.op hcheck).fails ?_
  -- what fails before the lookup is not put down to the origin
  cases s.destinationPolicy.validateUrl s.crates.resource.url key.url with
  | error error => exact landing_fails s t K _ _ (.inl rfl)
  | ok u =>
    cases key.url.host with
    | none => exact landing_fails s t K _ _ (.inl rfl)
    | some host =>
      cases s.crates.resource.url.portOrKnownDefault key.url with
      | none => exact landing_fails s t K _ _ (.inl rfl)
      | some port =>
        simp only [Except.mapError, okOr, Prog.orReturn_ok, Prog.op_bind]
        refine Goes.fails (Goes.op rfl) ?_
        cases hbegin : (WorkControls.beginFetch s.governor s.limits (w.controls.setCircuit key (w.controls.circuit key)) t
            (s.crates.resource.url.originAscii key.url) w.instant).1 with
        | error error => exact landing_fails s t K _ _ (.inr (beginFetch_loadShed t hbegin))
        | ok u =>
          simp only [Prog.orReturn_ok, refreshPermitted, Prog.run_bind, ExceptT.run_mk, Prog.call_bind, Prog.op_bind]
          exact .inr (Stops.op rfl)

variable {s t K}

theorem AtHand.alike (h : AtHand s w key) (hw : Alike key w w') : AtHand s w' key := by
  cases h with
  | fresh request old hreq hold hfresh =>
    exact .fresh request old hreq (hw.representation.trans hold) (hw.wall ▸ hfresh)
  | recorded request outcome hreq hent hv hgiven =>
    refine .recorded request outcome hreq (hw.entry.trans hent) (hw.instant ▸ hv) ?_
    rw [hw.representation, hw.wall]
    exact hgiven
  | rejected request old hreq hent hrun hopen hold hallowed =>
    refine .rejected request old hreq ?_ (hw.running.trans hrun) ?_ (hw.representation.trans hold) (hw.wall ▸ hallowed)
    · rw [hw.entry, hw.instant]
      exact hent
    · rw [hw.circuit, hw.instant]
      exact hopen

/-- A load gives a document that is at hand. -/
theorem AtHand.goes (h : AtHand s w key) : ∃ r w', Goes s t ((load s key).run >>= K) w (K (.ok r)) w' ∧
    (w.representations key = some r ∨ ∃ outcome, w.refreshes.entries key = some outcome ∧ outcome.result = .ok r) ∧
    ∀ key' ≠ key, Beside key' w w' := by
  obtain ⟨request, hreq⟩ : ∃ request, cacheRequest s.crates key = .ok request := by
    cases h with
    | fresh request _ hreq => exact ⟨request, hreq⟩
    | recorded request _ hreq => exact ⟨request, hreq⟩
    | rejected request _ hreq => exact ⟨request, hreq⟩
  cases hf : (w.representations key).filter (fun old => (old.freshRequest s.crates.policy request w.wall).isSome) with
  | some old => exact ⟨old, w, goes_fresh hreq hf, .inl (Option.filter_eq_some_iff.1 hf).1, fun _ _ => .refl w⟩
  | none =>
    have hstale := goes_loadStale (s := s) (t := t) (K := K) hreq hf
    cases h with
    | fresh request' old hreq' hold hfresh =>
      obtain rfl := Except.ok.inj (hreq.symm.trans hreq')
      rw [hold, Option.filter_some, if_pos hfresh] at hf
      cases hf
    | recorded _ outcome _ hent hv hgiven =>
      have hgoes := hstale.trans (goes_recorded s t K _ _ hent hv)
      rcases hgiven with hok | ⟨error, old, herror, hallows, hold, hallowed⟩
      · obtain ⟨r, hr⟩ : ∃ r, outcome.result = .ok r := by
          cases hresult : outcome.result with
          | ok r => exact ⟨r, rfl⟩
          | error error =>
            rw [hresult] at hok
            cases hok
        rw [hr] at hgoes
        exact ⟨r, w, hgoes, .inr ⟨outcome, hent, hr⟩, fun _ _ => .refl w⟩
      · rw [herror, hold, resultOrStale_stale hallows hallowed] at hgoes
        exact ⟨old, w, hgoes, .inl hold, fun _ _ => .refl w⟩
    | rejected _ old _ hent hrun hopen hold hallowed =>
      obtain ⟨w₁, hcoalesced, hnone, hrunning, hinstant, hcontrols, hbeside⟩ := goes_coalesced s t K
        (w.representations key) w.wall hent
      have hlead := goes_lead s t K (w.representations key) w.wall hnone (hrunning ▸ hrun)
      obtain ⟨w₂, hrejected, hbeside'⟩ := goes_rejected s t K (w.representations key) w.wall key
        { w₁ with refreshes := w₁.refreshes.leadBy t key } (by rw [hinstant, hcontrols]; exact hopen)
      have hgoes := hstale.trans (hcoalesced.trans (hlead.trans hrejected))
      rw [hold, resultOrStale_stale (allowsStale_iff.2 (.inr rfl)) hallowed] at hgoes
      refine ⟨old, w₂, hgoes, .inl hold, fun key' hne => ?_⟩
      have hled : Beside key' w₁ { w₁ with refreshes := w₁.refreshes.leadBy t key } := ⟨rfl, rfl, rfl⟩
      exact (hbeside key' hne).trans (hled.trans (hbeside' key' hne))

/-- A load for which no document is at hand fails, or waits for the outside or for
another load. -/
theorem load_fails (h : ¬AtHand s w key) : Fails s t K ((load s key).run >>= K) w := by
  cases hreq : cacheRequest s.crates key with
  | error error =>
    refine .inl ⟨error, w, ?_⟩
    simp only [load, hreq, Prog.run_bind, Prog.run_check, Prog.ret_bind, Prog.orReturn_error]
    exact .refl _ _
  | ok request =>
    have hf : (w.representations key).filter (fun old => (old.freshRequest s.crates.policy request w.wall).isSome) = none := by
      cases hf : (w.representations key).filter (fun old => (old.freshRequest s.crates.policy request w.wall).isSome) with
      | none => rfl
      | some old =>
        obtain ⟨hold, hfresh⟩ := Option.filter_eq_some_iff.1 hf
        exact absurd (.fresh request old hreq hold hfresh) h
    refine (goes_loadStale hreq hf).fails ?_
    by_cases hv : ∃ outcome, w.refreshes.entries key = some outcome ∧ w.instant < outcome.validUntil
    · obtain ⟨outcome, hent, hlt⟩ := hv
      have hgoes := goes_recorded s t K (w.representations key) w.wall hent hlt
      cases hresult : outcome.result with
      | ok r => exact absurd (.recorded request outcome hreq hent hlt (.inl (by rw [hresult]; rfl))) h
      | error error =>
        rw [hresult, resultOrStale_refused] at hgoes
        · exact .inl ⟨error, w, hgoes⟩
        · rintro ⟨hallows, old, hold, hallowed⟩
          exact h (.recorded request outcome hreq hent hlt (.inr ⟨error, old, hresult, hallows, hold, hallowed⟩))
    · have hent : ∀ outcome, w.refreshes.entries key = some outcome → outcome.validUntil ≤ w.instant :=
        fun outcome hent => Nat.le_of_not_lt fun hlt => hv ⟨outcome, hent, hlt⟩
      obtain ⟨w₁, hcoalesced, hnone, hrunning, hinstant, hcontrols, -⟩ := goes_coalesced s t K
        (w.representations key) w.wall hent
      refine hcoalesced.fails ?_
      cases hrun : w.refreshes.running key with
      | some t' => exact .inr (stops_wait s t K _ _ hnone (by rw [hrunning]; exact hrun))
      | none =>
        refine (goes_lead s t K _ _ hnone (by rw [hrunning]; exact hrun)).fails ?_
        by_cases hopen : (w.controls.circuit key).isOpen w.instant = true
        · obtain ⟨w₂, hrejected, -⟩ := goes_rejected s t K (w.representations key) w.wall key
            { w₁ with refreshes := w₁.refreshes.leadBy t key } (by rw [hinstant, hcontrols]; exact hopen)
          rw [resultOrStale_refused] at hrejected
          · exact .inl ⟨_, w₂, hrejected⟩
          · rintro ⟨-, old, hold, hallowed⟩
            exact h (.rejected request old hreq hent hrun hopen hold hallowed)
        · refine refresh_fails s t K _ _ ?_
          rw [hinstant, hcontrols]
          exact hopen

end Load

/-! ## The rest of a resolve call -/

section Rest

variable {request : ResolveRequest} {target : DiscoveryTarget} {old : Representation P}
  {resume : Except FetchError (Representation P) → Calls P (Answer P)} {log : Log P}

variable (s t) in
theorem goes_concluded (w : World P L) (request : ResolveRequest) (target : DiscoveryTarget)
    (result : Except FetchError (List ResourceKeyEntry)) : ∃ w',
    Goes s t (concluded s request target (.ret result)) w (.ret (.response (result.map (respond s request target)))) w' ∧
      ∀ key, Beside key w w' :=
  ⟨_, Goes.op rfl, fun _ => ⟨rfl, rfl, rfl⟩⟩

/-- A call whose load failed ends with the error. -/
theorem resumes_error (hresume : Resumes s (.resolve request) key resume) (error : FetchError) : ∃ w',
    Goes s t (resume (.error error)) w (.ret (.response (.error error))) w' ∧ Beside key w w' := by
  obtain ⟨target, -, ⟨-, rfl⟩ | ⟨-, rfl⟩⟩ := hresume
  · obtain ⟨w', hgoes, hbeside⟩ := goes_concluded s t w request target (.error error)
    exact ⟨w', hgoes, hbeside key⟩
  · obtain ⟨w', hgoes, hbeside⟩ := goes_concluded s t w request target (.error error)
    exact ⟨w', hgoes, hbeside key⟩

/-- Metadata that has no key set is followed by the document it names. -/
theorem cimdKeys_named {cimd : CimdResource} {url : Url} (hi : cimd.inlineJwks = none) (hu : cimd.jwksUri = some url) :
    concluded s request target (cimdKeys s cimd).run =
      (load s ⟨url, .jwks⟩).run >>= fun r => concluded s request target (.ret (r.bind jwksOf)) := by
  simp only [cimdKeys, hi, hu, okOr, Prog.run_bind, Prog.run_check, Prog.ret_bind, Prog.orReturn_ok]
  exact concluded_jwks _

/-- What a load finds at hand was held. -/
theorem Reached.held {state : ResolverState P L} (h : Reached s state) {r : Representation P}
    (hr : state.world.representations key = some r ∨
      ∃ outcome, state.world.refreshes.entries key = some outcome ∧ outcome.result = .ok r) : Held s state.log key r := by
  rcases hr with hr | ⟨outcome, hent, hr⟩
  · exact h.holds.inv.representations key r hr
  · obtain ⟨t, ht⟩ := h.holds.inv.refreshes.entries key outcome hent
    obtain ⟨older, ho, hland⟩ := landing_of_mem h.holds.good (mem_history_landed (List.takeWhile_subset _ ht))
    exact (hland.success r hr).1.mono ho

/-- A call that got a document it can be answered from is. -/
theorem Complete.goes {state : ResolverState P L} (h : Complete s state.world old) (hreached : Reached s state)
    (hresume : Resumes s (.resolve request) key resume) (hheld : Held s state.log key old) : ∃ target keys w',
    validateRequest s.crates.resource.url request = .ok target ∧ KeysOf s state.log old keys ∧
      Goes s t (resume (.ok old)) state.world (.ret (.response (.ok (respond s request target keys)))) w' ∧
      Beside key state.world w' := by
  obtain ⟨target, hv, ⟨hk, rfl⟩ | ⟨hk, rfl⟩⟩ := hresume
  · rcases hheld.sourced.kind with ⟨-, keys, hkeys⟩ | ⟨hk', -⟩
    · obtain ⟨w', hgoes, hbeside⟩ := goes_concluded s t state.world request target (.ok keys)
      have hof : jwksOf old = .ok keys := by rw [jwksOf, hkeys]
      refine ⟨target, keys, w', hv, .jwks hkeys, ?_, hbeside key⟩
      simp only [Except.bind, hof]
      exact hgoes
    · rw [hk] at hk'
      cases hk'
  · cases h with
    | jwks keys hkeys =>
      rcases hheld.sourced.kind with ⟨hk', -⟩ | ⟨-, cimd, hcimd⟩
      · rw [hk] at hk'
        cases hk'
      · rw [hkeys] at hcimd
        cases hcimd
    | inline cimd keys hcimd hi =>
      obtain ⟨w', hgoes, hbeside⟩ := goes_concluded s t state.world request target (.ok keys)
      have hof : cimdOf old = .ok cimd := by rw [cimdOf, hcimd]
      have hdone : (cimdKeys s cimd).run = .ret (.ok keys) := by
        rw [cimdKeys, hi]
        rfl
      refine ⟨target, keys, w', hv, .inline cimd hcimd hi, ?_, hbeside key⟩
      simp only [Except.bind, hof, Prog.orReturn_ok, hdone]
      exact hgoes
    | named cimd url hcimd hi hu hhand =>
      have hof : cimdOf old = .ok cimd := by rw [cimdOf, hcimd]
      have hne : key ≠ ⟨url, .jwks⟩ := by
        rintro rfl
        cases hk
      obtain ⟨r, w₁, hload, hfound, hbeside⟩ := hhand.goes (t := t)
        (K := fun r => concluded s request target (.ret (r.bind jwksOf)))
      have hr := hreached.held hfound
      rcases hr.sourced.kind with ⟨-, keys, hkeys⟩ | ⟨hk', -⟩
      · obtain ⟨w', hgoes, hbeside'⟩ := goes_concluded s t w₁ request target (.ok keys)
        have hjwks : jwksOf r = .ok keys := by rw [jwksOf, hkeys]
        simp only [Except.bind, hjwks] at hload
        refine ⟨target, keys, w', hv, .named cimd url r hcimd hi hu hr hkeys, ?_, (hbeside key hne).trans (hbeside' key)⟩
        simp only [Except.bind, hof, Prog.orReturn_ok]
        rw [cimdKeys_named hi hu]
        exact hload.trans hgoes
      · cases hk'

/-- A call that got any other document ends with an error, or not within the poll. -/
theorem resumes_incomplete (hresume : Resumes s (.resolve request) key resume) (hheld : Held s log key old)
    (h : ¬Complete s w old) :
    (∃ error w', Goes s t (resume (.ok old)) w (.ret (.response (.error error))) w') ∨ Stops s t (resume (.ok old)) w := by
  obtain ⟨target, -, ⟨hk, rfl⟩ | ⟨hk, rfl⟩⟩ := hresume
  · rcases hheld.sourced.kind with ⟨-, keys, hkeys⟩ | ⟨hk', -⟩
    · exact absurd (.jwks keys hkeys) h
    · rw [hk] at hk'
      cases hk'
  · rcases hheld.sourced.kind with ⟨hk', -⟩ | ⟨-, cimd, hcimd⟩
    · rw [hk] at hk'
      cases hk'
    · have hof : cimdOf old = .ok cimd := by rw [cimdOf, hcimd]
      simp only [Except.bind, hof, Prog.orReturn_ok]
      cases hi : cimd.inlineJwks with
      | some keys => exact absurd (.inline cimd keys hcimd hi) h
      | none =>
        cases hu : cimd.jwksUri with
        | none =>
          obtain ⟨w', hgoes, -⟩ := goes_concluded s t w request target (.error invalidResource)
          have hdone : (cimdKeys s cimd).run = .ret (.error invalidResource) := by
            simp only [cimdKeys, hi, hu, okOr, Prog.run_bind, Prog.run_check, Prog.ret_bind, Prog.orReturn_error]
          rw [hdone]
          exact .inl ⟨_, w', hgoes⟩
        | some url =>
          rw [cimdKeys_named hi hu]
          have hno : ¬AtHand s w ⟨url, .jwks⟩ := fun hhand => h (.named cimd url hcimd hi hu hhand)
          rcases load_fails (t := t) (K := fun r => concluded s request target (.ret (r.bind jwksOf))) hno with
            ⟨error, w₁, hload⟩ | hstops
          · obtain ⟨w', hgoes, -⟩ := goes_concluded s t w₁ request target (.error error)
            exact .inl ⟨error, w', hload.trans hgoes⟩
          · exact .inr hstops

end Rest

end EnvoyWebBotAuth.Resolver
