import EnvoyWebBotAuth.Resolver.Polls
import EnvoyWebBotAuth.Resolver.Selection
/-!
# A stalled origin

The fetcher's client and the resolve call have timers of one duration. The
timer of the call starts first. So when the origin stalls, the call is dropped
and nothing is recorded, unless it is not polled before the client's timer is up
as well. Then the fetch fails and is accounted for like any failure
(`Accounted`). The call still has to end in that poll: it is answered from a
stale document only if nothing else has to be waited for (`Complete`).

Trusted: of `tokio`, that a timeout polls the future it guards before its timer;
of `moka`, that dropping the leader of `get_with` stores no value.
-/
open EnvoyWebBotAuth.Lib EnvoyWebBotAuth.Protocol

namespace EnvoyWebBotAuth.Resolver

variable {P L : Type} (s : ResolverService P L)

/-- The fetch of thread `t` fails, and the call goes on until the refresh has landed. -/
def failFetch (state : ResolverState P L) (t : Nat) (error : FetchError) : Option (ResolverState P L) :=
  s.system.run state (.turn t (.response (.error error)) :: List.replicate 4 (.turn t .silent))

/-- The resolve call of thread `t` is polled when its timer is up and its fetch,
which it made at `issued`, has no response. -/
def pollStalled (state : ResolverState P L) (t : Nat) (issued : Instant) : Option (ResolverState P L) :=
  if issued + s.limits.resolutionTimeout ≤ state.world.instant then
    (failFetch s state t (.new .timeout)).map (s.system.poll .silent t)
  else s.system.step state (.elapse t)

/-- A failed refresh of `key` is counted and recorded. -/
structure Accounted (key : ResourceKey) (before after : ResolverState P L) : Prop where
  counted : (after.world.controls.circuit key).consecutiveFailures =
    saturatingAddU32 (before.world.controls.circuit key).consecutiveFailures 1
  opened : 2 ≤ (before.world.controls.circuit key).consecutiveFailures →
    (after.world.controls.circuit key).isOpen after.world.instant = true
  recorded : ∃ outcome error, after.world.refreshes.entries key = some outcome ∧ outcome.result = .error error ∧
    error.class = .transient ∧ after.world.instant + minFailureBackoff ≤ outcome.validUntil ∧
    -- a load that begins before then needs four calls at most, none of them answered from outside
    ∀ t' wall instant, (∀ e ∈ after.log, e.thread ≠ t') → after.world.instant ≤ instant →
      instant < outcome.validUntil → ∃ n ≤ 4, ∃ result state,
        s.system.run after (.env (.clock wall instant) :: .call t' (.load key) :: List.replicate n (.turn t' .silent)) =
          some state ∧ state.threads t' = some (.load key, .ret (.representation result))

/-- The resolve call of thread `t` returns the resolution from the document `old`. -/
def AnsweredFrom (t : Nat) (request : ResolveRequest) (old : Representation P) (after : ResolverState P L) : Prop :=
  ∃ target keys older, validateRequest s.crates.resource.url request = .ok target ∧ KeysOf s older old keys ∧
    after.log = .returned t (.resolve request) (.response (.ok (respond s request target keys))) :: older

/-- The failed refresh is accounted for, and the call is answered from the
document it captured if that may be used on an error. -/
structure Handled (t : Nat) (request : ResolveRequest) (key : ResourceKey) (previous : Option (Representation P))
    (now : SystemTime) (before after : ResolverState P L) : Prop extends Accounted s key before after where
  stale : ∀ old, previous = some old → old.staleAllowedAfterError now = true → AnsweredFrom s t request old after

variable {s}

section Fail

variable {key : ResourceKey} {request : Request} {previous : Option (Representation P)} {now : SystemTime}
  {error : FetchError} {resume : Except FetchError (Representation P) → Calls P (Answer P)} {t : Nat}
  {state : ResolverState P L}

/-- What is left to call when a fetch fails. -/
theorem afterFetch_transient (he : error.class = .transient) :
    afterFetch s key request previous now (.error error) >>= resume =
      .op .dropPermit (fun _ => .op (.failureBackoff key error.retryAfter) (fun backoff => .op .instantNow (fun instant =>
        .op (.initDone key ⟨.error error, instant + backoff.1⟩) (fun _ =>
          resume (resultOrStale (.error error) previous now))))) := by
  simp only [afterFetch, settleFetch, refreshOutcome, validFor, he, Prog.run_bind, Prog.run_check, Prog.ret_bind,
    Prog.orReturn_error, Prog.call_bind, Prog.op_bind]
  rfl

/-- The shared state after a failed refresh. -/
def World.failed (w : World P L) (t : Nat) (key : ResourceKey) (error : FetchError) : World P L :=
  { w with
    controls := ((w.controls.dropPermit t).failureBackoff key error.retryAfter w.instant).2
    refreshes := w.refreshes.land key ⟨.error error,
      w.instant + ((w.controls.dropPermit t).failureBackoff key error.retryAfter w.instant).1.1⟩ }

theorem failFetch_eq {task : Task} {fetch : FetchRequest} (he : error.class = .transient)
    (ht : state.threads t = some (task, .op (.fetch fetch) (fun a => afterFetch s key request previous now a >>= resume))) :
    ∃ after, failFetch s state t error = some after ∧ after.world = state.world.failed t key error ∧
      after.threads t = some (task, resume (resultOrStale (.error error) previous now)) ∧ state.log <:+ after.log ∧
      Unfinished t after := by
  have hfetch : s.system.exec t (.fetch fetch) (.response (.error error)) state.world =
      some (.error error, state.world) := rfl
  unfold failFetch
  rw [s.system.run_turn ht hfetch, afterFetch_transient he]
  simp only [List.replicate_succ, List.replicate_zero]
  -- the four calls are answered at once
  rw [s.system.run_turn (Function.update_self _ _ _) rfl]
  rw [s.system.run_turn (Function.update_self _ _ _) rfl]
  rw [s.system.run_turn (Function.update_self _ _ _) rfl]
  rw [s.system.run_turn (Function.update_self _ _ _) rfl]
  refine ⟨_, rfl, rfl, Function.update_self _ _ _, ⟨[_, _, _, _, _], rfl⟩, ?_⟩
  rintro task' answer older ⟨⟩

end Fail

/-- A load that finds an outcome before its time makes four calls at most. -/
theorem load_spared (state : ResolverState P L) {key : ResourceKey} {request : Request} {outcome : RefreshOutcome P}
    (hreq : cacheRequest s.crates key = .ok request) (hent : state.world.refreshes.entries key = some outcome)
    {t : Nat} (hf : ∀ e ∈ state.log, e.thread ≠ t) (hv : state.world.instant < outcome.validUntil) :
    ∃ n ≤ 4, ∃ result after,
      s.system.run state (.call t (.load key) :: List.replicate n (.turn t .silent)) = some after ∧
        after.threads t = some (.load key, .ret (.representation result)) := by
  -- the load reads the clock and the representation, and has it if it is fresh
  cases hfilter : (state.world.representations key).filter
      (fun old => (old.freshRequest s.crates.policy request state.world.wall).isSome) with
  | some old =>
    refine ⟨2, by decide, .ok old, ?_⟩
    rw [s.system.run_call hf]
    simp only [ResolverService.system, Task.body, load, hreq, Prog.run_bind, Prog.run_check, Prog.run_ask, Prog.ret_bind,
      Prog.orReturn_ok, Prog.op_bind, List.replicate_succ, List.replicate_zero]
    rw [System.run_turn _ (Function.update_self _ _ _) rfl, System.run_turn _ (Function.update_self _ _ _) rfl]
    simp only [hfilter]
    exact ⟨_, rfl, Function.update_self _ _ _⟩
  | none =>
    refine ⟨4, by decide, resultOrStale outcome.result (state.world.representations key) state.world.wall, ?_⟩
    rw [s.system.run_call hf]
    simp only [ResolverService.system, Task.body, load, hreq, Prog.run_bind, Prog.run_check, Prog.run_ask, Prog.ret_bind,
      Prog.orReturn_ok, Prog.op_bind, List.replicate_succ, List.replicate_zero]
    rw [System.run_turn _ (Function.update_self _ _ _) rfl, System.run_turn _ (Function.update_self _ _ _) rfl]
    simp only [hfilter, loadStale, ExceptT.run_mk, Prog.call_bind, Prog.op_bind]
    rw [System.run_turn _ (Function.update_self _ _ _) rfl]
    simp only [hent]
    rw [System.run_turn _ (Function.update_self _ _ _) rfl]
    simp only [if_pos hv]
    exact ⟨_, rfl, Function.update_self _ _ _⟩

section Poll

variable {t : Nat} {key : ResourceKey} {request : Request} {previous : Option (Representation P)} {now : SystemTime}
  {error : FetchError} {resume : Except FetchError (Representation P) → Calls P (Answer P)} {fetch : FetchRequest}
  {state failed after : ResolverState P L} {resolving : ResolveRequest}

/-- What is left as a failed refresh leaves it is accounted for. -/
theorem accounted (hreq : cacheRequest s.crates key = .ok request) (he : error.class = .transient)
    (hw : Beside key (state.world.failed t key error) after.world) : Accounted s key state after := by
  have hcircuit : after.world.controls.circuit key =
      ((state.world.controls.circuit key).failure error.retryAfter state.world.instant).2 :=
    hw.circuit.trans WorkControls.setCircuit_circuit
  have hinstant : after.world.instant = state.world.instant := hw.instant
  have hent : after.world.refreshes.entries key = some ⟨.error error, state.world.instant +
      ((state.world.controls.circuit key).failure error.retryAfter state.world.instant).1.1⟩ :=
    hw.entry.trans (Function.update_self _ _ _)
  constructor
  · rw [hcircuit]
    exact failure_consecutive
  · intro htwo
    rw [hcircuit, hinstant]
    exact failure_opens htwo
  · refine ⟨_, error, hent, rfl, he, ?_, ?_⟩
    · rw [hinstant, failure_backoff]
      exact Nat.add_le_add_left backoffFor_ge _
    · intro t' wall instant hf hi hv
      have hclock : s.system.env (.clock wall instant) after.world =
          some { after.world with wall := wall, instant := instant } := if_pos hi
      obtain ⟨n, hn, hload⟩ := load_spared
        ⟨{ after.world with wall := wall, instant := instant }, after.threads, after.log⟩ hreq hent hf hv
      refine ⟨n, hn, ?_⟩
      simp only [s.system.run_env hclock]
      exact hload

/-- A failed refresh changes nothing for the other keys. -/
theorem World.failed_alike (w : World P L) {key' : ResourceKey} (hne : key' ≠ key) :
    Alike key' w (w.failed t key error) where
  instant := rfl
  circuit := setCircuit_other _ hne _
  entry := Function.update_of_ne hne _ _
  wall := rfl
  representation := rfl
  running := Function.update_of_ne hne _ _

/-- A document of another key is at hand as before. -/
theorem Complete.of_alike {w w' : World P L} {old : Representation P} (h : Complete s w old)
    (hw : ∀ url, key.kind = .cimd → Alike ⟨url, .jwks⟩ w w')
    (hkind : ∀ cimd, old.resource = .cimd cimd → key.kind = .cimd) : Complete s w' old := by
  cases h with
  | jwks keys hkeys => exact .jwks keys hkeys
  | inline cimd keys hcimd hi => exact .inline cimd keys hcimd hi
  | named cimd url hcimd hi hu hhand => exact .named cimd url hcimd hi hu (hhand.alike (hw url (hkind cimd hcimd)))

/-- What a call needs for an answer from the document it captured, it needs still
when its refresh has failed. -/
theorem complete_failed_iff {old : Representation P} {log : Log P} {w : World P L} (hheld : Held s log key old) :
    Complete s (w.failed t key error) old ↔ Complete s w old := by
  have hkind : ∀ cimd, old.resource = .cimd cimd → key.kind = .cimd := by
    intro cimd hcimd
    rcases hheld.sourced.kind with ⟨-, keys, hkeys⟩ | ⟨hk, -⟩
    · rw [hkeys] at hcimd
      cases hcimd
    · exact hk
  have halike : ∀ url, key.kind = .cimd → Alike ⟨url, .jwks⟩ w (w.failed t key error) := by
    intro url hk
    apply World.failed_alike
    rintro rfl
    cases hk
  exact ⟨fun h => h.of_alike (fun url hk => (halike url hk).symm) hkind, fun h => h.of_alike halike hkind⟩

/-- A poll of a call that goes on with a stale document answers it from that
exactly if nothing else has to be waited for. -/
theorem answered_iff {old : Representation P} (h : Reached s failed)
    (ht : failed.threads t = some (.resolve resolving, resume (.ok old)))
    (hresume : Resumes s (.resolve resolving) key resume) (hheld : Held s failed.log key old)
    (hlast : Unfinished t failed) :
    AnsweredFrom s t resolving old (s.system.poll .silent t failed) ↔ Complete s failed.world old := by
  rw [System.poll_eq ht]
  constructor
  · rintro ⟨target, keys, older, -, -, hlog⟩
    by_contra hno
    rcases resumes_incomplete (t := t) hresume hheld hno with ⟨error, w', hgoes⟩ | hstops
    · obtain ⟨older', hlog', -⟩ := hgoes.returned (.resolve resolving) rfl
      rw [hlog] at hlog'
      cases hlog'
    · exact hstops (.resolve resolving) failed rfl hlast _ _ _ hlog
  · intro hcomplete
    obtain ⟨target, keys, w', hv, hkeys, hgoes, -⟩ := hcomplete.goes (t := t) h hresume hheld
    obtain ⟨older, hlog, holder, -⟩ := hgoes.returned (.resolve resolving) rfl
    exact ⟨target, keys, older, hv, hkeys.mono holder, hlog⟩

/-- A call that ends in the poll leaves its own key alone. -/
theorem poll_beside (h : Reached s failed) (he : error.class = .transient)
    (ht : failed.threads t = some (.resolve resolving, resume (resultOrStale (.error error) previous now)))
    (hresume : Resumes s (.resolve resolving) key resume)
    (hheld : ∀ old, previous = some old → Held s failed.log key old)
    (hcomplete : ∀ old, previous = some old → old.staleAllowedAfterError now = true → Complete s failed.world old) :
    Beside key failed.world (s.system.poll .silent t failed).world := by
  rw [System.poll_eq ht]
  by_cases hyes : ∃ old, previous = some old ∧ old.staleAllowedAfterError now = true
  · obtain ⟨old, rfl, hallowed⟩ := hyes
    rw [resultOrStale_stale (allowsStale_iff.2 (.inl he)) hallowed]
    obtain ⟨_, _, w', -, -, hgoes, hbeside⟩ := (hcomplete old rfl hallowed).goes (t := t) h hresume (hheld old rfl)
    obtain ⟨-, -, -, hw⟩ := hgoes.returned (.resolve resolving) rfl
    rw [hw]
    exact hbeside
  · rw [resultOrStale_refused (by rintro ⟨-, old, hold, hallowed⟩; exact hyes ⟨old, hold, hallowed⟩)]
    obtain ⟨w', hgoes, hbeside⟩ := resumes_error (s := s) (t := t) (w := failed.world) hresume error
    obtain ⟨-, -, -, hw⟩ := hgoes.returned (.resolve resolving) rfl
    rw [hw]
    exact hbeside

/-- After the poll in which its fetch fails, a call is handled exactly if its
stale document needs nothing more. -/
theorem handled_iff (h : Reached s state) (hreq : cacheRequest s.crates key = .ok request)
    (he : error.class = .transient) (hheld : ∀ old, previous = some old → Held s state.log key old)
    (hresume : Resumes s (.resolve resolving) key resume)
    (ht : state.threads t =
      some (.resolve resolving, .op (.fetch fetch) (fun a => afterFetch s key request previous now a >>= resume))) :
    ∃ failed, failFetch s state t error = some failed ∧ Accounted s key state failed ∧
      (∀ old, previous = some old → old.staleAllowedAfterError now = true →
        (AnsweredFrom s t resolving old (s.system.poll .silent t failed) ↔ Complete s state.world old)) ∧
      (Handled s t resolving key previous now state (s.system.poll .silent t failed) ↔
        ∀ old, previous = some old → old.staleAllowedAfterError now = true → Complete s state.world old) := by
  obtain ⟨failed, hrun, hworld, hthreads, hlog, hlast⟩ := failFetch_eq he ht
  have hfailed := h.run hrun
  have hstale : ∀ old, previous = some old → old.staleAllowedAfterError now = true →
      (AnsweredFrom s t resolving old (s.system.poll .silent t failed) ↔ Complete s state.world old) := by
    rintro old rfl hallowed
    rw [resultOrStale_stale (allowsStale_iff.2 (.inl he)) hallowed] at hthreads
    rw [answered_iff hfailed hthreads hresume ((hheld old rfl).mono hlog) hlast, hworld]
    exact complete_failed_iff (hheld old rfl)
  have hfailure : Beside key (state.world.failed t key error) failed.world := by
    rw [hworld]
    exact .refl _
  refine ⟨failed, hrun, accounted hreq he hfailure, hstale, ?_⟩
  constructor
  · intro hhandled old hold hallowed
    exact (hstale old hold hallowed).1 (hhandled.stale old hold hallowed)
  · intro hcomplete
    have hpoll := poll_beside hfailed he hthreads hresume (fun old hold => (hheld old hold).mono hlog) (by
      intro old hold hallowed
      rw [hworld]
      exact (complete_failed_iff (hheld old hold)).2 (hcomplete old hold hallowed))
    exact ⟨accounted hreq he (hfailure.trans hpoll),
      fun old hold hallowed => (hstale old hold hallowed).2 (hcomplete old hold hallowed)⟩

end Poll

/-! ## Waiting -/

theorem World.exec_deadlines {t t' : Nat} {o : Op P} {x : Outside} {a : Ans o} {w w' : World P L}
    (h : World.exec s t' o x w = some (a, w')) (ht : t' ≠ t) : w'.deadlines t = w.deadlines t := by
  cases o with
  | startTimeout | endTimeout =>
    obtain ⟨-, rfl⟩ := Prod.mk.inj (Option.some.inj h)
    exact Function.update_of_ne ht.symm _ _
  | awaitWith key =>
    simp only [World.exec, Option.map_eq_some_iff] at h
    obtain ⟨r, -, hw⟩ := h
    obtain ⟨-, rfl⟩ := Prod.mk.inj hw
    rfl
  | acquireHandler =>
    simp only [World.exec] at h
    split at h <;>
    · obtain ⟨-, rfl⟩ := Prod.mk.inj (Option.some.inj h)
      rfl
  | resolveHost host port | fetch request =>
    cases x <;> simp only [World.exec, Option.some.injEq, Prod.mk.injEq, reduceCtorEq] at h
    obtain ⟨-, rfl⟩ := h
    rfl
  | _ =>
    obtain ⟨-, rfl⟩ := Prod.mk.inj (Option.some.inj h)
    rfl

theorem World.env_deadlines {e : Env} {w w' : World P L} (h : World.env e w = some w') :
    w'.deadlines = w.deadlines := by
  cases e with
  | clock wall instant =>
    simp only [World.env] at h
    split at h
    · obtain rfl := Option.some.inj h
      rfl
    · cases h
  | park t =>
    simp only [World.env, Option.map_eq_some_iff] at h
    obtain ⟨refreshes, -, rfl⟩ := h
    rfl
  | _ =>
    obtain rfl := Option.some.inj h
    rfl

/-- The timer of a thread that waits stays as it is. -/
theorem deadline_of_waits {t : Nat} {before state : ResolverState P L} (h : s.system.Waits t before state) :
    state.world.deadlines t = before.world.deadlines t := by
  refine h.keeps (Q := fun w => w.deadlines t = before.world.deadlines t) rfl ?_ ?_ ?_
  · intro t' o x a w w' ht he hw
    exact (World.exec_deadlines he ht).trans hw
  · intro t' w ht hw
    exact (Function.update_of_ne ht.symm _ _).trans hw
  · intro e w w' he hw
    rw [World.env_deadlines he, hw]

/-! ## The poll -/

theorem Reached.waits {before state : ResolverState P L} (h : Reached s before) {t : Nat}
    (hw : s.system.Waits t before state) : Reached s state := by
  obtain ⟨wall, instant, hb⟩ := h
  exact ⟨wall, instant, hw.reachable hb⟩

/-- A poll is steps of its thread. -/
theorem Reached.pollStalled {state after : ResolverState P L} (h : Reached s state) {t : Nat} {issued : Instant}
    (hp : Resolver.pollStalled s state t issued = some after) : Reached s after := by
  unfold Resolver.pollStalled at hp
  split at hp
  · obtain ⟨failed, hrun, rfl⟩ := Option.map_eq_some_iff.1 hp
    obtain ⟨as, -, hpoll⟩ := System.poll_run (S := s.system) (x := .silent) (t := t) failed
    exact (h.run hrun).run hpoll
  · exact h.step hp

/-- A resolve call that is dropped records nothing. -/
theorem pollStalled_dropped {t : Nat} {request : ResolveRequest} {fetch : FetchRequest}
    {k : Except FetchError FetchResponse → Calls P (Answer P)} {state : ResolverState P L} (h : Reached s state)
    (ht : state.threads t = some (.resolve request, .op (.fetch fetch) k)) {issued deadline : Instant}
    (hd : state.world.deadlines t = some deadline) (hdue : deadline ≤ state.world.instant)
    (hearly : ¬issued + s.limits.resolutionTimeout ≤ state.world.instant) :
    ∃ after, pollStalled s state t issued = some after ∧ ¬Accounted s ⟨fetch.url, fetch.kind⟩ state after := by
  have hanswer : s.system.due t (.resolve request) (.fetch fetch) state.world =
      some (.response (.error (.new .timeout))) := by
    show (if (state.world.deadlines t).any (· ≤ state.world.instant) then _ else _) = _
    rw [if_pos]
    rw [hd]
    exact decide_eq_true hdue
  have hinv := h.holds.inv
  rw [pollStalled, if_neg hearly, System.step, ht]
  dsimp only
  rw [hanswer]
  refine ⟨_, rfl, ?_⟩
  intro haccounted
  -- the call led for the key, so there is no outcome
  obtain ⟨outcome, error, hent, -⟩ := haccounted.recorded
  have hnone := hinv.absent (leads_of_fetch h ht)
  change state.world.refreshes.entries _ = some outcome at hent
  rw [hnone] at hent
  cases hent

/-- A resolve call whose fetch fails is handled, as far as its stale document
needs nothing more. One whose fetch stalls is handled so exactly if it is not
polled between the end of its own timer, which comes first, and the end of the
client's. -/
theorem stalled_fetch {before state : ResolverState P L} (h : Reached s before) {t : Nat} {request : ResolveRequest}
    {fetch : FetchRequest} {k : Except FetchError FetchResponse → Calls P (Answer P)}
    (ht : before.threads t = some (.resolve request, .op (.fetch fetch) k)) (hw : s.system.Waits t before state)
    {deadline : Instant} (hd : state.world.deadlines t = some deadline) (hdue : deadline ≤ state.world.instant) :
    deadline ≤ before.world.instant + s.limits.resolutionTimeout ∧
      ∃ previous now began, loading (own t before.log) = some ⟨⟨fetch.url, fetch.kind⟩, previous, now, began⟩ ∧
        (∃ failed, failFetch s before t (.new .transport) = some failed ∧
          Accounted s ⟨fetch.url, fetch.kind⟩ before failed ∧
          ∀ old, previous = some old → old.staleAllowedAfterError now = true →
            (AnsweredFrom s t request old (s.system.poll .silent t failed) ↔ Complete s before.world old)) ∧
        ∃ after, pollStalled s state t before.world.instant = some after ∧ Reached s after ∧
          (Handled s t request ⟨fetch.url, fetch.kind⟩ previous now state after ↔
            before.world.instant + s.limits.resolutionTimeout ≤ state.world.instant ∧
              ∀ old, previous = some old → old.staleAllowedAfterError now = true → Complete s state.world old) := by
  refine ⟨h.holds.inv.deadlines t deadline (deadline_of_waits hw ▸ hd), ?_⟩
  obtain ⟨key, asked, previous, now, hf⟩ := h.holds.pre ht
  obtain ⟨began, hload⟩ := hf.loading
  obtain ⟨task, resume, hcall, hresume, rfl⟩ := hf.rest
  obtain rfl := Option.some.inj (hcall.symm.trans (h.holds.threads t _ _ ht).1)
  obtain rfl := Option.some.inj ((leads_of_fetch h ht).symm.trans hf.leads)
  have ht' := hw.threads.trans ht
  refine ⟨previous, now, began, hload, ?_, ?_⟩
  · obtain ⟨failed, hrun, haccounted, hstale, -⟩ := handled_iff h hf.requested
      (show (FetchError.new .transport).class = .transient from rfl) hf.held hresume ht
    exact ⟨failed, hrun, haccounted, hstale⟩
  · have h' := h.waits hw
    by_cases hlate : before.world.instant + s.limits.resolutionTimeout ≤ state.world.instant
    · obtain ⟨failed, hrun, -, -, hhandled⟩ := handled_iff h' hf.requested
        (show (FetchError.new .timeout).class = .transient from rfl) (fun old hold => (hf.held old hold).mono hw.log) hresume ht'
      have hpoll : pollStalled s state t before.world.instant = some (s.system.poll .silent t failed) := by
        rw [pollStalled, if_pos hlate, hrun]
        rfl
      exact ⟨_, hpoll, h'.pollStalled hpoll, hhandled.trans (and_iff_right hlate).symm⟩
    · obtain ⟨after, hrun, hnot⟩ := pollStalled_dropped h' ht' hd hdue hlate
      exact ⟨after, hrun, h'.pollStalled hrun, fun hhandled => absurd hhandled.toAccounted hnot,
        fun hcond => absurd hcond.1 hlate⟩

/-! ## Stalled samples -/

/-- Thread `t` is called and gets to its fetch, with a DNS answer at `now`. -/
def callUpToFetch (t : Nat) (task : Task) (looks asks : Nat) (now : Instant) : List SampleAction :=
  .call t task :: turns t looks ++ [.env (.clock now now)] ++ [.turn t (.addresses (.ok [.v4 0x08080808#32]))] ++
    turns t asks

/-- The clock and the timer of thread `t`, if it is about to fetch for a resolve call. -/
def fetchingSince (t : Nat) (state : ResolverState SamplePolicy Unit) : Option (Instant × Instant) :=
  match state.threads t with
  | some (.resolve _, .op (.fetch _) _) => (state.world.deadlines t).map (fun d => (state.world.instant, d))
  | _ => none

/-- The state when the clock reads `now`. -/
def tick (state : ResolverState SamplePolicy Unit) (now : Instant) : ResolverState SamplePolicy Unit :=
  { state with world := { state.world with wall := now, instant := now } }

theorem stalling_run (service : ResolverService SamplePolicy Unit) {actions : List SampleAction} {t : Nat}
    {issued deadline : Instant}
    (h : (service.system.run (System.start (World.start service 0 0)) actions).bind (fetchingSince t) =
      some (issued, deadline)) (hle : issued ≤ deadline) :
    ∃ before request fetch k, service.system.run (System.start (World.start service 0 0)) actions = some before ∧
      before.threads t = some (.resolve request, .op (.fetch fetch) k) ∧ before.world.instant = issued ∧
      service.system.Waits t before (tick before deadline) ∧ (tick before deadline).world.deadlines t = some deadline := by
  obtain ⟨before, hrun, hf⟩ := Option.bind_eq_some_iff.1 h
  unfold fetchingSince at hf
  split at hf
  · rename_i request fetch k ht
    obtain ⟨d, hd, hp⟩ := Option.map_eq_some_iff.1 hf
    obtain ⟨hi, rfl⟩ := Prod.mk.inj hp
    refine ⟨before, request, fetch, k, hrun, ht, hi, ?_, hd⟩
    refine .step (.env (.clock d d)) .refl nofun ?_
    rw [← hi] at hle
    have hclock : service.system.env (.clock d d) before.world = some (tick before d).world := if_pos hle
    rw [System.step, hclock]
    rfl
  · cases hf

def metadataKey : ResourceKey := ⟨sampleUrl ['m'], .cimd⟩

/-- Metadata that names the sample key set. -/
def metadataBody : Bytes :=
  headerValue "\x7b\"client_id\":\"https://agent.example/m\",\"jwks_uri\":\"https://agent.example/k\"\x7d"

/-- The sample resolver, before an origin with metadata and a key set. -/
def metadataService : ResolverService SamplePolicy Unit :=
  { besideService with
    crates :=
      { besideService.crates with
        resource :=
          { besideService.crates.resource with
            cimdFromSlice := fun body =>
              if body = metadataBody then some ⟨"https://agent.example/m", none, some "https://agent.example/k"⟩
              else none } } }

def metadataRepresentation : Representation SamplePolicy where
  resource := .cimd ⟨none, some sampleKey.url⟩
  policy := ⟨(sampleResponse 200 "max-age=60, stale-if-error=600").headers, 0, fromSecs 60⟩
  storedAt := 0
  freshFor := fromSecs 60
  staleIfError := some (fromSecs 600)

def keysRepresentation : Representation SamplePolicy where
  resource := .jwks besideKeys
  policy := ⟨(sampleResponse 200 "max-age=7200").headers, 0, fromSecs 7200⟩
  storedAt := 0
  freshFor := fromSecs 7200
  staleIfError := none

/-- The metadata and the key set are loaded, and after a minute, when only the
key set is fresh, a resolve call fetches the metadata again. -/
def stallingMetadata : List SampleAction :=
  callUpToFetch 1 (.load metadataKey) 6 1 0 ++
    [.turn 1 (.response (.ok { sampleResponse 200 "max-age=60, stale-if-error=600" with body := metadataBody }))] ++
    turns 1 6 ++ [.finish 1] ++
  callUpToFetch 2 (.load sampleKey) 6 1 0 ++
    [.turn 2 (.response (.ok { sampleResponse 200 "max-age=7200" with body := besideBody }))] ++ turns 2 6 ++ [.finish 2] ++
  [.env (.clock (fromSecs 61) (fromSecs 61))] ++
    callUpToFetch 3 (.resolve ⟨.v1, .cimd, "https://agent.example/m", "other"⟩) 10 2 (fromSecs 61)

/-- What the resolve call of this run has captured, and what the cache has for it. -/
theorem stallingMetadata_captured {before : ResolverState SamplePolicy Unit}
    (hrun : metadataService.system.run (System.start (World.start metadataService 0 0)) stallingMetadata = some before) :
    (loading (own 3 before.log)).map (fun l => (l.previous, l.now)) = some (some metadataRepresentation, fromSecs 61) ∧
      before.world.representations sampleKey = some keysRepresentation := by
  have hread : (metadataService.system.run (System.start (World.start metadataService 0 0)) stallingMetadata).map
      (fun state => ((loading (own 3 state.log)).map (fun l => (l.previous, l.now)),
        state.world.representations sampleKey)) =
      some (some (some metadataRepresentation, fromSecs 61), some keysRepresentation) := by decide +kernel
  rw [hrun] at hread
  exact Prod.mk.inj (Option.some.inj hread)

theorem stalled_fetch_sample : ∃ before : ResolverState SamplePolicy Unit, ∃ request, ∃ fetch : FetchRequest, ∃ after,
    pollStalled metadataService (tick before (fromSecs 61 + resolutionDeadline)) 3 (fromSecs 61) = some after ∧
      Handled metadataService 3 request ⟨fetch.url, fetch.kind⟩ (some metadataRepresentation) (fromSecs 61)
        (tick before (fromSecs 61 + resolutionDeadline)) after ∧
      AnsweredFrom metadataService 3 request metadataRepresentation after := by
  obtain ⟨before, request, fetch, k, hrun, ht, hi, hw, hd⟩ := stalling_run metadataService
    (show (metadataService.system.run (System.start (World.start metadataService 0 0)) stallingMetadata).bind
      (fetchingSince 3) = some (fromSecs 61, fromSecs 61 + resolutionDeadline) by decide +kernel) (Nat.le_add_right _ _)
  have hreached : Reached metadataService before := ⟨0, 0, System.Reachable.start.run _ _ hrun⟩
  obtain ⟨hcaptured, hcached⟩ := stallingMetadata_captured hrun
  obtain ⟨-, previous, now, began, hload, -, after, hpoll, -, hiff⟩ := stalled_fetch hreached ht hw hd (Nat.le_refl _)
  rw [hload] at hcaptured
  obtain ⟨rfl, rfl⟩ := Prod.mk.inj (Option.some.inj hcaptured)
  rw [hi] at hpoll hiff
  have hcomplete : Complete metadataService (tick before (fromSecs 61 + resolutionDeadline)).world metadataRepresentation := by
    refine .named _ _ rfl rfl rfl (.fresh _ keysRepresentation rfl hcached ?_)
    show (keysRepresentation.freshRequest samplePolicy _ (fromSecs 61 + resolutionDeadline)).isSome = true
    decide +kernel
  have hhandled := hiff.2 ⟨Nat.le_refl _, by rintro old ⟨⟩ -; exact hcomplete⟩
  exact ⟨before, request, fetch, after, hpoll, hhandled, hhandled.stale _ rfl (by decide +kernel)⟩

def sampleResolve : ResolveRequest := ⟨.v1, .jwksUri, "https://agent.example/k", "key"⟩

/-- With a DNS answer that takes a millisecond, a stalled fetch is not handled. -/
theorem stalled_fetch_unhandled :
    ¬∀ (before state : ResolverState SamplePolicy Unit) t request (fetch : FetchRequest) k deadline, Reached sampleService before →
      before.threads t = some (.resolve request, .op (.fetch fetch) k) → sampleService.system.Waits t before state →
      state.world.deadlines t = some deadline → deadline ≤ state.world.instant →
      ∃ previous now after, pollStalled sampleService state t before.world.instant = some after ∧
        Handled sampleService t request ⟨fetch.url, fetch.kind⟩ previous now state after := by
  intro h
  obtain ⟨before, request, fetch, k, hrun, ht, hi, hw, hd⟩ := stalling_run sampleService
    (show (sampleRun (callUpToFetch 1 (.resolve sampleResolve) 8 1 (fromMillis 1))).bind (fetchingSince 1) =
      some (fromMillis 1, resolutionDeadline) by decide +kernel) (by decide)
  have hreached : Reached sampleService before := sampleRun_reached hrun
  obtain ⟨previous, now, after, hpoll, hhandled⟩ := h before _ 1 request fetch k _ hreached ht hw hd (Nat.le_refl _)
  have hearly : ¬before.world.instant + sampleService.limits.resolutionTimeout ≤
      (tick before resolutionDeadline).world.instant := by
    rw [hi]
    show ¬fromMillis 1 + resolutionDeadline ≤ resolutionDeadline
    decide
  obtain ⟨after', hpoll', hnot⟩ := pollStalled_dropped (hreached.waits hw) (hw.threads.trans ht) hd (Nat.le_refl _) hearly
  obtain rfl := Option.some.inj (hpoll.symm.trans hpoll')
  exact hnot hhandled.toAccounted

end EnvoyWebBotAuth.Resolver
