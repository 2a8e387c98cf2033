import EnvoyWebBotAuth.Resolver.Served
/-!
# Keys rotate forward

A refresh publishes what it made while it leads for its key, so publications of
a key are in one order, and what a load gives is no older than what was
published when the load began. A representation has the keys of one document.
-/
open EnvoyWebBotAuth.Lib EnvoyWebBotAuth.Protocol

namespace EnvoyWebBotAuth.Resolver

variable {P L : Type} {s : ResolverService P L}

/-- What a load gives was published. -/
theorem UpToDate.published {t : Nat} {log : Log P} {key : ResourceKey} {r : Representation P}
    (h : UpToDate s t log key r) : ∃ q, q <:+ log ∧ Publication s q key r := by
  obtain ⟨start, previous, now, -, -, q, hq, hp, -⟩ := h
  exact ⟨q, hq, hp⟩

/-- A call of a thread comes after the thread was called. -/
theorem called_before_did {t : Nat} {task : Task} {o : Op P} {a : Ans o} {start older log : Log P}
    (hg : (outline s).Good log) (hc : (.called t task :: start) <:+ log) (hd : (.did t o a :: older) <:+ log) :
    start <:+ older := by
  rcases List.suffix_or_suffix_of_suffix hc hd with hle | hle
  · rcases List.suffix_cons_iff.1 hle with he | hle
    · cases (List.cons.inj he).1
    · exact (List.suffix_cons _ start).trans hle
  · exfalso
    rcases List.suffix_cons_iff.1 hle with he | hle
    · cases (List.cons.inj he).1
    · -- the thread would have acted before it was called
      obtain ⟨hfresh, -⟩ := hg.suffix hc
      exact hfresh _ (hle.subset List.mem_cons_self) rfl

/-- What was published when a load of this task began is no later than what the load gives. -/
theorem UpToDate.no_older {t : Nat} {task : Task} {start log : Log P} {key : ResourceKey} {r : Representation P}
    (h : UpToDate s t log key r) (hg : (outline s).Good log) (hc : (.called t task :: start) <:+ log) :
    Current s start log key r := by
  obtain ⟨began, previous, now, hb, -, hcurrent⟩ := h
  exact hcurrent.from_later (called_before_did hg hc hb)

/-- The result of a load comes from one document and is no older than any other
that was published when it began. -/
theorem Reached.load_gives {state : ResolverState P L} (h : Reached s state) {t : Nat} {key : ResourceKey}
    {r : Representation P} {older : Log P}
    (hl : (.returned t (.load key) (.representation (.ok r)) :: older) <:+ state.log) : Gives s t older key r := by
  obtain ⟨newer, hl⟩ := hl
  obtain ⟨start, -, -, hgives⟩ := h.holds.met.returned hl.symm
  exact hgives r rfl

theorem Reached.resolve_gives {state : ResolverState P L} (h : Reached s state) {t : Nat} {request : ResolveRequest}
    {response : ResolveResponse} {older : Log P}
    (hl : (.returned t (.resolve request) (.response (.ok response)) :: older) <:+ state.log) :
    RespondedBy s (fun key r => ∃ log, log <:+ older ∧ Gives s t log key r) request response := by
  obtain ⟨newer, hl⟩ := hl
  refine RespondedBy.imp (h.holds.met.returned hl.symm).1 ?_
  rintro key r ⟨start, log, ho, -, -, hgives⟩
  exact ⟨log, ho, hgives⟩

/-- Once a load has given what a refresh published, no load that begins
afterwards gives what an earlier one published; nor do the loads of a resolve
call. -/
theorem keys_rotate_forward {state : ResolverState P L} (h : Reached s state) :
    (∀ t key r older, (.returned t (.load key) (.representation (.ok r)) :: older) <:+ state.log →
      Gives s t older key r) ∧
    (∀ t request response older, (.returned t (.resolve request) (.response (.ok response)) :: older) <:+ state.log →
      RespondedBy s (fun key r => ∃ log, log <:+ older ∧ Gives s t log key r) request response) ∧
    ∀ key t₁ r₁ older₁ t₂ r₂ start₂ older₂,
      (.returned t₁ (.load key) (.representation (.ok r₁)) :: older₁) <:+ start₂ →
      (.called t₂ (.load key) :: start₂) <:+ older₂ →
      (.returned t₂ (.load key) (.representation (.ok r₂)) :: older₂) <:+ state.log →
      ∃ q₁ q₂, Publication s q₁ key r₁ ∧ q₁ <:+ older₁ ∧ Publication s q₂ key r₂ ∧ q₂ <:+ older₂ ∧
        q₁ <:+ q₂ ∧ ∀ q r, q <:+ older₁ → Publication s q key r → q <:+ q₂ := by
  refine ⟨fun _ _ _ _ hl => h.load_gives hl, fun _ _ _ _ hl => h.resolve_gives hl, ?_⟩
  intro key t₁ r₁ older₁ t₂ r₂ start₂ older₂ hfirst hstart hsecond
  have hrest : older₂ <:+ state.log := (List.suffix_cons _ older₂).trans hsecond
  have hbetween : start₂ <:+ older₂ := (List.suffix_cons _ start₂).trans hstart
  have hgood : (outline s).Good older₂ := h.holds.good.suffix hrest
  obtain ⟨q₁, hq₁, hp₁⟩ := (h.load_gives (hfirst.trans (hbetween.trans hrest))).upToDate.published
  obtain ⟨q₂, hq₂, hp₂, hlast⟩ := (h.load_gives hsecond).upToDate.no_older hgood hstart
  have hlast' : ∀ q r, q <:+ older₁ → Publication s q key r → q <:+ q₂ := by
    intro q r hq hp
    exact hlast q r (hq.trans ((List.suffix_cons _ older₁).trans hfirst)) hp
  exact ⟨q₁, q₂, hp₁, hq₁, hp₂, hq₂, hlast' q₁ r₁ hq₁ hp₁, hlast'⟩

/-- Two loads, a minute apart; the origin has a new policy by then. -/
def rotating : List SampleAction :=
  sampleLoad 1 4 1 (sampleResponse 200 "max-age=60") ++ [.env (.clock (fromSecs 61) (fromSecs 61))] ++
    sampleLoad 2 6 2 (sampleResponse 200 "max-age=30")

def rotatedRepresentation : Representation SamplePolicy where
  resource := .jwks []
  policy := ⟨(sampleResponse 200 "max-age=30").headers, fromSecs 61, fromSecs 30⟩
  storedAt := fromSecs 61
  freshFor := fromSecs 30
  staleIfError := none

theorem keys_rotate_forward_sample : ∃ older : Log SamplePolicy,
    Gives sampleService 2 older sampleKey rotatedRepresentation := by
  obtain ⟨state, older, hrun, hl⟩ := sampleRun_loaded (show
    (sampleRun rotating).bind (fun state => state.log.head?.bind loadedOf) =
      some (2, sampleKey, rotatedRepresentation) by decide +kernel)
  exact ⟨older, (keys_rotate_forward (sampleRun_reached hrun)).1 2 sampleKey _ older ⟨[], hl.symm⟩⟩

end EnvoyWebBotAuth.Resolver
