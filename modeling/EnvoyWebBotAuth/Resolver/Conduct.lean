import EnvoyWebBotAuth.Lib.Conduct
import EnvoyWebBotAuth.Resolver.Service
/-!
# What a task holds

The permits a task has, whether it leads a refresh or waits for one, and how
many calls it has left. A task takes the permit of a handler, loads at most two
documents one after the other, and gives the permit back. A load that leads its
key asks the circuit first. Only when that lets it pass may it take a permit of
`outbound`; with it, it looks up the host, has an address checked, fetches once
from there, publishes, and gives the permit back. It counts a success or a
failure once, and lands the outcome.
-/
open EnvoyWebBotAuth.Lib EnvoyWebBotAuth.Protocol

namespace EnvoyWebBotAuth.Resolver

variable {P L : Type}

inductive Stage where
  | idle
  /-- Waits in `get_with` for the leader of the key. -/
  | parked (key : ResourceKey)
  /-- Leads, cleared once the circuit has let it pass and until it has counted
  what came of it. -/
  | leads (key : ResourceKey) (cleared : Bool)
  /-- Leads, with a permit for one fetch, from the address that was checked. -/
  | begun (key : ResourceKey) (checked : Option IpAddr)
  /-- Leads, with a permit, and has fetched. -/
  | fetched (key : ResourceKey)

namespace Stage

/-- The key a thread refreshes. -/
def lead : Stage → Option ResourceKey
  | .leads key _ | .begun key _ | .fetched key => some key
  | .idle | .parked _ => none

/-- The thread has a permit of `outbound`. -/
def Permitted : Stage → Prop
  | .begun _ _ | .fetched _ => True
  | .idle | .parked _ | .leads _ _ => False

/-- The circuit of the key has let the thread pass. -/
def cleared : Stage → Option ResourceKey
  | .leads key true | .begun key _ | .fetched key => some key
  | .idle | .parked _ | .leads _ false => none

/-- An open circuit answers with an error of its class. After another error the
thread would count a failure. -/
def checkCircuit : Except FetchError Unit → Stage → Stage
  | .ok _, .leads key _ => .leads key true
  | .error error, .leads key _ => .leads key (error.class ≠ .circuitOpen)
  | _, stage => stage

/-- A success or a failure is counted. -/
def count : Stage → Stage
  | .leads key _ => .leads key false
  | stage => stage

def beginFetch : Stage → Stage
  | .leads key _ => .begun key none
  | stage => stage

def checkIp (ip : IpAddr) : Stage → Stage
  | .begun key _ => .begun key (some ip)
  | stage => stage

def fetch : Stage → Stage
  | .begun key _ => .fetched key
  | stage => stage

def dropPermit : Stage → Stage
  | .begun key _ | .fetched key => .leads key true
  | stage => stage

variable (stage : Stage) (answer : Except FetchError Unit)

/-- Asking the circuit and counting change no permit. -/
@[simp] theorem checkCircuit_permitted : (stage.checkCircuit answer).Permitted ↔ stage.Permitted := by
  cases answer <;> cases stage <;> exact .rfl

@[simp] theorem count_permitted : stage.count.Permitted ↔ stage.Permitted := by cases stage <;> exact .rfl

end Stage

structure Holding where
  /-- The thread has a permit of `handlers`. -/
  handler : Bool
  stage : Stage

namespace Holding

def may (x : Holding) (s : ResolverService P L) : Op P → Prop
  | .systemNow | .instantNow => ∀ key, x.stage ≠ .parked key
  | .acquireHandler => x = ⟨false, .idle⟩
  | .startTimeout | .endTimeout => x = ⟨true, .idle⟩
  | .representationsGet _ | .refreshesGet _ | .refreshesInvalidate _ | .getWith _ => x.stage = .idle
  | .awaitWith key => x.stage = .parked key
  | .checkCircuit key => x.stage = .leads key false
  | .success key | .failureBackoff key _ => x.stage = .leads key true
  | .circuitRemaining key | .initDone key _ => ∃ cleared, x.stage = .leads key cleared
  | .beginFetch origin => ∃ key, x.stage = .leads key true ∧ origin = s.crates.resource.url.originAscii key.url
  | .resolveHost _ _ | .checkIp _ => ∃ key, x.stage = .begun key none
  | .fetch request => x.stage = .begun ⟨request.url, request.kind⟩ (some request.selectedIp)
  | .representationsInsert key _ | .representationsInvalidate key => x.stage = .fetched key
  | .dropPermit => x.stage.Permitted

def move (x : Holding) : (o : Op P) → Ans o → Holding
  | .acquireHandler, .ok () => ⟨true, x.stage⟩
  | .endTimeout, _ => ⟨false, x.stage⟩
  | .getWith key, .lead => ⟨x.handler, .leads key false⟩
  | .getWith key, .wait => ⟨x.handler, .parked key⟩
  | .awaitWith key, none => ⟨x.handler, .leads key false⟩
  | .awaitWith _, some _ => ⟨x.handler, .idle⟩
  | .initDone _ _, _ => ⟨x.handler, .idle⟩
  | .checkCircuit _, answer => ⟨x.handler, x.stage.checkCircuit answer⟩
  | .success _, _ => ⟨x.handler, x.stage.count⟩
  | .failureBackoff _ _, _ => ⟨x.handler, x.stage.count⟩
  | .beginFetch _, .ok () => ⟨x.handler, x.stage.beginFetch⟩
  | .checkIp ip, .ok () => ⟨x.handler, x.stage.checkIp ip⟩
  | .fetch _, _ => ⟨x.handler, x.stage.fetch⟩
  | .dropPermit, _ => ⟨x.handler, x.stage.dropPermit⟩
  | _, _ => x

end Holding

def conduct (s : ResolverService P L) : Conduct (Op P) Ans Holding where
  start := ⟨false, .idle⟩
  may x := x.may s
  move := Holding.move
  done x := x = ⟨false, .idle⟩

/-- How many calls a load makes, and a task. -/
def loadCalls : Nat := 19

def Task.calls : Task → Nat
  | .resolve _ => 3 + 2 * loadCalls
  | .load _ => loadCalls

/-! ## The programs keep to it -/

section Programs

variable {s : ResolverService P L} {h : Bool} {key : ResourceKey} {previous : Option (Representation P)}

/-- A thread that leads, with a permit or with its fetch done. -/
def WithPermit (h : Bool) (key : ResourceKey) (x : Holding) : Prop :=
  (∃ checked, x = ⟨h, .begun key checked⟩) ∨ x = ⟨h, .fetched key⟩

/-- A thread that leads. -/
def Leading (h : Bool) (key : ResourceKey) (x : Holding) : Prop := ∃ cleared, x = ⟨h, .leads key cleared⟩

/-- A thread with this result leads, cleared unless the circuit was open. -/
def Attempted (h : Bool) (key : ResourceKey) (result : Except FetchError (Representation P)) (x : Holding) : Prop :=
  ∃ cleared, x = ⟨h, .leads key cleared⟩ ∧
    (cleared = false → ∃ error, result = .error error ∧ error.class = .circuitOpen)

theorem spends_publish (r : Representation P) :
    (conduct s).Spends (publish s key r).run ⟨h, .fetched key⟩ (fun _ y => y = ⟨h, .fetched key⟩) 1 := by
  unfold publish
  split
  · exact .op rfl (fun _ => .ret _ 0 rfl)
  · exact .op rfl (fun _ => .ret _ 0 rfl)

theorem spends_settleFetch (request : Request) (response : Except FetchError FetchResponse) :
    (conduct s).Spends (settleFetch s key request previous response).run ⟨h, .fetched key⟩
      (fun _ y => y = ⟨h, .fetched key⟩) 2 := by
  simp only [settleFetch, Prog.run_bind, Prog.run_check, Prog.run_ask, Prog.run_pure, Prog.ret_bind, Prog.op_bind,
    Prog.orReturn_ok]
  refine .orReturn (fun _ _ => rfl) (fun response => .op nofun (fun now => .orReturn (fun _ _ => rfl) (fun r => ?_)))
  refine (spends_publish r).bind (j := 0) ?_
  rintro stored _ rfl
  exact .orReturn (fun _ _ => rfl) (fun _ => .ret _ 0 rfl)

theorem spends_refreshPermitted (host : String) (port : UInt16) :
    (conduct s).Spends (refreshPermitted s key previous host port).run ⟨h, .begun key none⟩
      (fun _ => WithPermit h key) 6 := by
  simp only [refreshPermitted, Prog.run_bind, Prog.run_check, Prog.run_ask, Prog.ret_bind, Prog.op_bind,
    Prog.call_bind, ExceptT.run_mk]
  have hbegun : ∀ e, WithPermit h key ⟨h, .begun key e⟩ := fun e => .inl ⟨e, rfl⟩
  refine .op ⟨key, rfl⟩ (fun addresses => .orReturn (fun _ _ => hbegun none) (fun addresses => ?_))
  refine .orReturn (fun _ _ => hbegun none) (fun addresses => .op ⟨key, rfl⟩ (fun allowed => ?_))
  cases allowed with
  | error error => exact .ret _ _ (hbegun none)
  | ok u =>
    generalize addresses.val.head addresses.property = ip
    have hchecked := hbegun (some ip)
    refine .orReturn (fun _ _ => hchecked) (fun _ => .orReturn (fun _ _ => hchecked) (fun request => ?_))
    -- the headers take a reading of the clock if there is a previous representation
    have hheaders : (conduct s).Spends (requestHeaders s request previous).run ⟨h, .begun key (some ip)⟩
        (fun _ y => y = ⟨h, .begun key (some ip)⟩) 1 := by
      cases previous with
      | none => exact .ret _ 1 rfl
      | some old =>
        simp only [requestHeaders, Prog.run_bind, Prog.run_ask, Prog.op_bind, Prog.ret_bind, Prog.orReturn_ok]
        refine .op nofun (fun now => ?_)
        split <;> exact .ret _ 0 rfl
    refine hheaders.bind (j := 3) ?_
    rintro headers _ rfl
    refine .orReturn (fun _ _ => hchecked) (fun headers => .op rfl (fun response => ?_))
    exact (spends_settleFetch request response).mono (fun _ _ hy => .inr hy)

theorem spends_refreshInner :
    (conduct s).Spends (refreshInner s key previous).run ⟨h, .leads key false⟩ (Attempted h key) 9 := by
  simp only [refreshInner, Prog.run_bind, Prog.run_check, Prog.ret_bind, Prog.call_bind, ExceptT.run_mk]
  refine .op rfl (fun closed => ?_)
  cases closed with
  | error error => exact .ret _ _ ⟨_, rfl, fun hopen => ⟨error, rfl, by simpa using hopen⟩⟩
  | ok u =>
    have hcleared : ∀ result : Except FetchError (Representation P), Attempted h key result ⟨h, .leads key true⟩ :=
      fun _ => ⟨true, rfl, nofun⟩
    refine .orReturn (fun _ _ => hcleared _) (fun _ => .orReturn (fun _ _ => hcleared _) (fun _ => ?_))
    refine .orReturn (fun _ _ => hcleared _) (fun host => .orReturn (fun _ _ => hcleared _) (fun port => ?_))
    refine .op ⟨key, rfl, rfl⟩ (fun permit => ?_)
    cases permit with
    | error error => exact .ret _ 7 (hcleared _)
    | ok u =>
      refine (spends_refreshPermitted host port).bind (j := 1) ?_
      rintro result x (⟨checked, rfl⟩ | rfl)
      · exact .op trivial (fun _ => .ret _ 0 (hcleared _))
      · exact .op trivial (fun _ => .ret _ 0 (hcleared _))

theorem spends_refreshOutcome {result : Except FetchError (Representation P)} {x : Holding}
    (hx : Attempted h key result x) :
    (conduct s).Spends (refreshOutcome s key result) x (fun _ => Leading h key) 2 := by
  have hvalid : (conduct s).Spends (validFor s key result) x (fun _ => Leading h key) 1 := by
    obtain ⟨cleared, rfl, hopen⟩ := hx
    unfold validFor
    cases cleared with
    | false =>
      obtain ⟨error, rfl, hc⟩ := hopen rfl
      simp only [hc]
      exact .op ⟨false, rfl⟩ (fun _ => .ret _ 0 ⟨false, rfl⟩)
    | true =>
      cases result with
      | ok r => exact .op rfl (fun _ => .ret _ 0 ⟨false, rfl⟩)
      | error error =>
        cases hc : error.class with
        | transient =>
          simp only [hc]
          exact .op rfl (fun _ => .ret _ 0 ⟨false, rfl⟩)
        | circuitOpen =>
          simp only [hc]
          exact .op ⟨true, rfl⟩ (fun _ => .ret _ 0 ⟨true, rfl⟩)
        | permanent =>
          simp only [hc]
          exact .ret _ 1 ⟨true, rfl⟩
        | loadShed =>
          simp only [hc]
          exact .ret _ 1 ⟨true, rfl⟩
  refine hvalid.bind (j := 1) ?_
  rintro valid _ ⟨cleared, rfl⟩
  exact .op nofun (fun now => .ret _ 0 ⟨cleared, rfl⟩)

theorem spends_leadWith :
    (conduct s).Spends (leadWith key (refresh s key previous)) ⟨h, .leads key false⟩ (fun _ y => y = ⟨h, .idle⟩) 12 := by
  have hrefresh : (conduct s).Spends (refresh s key previous) ⟨h, .leads key false⟩ (fun _ => Leading h key) 11 := by
    refine spends_refreshInner.bind (j := 2) ?_
    intro result x hx
    exact spends_refreshOutcome hx
  refine hrefresh.bind (j := 1) ?_
  rintro outcome _ ⟨cleared, rfl⟩
  exact .op ⟨cleared, rfl⟩ (fun _ => .ret _ 0 rfl)

theorem spends_coalesced (now : SystemTime) :
    (conduct s).Spends (coalesced s key previous now) ⟨h, .idle⟩ (fun _ y => y = ⟨h, .idle⟩) 14 := by
  have hget : (conduct s).Spends (getWith key (refresh s key previous)) ⟨h, .idle⟩ (fun _ y => y = ⟨h, .idle⟩) 14 := by
    refine .op rfl (fun reply => ?_)
    cases reply with
    | value outcome => exact .ret _ 13 rfl
    | lead => exact spends_leadWith.more (by decide)
    | wait =>
      refine .op rfl (fun served => ?_)
      cases served with
      | some outcome => exact .ret _ 12 rfl
      | none => exact spends_leadWith
  refine hget.bind (j := 0) ?_
  rintro outcome _ rfl
  exact .ret _ 0 rfl

/-- A load takes a thread from idle back to idle. -/
theorem spends_load : (conduct s).Spends (load s key).run ⟨h, .idle⟩ (fun _ y => y = ⟨h, .idle⟩) loadCalls := by
  simp only [load, Prog.run_bind, Prog.run_check, Prog.run_ask, Prog.ret_bind, Prog.op_bind, Prog.orReturn_ok]
  refine Conduct.Spends.orReturn (fun _ _ => rfl) (i := 19) (fun request => .op nofun (fun now => .op rfl (fun previous => ?_)))
  split
  · exact .ret _ 17 rfl
  · refine .op rfl (fun outcome => ?_)
    cases outcome with
    | none => exact (spends_coalesced now).more (by decide)
    | some outcome =>
      refine .op nofun (fun instant => ?_)
      show (conduct s).Spends (if instant < outcome.validUntil then _ else _) _ _ _
      split
      · exact .ret _ 15 rfl
      · exact .op rfl (fun _ => spends_coalesced now)

theorem spends_loadKeys (discovery : DiscoveryMechanism) (url : Url) :
    (conduct s).Spends (loadKeys s discovery url).run ⟨h, .idle⟩ (fun _ y => y = ⟨h, .idle⟩) (2 * loadCalls) := by
  have hjwks : ∀ url, (conduct s).Spends (do let jwks ← load s ⟨url, .jwks⟩; check (jwksOf jwks)).run ⟨h, .idle⟩
      (fun _ y => y = ⟨h, .idle⟩) loadCalls := by
    intro url
    simp only [Prog.run_bind, Prog.run_check]
    refine spends_load.bind (j := 0) ?_
    rintro jwks _ rfl
    exact .orReturn (fun _ _ => rfl) (fun _ => .ret _ 0 rfl)
  unfold loadKeys
  cases discovery with
  | directory => exact (hjwks url).more (by decide)
  | jwksUri => exact (hjwks url).more (by decide)
  | cimd =>
    simp only [Prog.run_bind, Prog.run_check, Prog.ret_bind]
    refine spends_load.bind (j := loadCalls) ?_
    rintro metadata _ rfl
    refine .orReturn (fun _ _ => rfl) (fun metadata => .orReturn (fun _ _ => rfl) (fun cimd => ?_))
    unfold cimdKeys
    split
    · exact .ret _ _ rfl
    · simp only [Prog.run_bind, Prog.run_check, Prog.ret_bind]
      refine .orReturn (fun _ _ => rfl) (fun second => ?_)
      have hsecond := hjwks second
      simp only [Prog.run_bind, Prog.run_check] at hsecond
      exact hsecond

theorem spends_task (task : Task) :
    (conduct s).Spends (Task.body s task) ⟨false, .idle⟩ (fun _ y => y = ⟨false, .idle⟩) task.calls := by
  cases task with
  | load key =>
    refine spends_load.bind (j := 0) ?_
    rintro result _ rfl
    exact .ret _ 0 rfl
  | resolve request =>
    simp only [Task.body, Resolver.resolve, resolveInner, Prog.run_bind, Prog.run_check, Prog.call_bind,
      Prog.op_bind, Prog.ret_bind, ExceptT.run_mk]
    refine .op rfl (fun admitted => ?_)
    cases admitted with
    | error error => exact .ret _ _ rfl
    | ok u =>
      simp only [Prog.orReturn_ok, Prog.op_bind, Prog.bind_assoc]
      refine .op rfl (fun _ => ?_)
      -- the document or documents, then the end of the timeout
      have hkeys : (conduct s).Spends (Prog.orReturn (validateRequest s.crates.resource.url request) fun target => ExceptT.run
          (if (!s.allowTestKeys && knownTestKey request.keyId) = true then
            (pure (.keyNotFound target.normalizedIdentifier) : Fallible P ResolveResponse)
          else do
            let keys ← loadKeys s request.discovery target.fetchUrl
            pure (respond s request target keys))) ⟨true, .idle⟩ (fun _ y => y = ⟨true, .idle⟩) (2 * loadCalls) := by
        refine .orReturn (fun _ _ => rfl) (fun target => ?_)
        split
        · exact .ret _ _ rfl
        · simp only [Prog.run_bind]
          refine (spends_loadKeys _ _).bind (j := 0) ?_
          rintro keys _ rfl
          exact .orReturn (fun _ _ => rfl) (fun _ => .ret _ 0 rfl)
      refine hkeys.bind (j := 1) ?_
      rintro result _ rfl
      exact .op rfl (fun _ => .ret _ 0 rfl)

/-- Every task keeps to the conduct. -/
theorem follows (s : ResolverService P L) : (conduct s).Follows s.system Task.calls := by
  intro task
  apply spends_task task task.calls _ (Nat.le_refl _)
  rintro a x m rfl -
  rfl

end Programs

end EnvoyWebBotAuth.Resolver
