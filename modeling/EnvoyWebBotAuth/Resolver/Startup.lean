import EnvoyWebBotAuth.Resolver.Destination
/-!
# From the command line to a connection

How a resolver is set up from its arguments and its environment (`main.rs`), and
the client its fetcher builds for each fetch (`fetch.rs`). In direct mode every
connection of every run goes to the address that was checked for the fetch, in
proxy mode to the one proxy (`connections_are_checked`).

Trusted: of `reqwest`, which peers a client connects to (`Reqwest.Lawful`); of the
DNS lookup, that an address is looked up as itself (`LooksUpLiterals`).
-/
open EnvoyWebBotAuth.Lib EnvoyWebBotAuth.Protocol

namespace EnvoyWebBotAuth.Resolver

variable {P L Proxy : Type}

/-! ## Clients -/

structure SocketAddr where
  ip : IpAddr
  port : UInt16
  deriving DecidableEq

/-- A `reqwest::Client`, in what the fetcher sets. -/
structure Client (Proxy : Type) where
  systemProxy : Bool
  followsRedirects : Bool
  timeout : Duration
  resolve : Option (String × SocketAddr)
  proxy : Option Proxy

/-- The other end of a connection. -/
inductive Peer (Proxy : Type) where
  | address (address : SocketAddr)
  | proxy (proxy : Proxy)

/-- `reqwest`, which is outside: what it makes of a client, and of the host of a URL. -/
structure Reqwest (Proxy : Type) where
  /-- `Proxy::all` -/
  parseProxy : String → Option Proxy
  /-- `build` succeeds. -/
  builds : Client Proxy → Bool
  /-- The address a host is, if it is no domain. -/
  literal : String → Option IpAddr
  connects : Client Proxy → Url → List (Peer Proxy)

/-- A client that follows no redirects connects to its proxy; with no proxy at
all, to the address its host is or is to be resolved to. -/
structure Reqwest.Lawful (reqwest : Reqwest Proxy) (c : UrlCrate) : Prop where
  proxied : ∀ client url proxy, client.followsRedirects = false → client.proxy = some proxy →
    ∀ peer ∈ reqwest.connects client url, peer = .proxy proxy
  resolved : ∀ client url host address, client.followsRedirects = false → client.systemProxy = false →
    client.proxy = none → client.resolve = some (host, address) → url.host = some host → reqwest.literal host = none →
    c.portOrKnownDefault url = some address.port → ∀ peer ∈ reqwest.connects client url, peer = .address address
  literal : ∀ client url host ip port, client.followsRedirects = false → client.systemProxy = false →
    client.proxy = none → url.host = some host → reqwest.literal host = some ip →
    c.portOrKnownDefault url = some port → ∀ peer ∈ reqwest.connects client url, peer = .address ⟨ip, port⟩

inductive EgressMode where
  | direct
  | proxy
  deriving DecidableEq

structure ReqwestFetcher (Proxy : Type) where
  mode : EgressMode
  proxy : Option Proxy
  timeout : Duration

variable (reqwest : Reqwest Proxy) (c : UrlCrate)

namespace ReqwestFetcher

/-- `ReqwestFetcher::direct` -/
def ofDirect (timeout : Duration) : ReqwestFetcher Proxy := ⟨.direct, none, timeout⟩

/-- `ReqwestFetcher::proxy` -/
def ofProxy (proxyUrl : String) (timeout : Duration) : Except String (ReqwestFetcher Proxy) := do
  let proxy ← okOr "invalid HTTPS_PROXY" (reqwest.parseProxy proxyUrl)
  .ok ⟨.proxy, some proxy, timeout⟩

def client (fetcher : ReqwestFetcher Proxy) (request : FetchRequest) : Except FetchError (Client Proxy) := do
  let builder : Client Proxy :=
    { systemProxy := false, followsRedirects := false, timeout := fetcher.timeout, resolve := none, proxy := none }
  let builder ← match fetcher.mode with
    | .direct => do
      let host ← okOr (.new .transport) request.url.host
      let port ← okOr (.new .transport) (c.portOrKnownDefault request.url)
      .ok { builder with resolve := some (host, ⟨request.selectedIp, port⟩) }
    | .proxy => do
      let proxy ← okOr (.new .transport) fetcher.proxy
      .ok { builder with proxy := some proxy }
  ensure (reqwest.builds builder = true) (.new .transport)
  .ok builder

end ReqwestFetcher

/-! ## The environment -/

/-- `OsString` on Unix -/
abbrev OsString := Bytes

def OsString.toStr (value : OsString) : Option String := String.fromUTF8? ⟨value.toArray⟩

structure ProxyEnvironment where
  httpsProxy : Option OsString := none
  httpsProxyLower : Option OsString := none
  httpProxy : Option OsString := none
  httpProxyLower : Option OsString := none
  allProxy : Option OsString := none
  allProxyLower : Option OsString := none

namespace ProxyEnvironment

def hasAny (environment : ProxyEnvironment) : Bool :=
  environment.httpsProxy.isSome || environment.httpsProxyLower.isSome || environment.httpProxy.isSome ||
    environment.httpProxyLower.isSome || environment.allProxy.isSome || environment.allProxyLower.isSome

def hasNonHttpsProxy (environment : ProxyEnvironment) : Bool :=
  environment.httpProxy.isSome || environment.httpProxyLower.isSome || environment.allProxy.isSome ||
    environment.allProxyLower.isSome

end ProxyEnvironment

inductive EgressArg where
  | direct
  | proxy
  deriving DecidableEq

def productionFetcher (mode : EgressArg) (environment : ProxyEnvironment) (timeout : Duration) :
    Except String (EgressMode × ReqwestFetcher Proxy) :=
  match mode with
  | .direct => do
    ensure (environment.hasAny = false) "direct_mode_proxy_conflict"
    .ok (.direct, .ofDirect timeout)
  | .proxy => do
    ensure (environment.hasNonHttpsProxy = false) "proxy_mode_variable_conflict"
    let proxy ← okOr "proxy_mode_requires_https_proxy"
      ((environment.httpsProxy.bind OsString.toStr).filter (fun value => value ≠ ""))
    ensure (environment.httpsProxyLower.all (fun lower => lower = proxy.toUTF8.toList)) "proxy_mode_variable_conflict"
    let fetcher ← ReqwestFetcher.ofProxy reqwest proxy timeout
    .ok (.proxy, fetcher)

/-! ## The listener -/

inductive ListenAddress where
  | tcp (address : SocketAddr)
  | unix (path : String)
  deriving DecidableEq

/-- `value.strip_prefix` -/
def stripPrefix (start value : String) : Option String :=
  (start.toList.isPrefixOf? value.toList).map String.ofList

/-- `parse` of a `SocketAddr` is the standard library's. -/
def ListenAddress.parse (parseSocketAddr : String → Option SocketAddr) (value : String) : Except String ListenAddress :=
  match stripPrefix "tcp://" value with
  | some address => do
    let address ← okOr "invalid_tcp_listen" (parseSocketAddr address)
    .ok (.tcp address)
  | none =>
    match stripPrefix "unix://" value with
    | some path => do
      ensure (path.toList.head? = some '/' ∧ path.utf8ByteSize ≤ 100) "invalid_unix_listen"
      .ok (.unix path)
    | none => .error "invalid_listen_scheme"

/-! ## Starting -/

structure ServeArgs where
  listen : String := "tcp://127.0.0.1:8081"
  egressMode : EgressArg := .direct
  allowedPort : List UInt16 := [443]
  allowTestKeys : Bool := false
  inboundBodyBytes : Nat := 8 * 1024
  activeHandlers : Nat := 64
  outboundFetches : Nat := 32
  globalFetchRate : Nat := 16
  globalFetchBurst : Nat := 32
  originFetchRate : Nat := 2
  originFetchBurst : Nat := 4
  ipFetchRate : Nat := 8
  ipFetchBurst : Nat := 16
  newOriginsPerMinute : Nat := 256
  stateEntries : Nat := 1024
  maxKeys : Nat := 32
  resolutionTimeoutMs : Nat := 1800

def ServeArgs.limits (args : ServeArgs) : Limits where
  inboundBodyBytes := args.inboundBodyBytes
  activeHandlers := args.activeHandlers
  outboundFetches := args.outboundFetches
  globalFetchRate := args.globalFetchRate
  globalFetchBurst := args.globalFetchBurst
  originFetchRate := args.originFetchRate
  originFetchBurst := args.originFetchBurst
  ipFetchRate := args.ipFetchRate
  ipFetchBurst := args.ipFetchBurst
  newOriginsPerMinute := args.newOriginsPerMinute
  stateEntries := args.stateEntries
  maxKeys := args.maxKeys
  resolutionTimeout := fromMillis args.resolutionTimeoutMs

/-- The defaults of the command line are the defaults of the limits. -/
example : ({} : ServeArgs).limits = Limits.standard := rfl

/-- `ResolverService::new` -/
def ResolverService.new (crates : CacheCrates P) (governor : Governor L) (destinationPolicy : DestinationPolicy)
    (limits : Limits) (allowTestKeys : Bool) : Except String (ResolverService P L) :=
  match h : limits.validate with
  | .ok () => .ok { crates, governor, destinationPolicy, limits, allowTestKeys, valid := h }
  | .error error => .error error

/-- A resolver that is about to listen. -/
structure Started (P L Proxy : Type) where
  mode : EgressMode
  fetcher : ReqwestFetcher Proxy
  resolver : ResolverService P L
  listen : ListenAddress

variable (parseSocketAddr : String → Option SocketAddr) (crates : CacheCrates P) (governor : Governor L)

def serve (args : ServeArgs) (environment : ProxyEnvironment) : Except String (Started P L Proxy) := do
  let limits := args.limits
  limits.validate
  let destinationPolicy ← DestinationPolicy.new (443 :: args.allowedPort)
  let (mode, fetcher) ← productionFetcher reqwest args.egressMode environment limits.resolutionTimeout
  let resolver ← ResolverService.new crates governor destinationPolicy limits args.allowTestKeys
  let listen ← ListenAddress.parse parseSocketAddr args.listen
  .ok ⟨mode, fetcher, resolver, listen⟩

/-! ## What was started -/

section Serve

variable {reqwest : Reqwest Proxy} {c : UrlCrate} {parseSocketAddr : String → Option SocketAddr} {crates : CacheCrates P}
  {governor : Governor L} {args : ServeArgs} {environment : ProxyEnvironment} {started : Started P L Proxy}

/-- The fetcher is of the mode that was asked for, and the environment does not
say otherwise. -/
def Configured (reqwest : Reqwest Proxy) (args : ServeArgs) (environment : ProxyEnvironment)
    (fetcher : ReqwestFetcher Proxy) : Prop :=
  fetcher.timeout = args.limits.resolutionTimeout ∧
    match args.egressMode with
    | .direct => fetcher.mode = .direct ∧ environment.hasAny = false
    | .proxy => fetcher.mode = .proxy ∧ environment.hasNonHttpsProxy = false ∧ ∃ value, value ≠ "" ∧
        environment.httpsProxy.bind OsString.toStr = some value ∧
        (∀ lower, environment.httpsProxyLower = some lower → lower = value.toUTF8.toList) ∧
        ∃ proxy, reqwest.parseProxy value = some proxy ∧ fetcher.proxy = some proxy

theorem productionFetcher_ok {timeout : Duration} {mode : EgressMode} {fetcher : ReqwestFetcher Proxy}
    (h : productionFetcher reqwest args.egressMode environment timeout = .ok (mode, fetcher))
    (ht : timeout = args.limits.resolutionTimeout) : Configured reqwest args environment fetcher := by
  unfold productionFetcher at h
  unfold Configured
  cases hm : args.egressMode with
  | direct =>
    simp only [hm, bind_ok, ensure_ok] at h ⊢
    obtain ⟨-, hany, h⟩ := h
    cases h
    exact ⟨ht, rfl, hany⟩
  | proxy =>
    simp only [hm, bind_ok, ensure_ok, okOr_ok, Option.filter_eq_some_iff, ReqwestFetcher.ofProxy] at h ⊢
    obtain ⟨-, hother, value, ⟨hvalue, hne⟩, -, hlower, fetcher', ⟨proxy, hproxy, hf⟩, h⟩ := h
    cases hf
    cases h
    refine ⟨ht, rfl, hother, value, of_decide_eq_true hne, hvalue, fun lower hl => ?_, proxy, hproxy, rfl⟩
    rw [hl] at hlower
    exact of_decide_eq_true hlower

theorem DestinationPolicy.new_ok {ports : List UInt16} {policy : DestinationPolicy}
    (h : DestinationPolicy.new ports = .ok policy) : policy.allowedPorts = ports.toFinset := by
  unfold DestinationPolicy.new at h
  split at h
  · cases h
  · split at h
    · cases h
    · obtain rfl := Except.ok.inj h
      rfl

theorem ResolverService.new_ok {policy : DestinationPolicy} {limits : Limits} {allowTestKeys : Bool}
    {s : ResolverService P L} (h : ResolverService.new crates governor policy limits allowTestKeys = .ok s) :
    s.crates = crates ∧ s.governor = governor ∧ s.destinationPolicy = policy ∧ s.limits = limits ∧
      s.allowTestKeys = allowTestKeys := by
  unfold ResolverService.new at h
  split at h
  · obtain rfl := Except.ok.inj h
    exact ⟨rfl, rfl, rfl, rfl, rfl⟩
  · cases h

/-- A resolver that starts has what the arguments say. -/
theorem serve_ok (h : serve reqwest parseSocketAddr crates governor args environment = .ok started) :
    started.resolver.crates = crates ∧ started.resolver.limits = args.limits ∧
      started.resolver.allowTestKeys = args.allowTestKeys ∧
      (∀ port, port ∈ started.resolver.destinationPolicy.allowedPorts ↔ port = 443 ∨ port ∈ args.allowedPort) ∧
      Configured reqwest args environment started.fetcher := by
  simp only [serve, bind_ok] at h
  obtain ⟨-, -, policy, hpolicy, ⟨mode, fetcher⟩, hfetcher, resolver, hresolver, listen, -, h⟩ := h
  cases h
  obtain ⟨hcrates, -, hp, hl, htest⟩ := ResolverService.new_ok hresolver
  refine ⟨hcrates, hl, htest, fun port => ?_, productionFetcher_ok hfetcher rfl⟩
  rw [hp, DestinationPolicy.new_ok hpolicy, List.mem_toFinset, List.mem_cons]

theorem Limits.validate_timeout {limits : Limits} (h : limits.validate = .ok ()) :
    limits.resolutionTimeout ≤ resolutionDeadline := by
  simp only [Limits.validate, bind_ok, ensure_ok] at h
  obtain ⟨-, -, -, -, -, -, -, -, -, -, -, -, -, -, -, -, -, -, -, -, -, htimeout⟩ := h
  exact htimeout

end Serve

/-! ## What a client connects to -/

section Client

variable {reqwest : Reqwest Proxy} {c : UrlCrate} {fetcher : ReqwestFetcher Proxy} {request : FetchRequest}

/-- The client of a fetch in direct mode. -/
def pinnedClient (timeout : Duration) (host : String) (address : SocketAddr) : Client Proxy where
  systemProxy := false
  followsRedirects := false
  timeout := timeout
  resolve := some (host, address)
  proxy := none

/-- The client of every fetch in proxy mode. -/
def proxiedClient (timeout : Duration) (proxy : Proxy) : Client Proxy where
  systemProxy := false
  followsRedirects := false
  timeout := timeout
  resolve := none
  proxy := some proxy

theorem client_direct {host : String} {port : UInt16} (hm : fetcher.mode = .direct) (hhost : request.url.host = some host)
    (hport : c.portOrKnownDefault request.url = some port) :
    fetcher.client reqwest c request =
      (ensure (reqwest.builds (pinnedClient fetcher.timeout host ⟨request.selectedIp, port⟩) = true) (.new .transport) >>=
        fun _ => .ok (pinnedClient fetcher.timeout host ⟨request.selectedIp, port⟩)) := by
  simp only [ReqwestFetcher.client, hm, hhost, hport, okOr, ok_bind]
  rfl

theorem client_proxy {proxy : Proxy} (hm : fetcher.mode = .proxy) (hp : fetcher.proxy = some proxy) :
    fetcher.client reqwest c request =
      (ensure (reqwest.builds (proxiedClient fetcher.timeout proxy) = true) (.new .transport) >>=
        fun _ => .ok (proxiedClient fetcher.timeout proxy)) := by
  simp only [ReqwestFetcher.client, hm, hp, okOr, ok_bind]
  rfl

/-- A client connects to the address it is pinned to, if that is also what its
host is when it is an address. -/
theorem Reqwest.Lawful.pinned (hr : reqwest.Lawful c) {url : Url} {timeout : Duration} {host : String} {ip : IpAddr}
    {port : UInt16} (hhost : url.host = some host) (hport : c.portOrKnownDefault url = some port)
    (hliteral : ∀ literal, reqwest.literal host = some literal → literal = ip) :
    ∀ peer ∈ reqwest.connects (pinnedClient timeout host ⟨ip, port⟩) url, peer = .address ⟨ip, port⟩ := by
  cases hl : reqwest.literal host with
  | none => exact hr.resolved _ url host ⟨ip, port⟩ rfl rfl rfl rfl hhost hl hport
  | some literal =>
    obtain rfl := hliteral literal hl
    exact hr.literal _ url host literal port rfl rfl rfl hhost hl hport

end Client

/-- A host that is an address is looked up as that address. -/
def LooksUpLiterals (reqwest : Reqwest Proxy) (log : Log P) : Prop :=
  ∀ t host port addresses ip, .did t (.resolveHost host port) (.ok addresses) ∈ log → reqwest.literal host = some ip →
    ∀ address ∈ addresses, address = ip

/-- The address a fetch was checked for. -/
structure CheckedAddress (c : UrlCrate) (args : ServeArgs) (fetch : FetchRequest) (address : SocketAddr) : Prop where
  ip : address.ip = fetch.selectedIp
  reachable : globallyReachable address.ip = true
  port : c.portOrKnownDefault fetch.url = some address.port
  allowed : address.port = 443 ∨ address.port ∈ args.allowedPort

/-- Where the connections of a client of a started resolver go. -/
def Egress (reqwest : Reqwest Proxy) (c : UrlCrate) (args : ServeArgs) (environment : ProxyEnvironment)
    (fetch : FetchRequest) (client : Client Proxy) : Prop :=
  match args.egressMode with
  | .direct => environment.hasAny = false ∧
      ∃ address, CheckedAddress c args fetch address ∧ ∀ peer ∈ reqwest.connects client fetch.url, peer = .address address
  | .proxy => environment.hasNonHttpsProxy = false ∧ ∃ value proxy,
      environment.httpsProxy.bind OsString.toStr = some value ∧ reqwest.parseProxy value = some proxy ∧
      ∀ peer ∈ reqwest.connects client fetch.url, peer = .proxy proxy

/-- However a resolver is started, the client of a fetch of a run has no more time
than the resolution, and connects to the address that was checked for the fetch
or to the one proxy. Only `build` can keep a fetch from its client. -/
theorem connections_are_checked {reqwest : Reqwest Proxy} {parseSocketAddr : String → Option SocketAddr}
    {crates : CacheCrates P} {governor : Governor L} {args : ServeArgs} {environment : ProxyEnvironment}
    {started : Started P L Proxy} (hr : reqwest.Lawful crates.resource.url)
    (hserve : serve reqwest parseSocketAddr crates governor args environment = .ok started)
    {state : ResolverState P L} (h : Reached started.resolver state) (hl : LooksUpLiterals reqwest state.log) :
    ∀ t fetch answer, .did t (.fetch fetch) answer ∈ state.log →
      (∀ client, started.fetcher.client reqwest crates.resource.url fetch = .ok client →
        client.timeout = args.limits.resolutionTimeout ∧ client.timeout ≤ resolutionDeadline ∧
        Egress reqwest crates.resource.url args environment fetch client) ∧
      (∀ error, started.fetcher.client reqwest crates.resource.url fetch = .error error →
        ∃ client, reqwest.builds client = false) := by
  intro t fetch answer hm
  obtain ⟨hcrates, hlimits, -, hports, htime, hmode⟩ := serve_ok hserve
  have hdeadline : args.limits.resolutionTimeout ≤ resolutionDeadline :=
    hlimits ▸ Limits.validate_timeout started.resolver.valid
  obtain ⟨newer, older, hlog⟩ := List.append_of_mem hm
  obtain ⟨⟨k, key, request, previous, now, hfetching⟩, -, -⟩ := h.holds.good.did hlog
  obtain ⟨hsafe, asked, before, host, port, addresses, origin, hown, -, hhost, hport, hmem, hglobal⟩ := hfetching.checked
  rw [hcrates] at hsafe hport
  -- the fetcher builds one client, and what is left is `build`
  suffices ∃ client, started.fetcher.client reqwest crates.resource.url fetch =
      (ensure (reqwest.builds client = true) (.new .transport) >>= fun _ => .ok client) ∧
      client.timeout = args.limits.resolutionTimeout ∧ Egress reqwest crates.resource.url args environment fetch client by
    obtain ⟨client, he, hclient, hegress⟩ := this
    rw [he]
    refine ⟨fun built hbuilt => ?_, fun error herror => ⟨client, ?_⟩⟩
    · obtain ⟨-, hbuilt⟩ := ensure_bind_ok.1 hbuilt
      obtain rfl := Except.ok.inj hbuilt
      exact ⟨hclient, hclient ▸ hdeadline, hegress⟩
    · by_contra hbuilds
      rw [ensure, if_pos (Bool.eq_true_of_not_eq_false hbuilds)] at herror
      cases herror
  unfold Egress
  cases ha : args.egressMode with
  | direct =>
    simp only [ha] at hmode
    obtain ⟨hdirect, hany⟩ := hmode
    have hchecked : CheckedAddress crates.resource.url args fetch ⟨fetch.selectedIp, port⟩ := by
      refine ⟨rfl, hglobal _ hmem, hport, ?_⟩
      obtain ⟨allowed, hallowed, hport'⟩ := hsafe.port
      obtain rfl := Option.some.inj (hport.symm.trans hport')
      exact (hports port).1 hallowed
    have hliteral : ∀ literal, reqwest.literal host = some literal → literal = fetch.selectedIp := by
      intro literal hlit
      have hlooked : .did t (.resolveHost host port) (.ok addresses) ∈ older := by
        refine mem_of_mem_own ?_
        rw [hown]
        simp
      have hlooked' : .did t (.resolveHost host port) (.ok addresses) ∈ state.log := by
        rw [hlog]
        exact List.mem_append_right _ (List.mem_cons_of_mem _ hlooked)
      exact (hl t host port addresses literal hlooked' hlit _ hmem).symm
    exact ⟨_, client_direct hdirect hhost hport, htime, hany, _, hchecked, hr.pinned hhost hport hliteral⟩
  | proxy =>
    simp only [ha] at hmode
    obtain ⟨hproxied, hother, value, -, hvalue, -, proxy, hparse, hproxy⟩ := hmode
    exact ⟨_, client_proxy hproxied hproxy, htime, hother, value, proxy, hvalue, hparse,
      hr.proxied _ fetch.url proxy rfl rfl⟩

/-! ## A sample start -/

/-- A client that connects once, to what it is told to. -/
def sampleReqwest : Reqwest String where
  parseProxy value := some value
  builds _ := true
  literal _ := none
  connects client _ :=
    match client.proxy, client.resolve with
    | some proxy, _ => [.proxy proxy]
    | none, some (_, address) => [.address address]
    | none, none => []

theorem sampleReqwest_lawful : sampleReqwest.Lawful sampleUrls where
  proxied client url proxy _ hproxy peer hpeer := by
    simp only [sampleReqwest, hproxy, List.mem_singleton] at hpeer
    exact hpeer
  resolved client url host address _ _ hproxy hresolve _ _ _ peer hpeer := by
    simp only [sampleReqwest, hproxy, hresolve, List.mem_singleton] at hpeer
    exact hpeer
  literal _ _ _ _ _ _ _ _ _ hliteral := by cases hliteral

/-- The resolver of the default arguments. -/
def sampleStarted : Started SamplePolicy Unit String where
  mode := .direct
  fetcher := .ofDirect resolutionDeadline
  resolver := sampleService
  listen := .tcp ⟨.v4 0x7f000001#32, 8081⟩

theorem sampleStarted_served : serve sampleReqwest (fun value => if value = "127.0.0.1:8081" then
    some ⟨.v4 0x7f000001#32, 8081⟩ else none) sampleService.crates sampleService.governor {} {} = .ok sampleStarted := by
  rfl

theorem connections_are_checked_sample : ∃ client,
    sampleStarted.fetcher.client sampleReqwest sampleUrls sampleDestination = .ok client ∧
      client.timeout ≤ resolutionDeadline ∧ Egress sampleReqwest sampleUrls {} {} sampleDestination client := by
  obtain ⟨client, hclient⟩ : ∃ client,
      sampleStarted.fetcher.client sampleReqwest sampleUrls sampleDestination = .ok client := ⟨_, rfl⟩
  obtain ⟨state, older, hrun, hl⟩ := sampleRun_fetch (show (sampleRun (sampleFetch 1 4 1 (.error (.new .dns)))).bind
    (fun state => state.log.head?.bind fetchOf) = some (1, sampleDestination, .error (.new .dns)) by decide +kernel)
  have hliterals : LooksUpLiterals sampleReqwest state.log := by
    intro _ _ _ _ _ _ hliteral
    cases hliteral
  have h := connections_are_checked sampleReqwest_lawful sampleStarted_served (sampleRun_reached hrun) hliterals 1
    sampleDestination (.error (.new .dns)) (hl ▸ List.mem_cons_self)
  exact ⟨client, hclient, (h.1 client hclient).2⟩

end EnvoyWebBotAuth.Resolver
