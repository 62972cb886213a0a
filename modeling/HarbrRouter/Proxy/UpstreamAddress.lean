import HarbrRouter.AddrParser
import HarbrRouter.Proxy.Manager
import HarbrRouter.Proxy.TcpPool
import HarbrRouter.Proxy.UdpIsolation

/-!
# Upstream addresses

Three places look at the address of an upstream: `UpstreamConfig::validate` wants a colon in it,
`validate_config` of the TCP and UDP proxies does not look at it, and `utils::parse_address`, which
runs for each connection and each session, wants an IP address and a port. So a host name with a
port passes both checks and is refused at each connection.

**Theorem** (`addresses_served_iff`): of an accepted configuration, the addresses of the TCP and UDP
upstreams are all parsed, and no connection and no session is refused for its address in any run,
exactly when they are addresses of sockets. What is parsed are these (`parseAddress_ok_iff`). A call
or a handler ends with an error about the configuration only where it parses an address
(`get_config_error`, `handler_config_error`), which is that of an upstream of its instance
(`handler_keeps_lists`); so where all of them are parsed none does (`connections_served`,
`sessions_served`).

**Theorem** (`validateUpstreamAddress_ok_iff`): the check of `proxy.rs` that nothing calls wants
what `parse_address` wants.
-/

set_option autoImplicit false

namespace HarbrRouter.Proxy

open Transition TaskPool PointRing Routing

/-! ## The checks -/

/-- The configuration is accepted, and each TCP and UDP instance of it by its proxy.
Source: `config.rs`, `Config::validate` and `proxy.rs`, `ProxyManager::validate_config` -/
structure Accepted (fromBytes : String → Except String String) (config : Config) : Prop where
  validate : config.validate.2 = .ok ()
  instances : ∀ inst ∈ config.proxyInstances, inst.proxyType ≠ .http →
    ProxyManager.validateConfig fromBytes inst = .ok ()

/-- `utils::parse_address`, with the parser of the standard library.
Source: `proxy.rs`, `utils::parse_address` -/
def utils.parseAddress (address : String) : Result SocketAddr :=
  Tcp.parseAddress SocketAddr.fromStr address

/-- Nothing calls it. Source: `proxy.rs`, `utils::validate_upstream_address` -/
def utils.validateUpstreamAddress (address : String) : Result Unit :=
  if address.isEmpty then .error (.config "Upstream address cannot be empty")
  else if ¬ address.toList.contains ':' then
    .error (.config "Upstream address must include port")
  else
    match utils.parseAddress address with
    | .error e => .error e
    | .ok _ => .ok ()

/-- What is parsed are the addresses of sockets. -/
theorem parseAddress_ok_iff (address : String) :
    (∃ addr, utils.parseAddress address = .ok addr) ↔
      address.toList ∈ AddrParser.socketAddr := by
  rw [← SocketAddr.fromStr_ok_iff]
  unfold utils.parseAddress Tcp.parseAddress
  cases SocketAddr.fromStr address <;> simp

/-- The check is that of the parser: what is parsed has a colon before the port. -/
theorem validateUpstreamAddress_ok_iff (address : String) :
    utils.validateUpstreamAddress address = .ok () ↔
      address.toList ∈ AddrParser.socketAddr := by
  rw [← parseAddress_ok_iff]
  constructor
  · intro h
    unfold utils.validateUpstreamAddress at h
    split_ifs at h
    split at h
    · simp at h
    · next addr haddr => exact ⟨addr, haddr⟩
  · rintro ⟨addr, haddr⟩
    have hcolon : ':' ∈ address.toList :=
      AddrParser.colon_mem_of_socketAddr ((parseAddress_ok_iff address).mp ⟨addr, haddr⟩)
    have hne : address.isEmpty = false := by
      rw [Bool.eq_false_iff, Ne, String.isEmpty_iff]
      rintro rfl
      simp at hcolon
    simp [utils.validateUpstreamAddress, hne, hcolon, haddr]

/-! ## Connections and sessions -/

/-- The upstreams of the TCP and the UDP instances. -/
def socketUpstreams (config : Config) : List UpstreamConfig :=
  (config.proxyInstances.filter fun inst => inst.proxyType ≠ .http).flatMap fun inst =>
    inst.upstreams

/-- The upstreams of an instance that is not HTTP are among them. -/
theorem mem_socketUpstreams {config : Config} {inst : ProxyInstanceConfig} {u : UpstreamConfig}
    (hinst : inst ∈ config.proxyInstances) (htype : inst.proxyType ≠ .http)
    (hu : u ∈ inst.upstreams) : u ∈ socketUpstreams config :=
  List.mem_flatMap.mpr ⟨inst, List.mem_filter.mpr ⟨hinst, decide_eq_true htype⟩, hu⟩

/-- No call for a connection of the TCP instances ends with an error about the configuration. -/
def ConnectionsServed (config : Config) : Prop :=
  ∀ es p, (Tcp.machine config.proxyInstances SocketAddr.fromStr).run Tcp.initial es = some p →
    ∀ t ∈ p.tasks, ∀ message source, t.get ≠ .finished (.error (.Config message source))

/-- UDP instances of the configuration, with routers that hold their upstreams. -/
structure UdpDeployed (config : Config) (D : Udp.Deployment) (heap : Heap)
    (routers : ℕ → Router) : Prop where
  instances : ∀ inst, D.config inst ∈ config.proxyInstances
  type : ∀ inst, (D.config inst).proxyType = .udp
  upstreams : ∀ inst, ∀ u ∈ (routers inst).upstreams,
    (heap.get u).config ∈ (D.config inst).upstreams

/-- An address that is found to be invalid is so for the parser.
Source: `proxy/udp.rs`, `UdpSession::new`, its first line -/
def ParsesAddress (p : Pool Udp.Shared Udp.Task) (a : Sched Udp.Event) : Prop :=
  ∀ i e inst client data upstream, a = .task i (.addressInvalid e) →
    p.tasks[i]? = some (.handler inst client data (.connecting upstream)) →
    utils.parseAddress (p.shared.heap.get upstream).config.address = .error e

/-- No handler of the UDP instances ends with an error about the configuration. -/
def SessionsServed (config : Config) : Prop :=
  ∀ D heap routers, UdpDeployed config D heap routers → ∀ es p,
    (Udp.machine ℚ D).Along ParsesAddress (Udp.initial heap routers) es →
    (Udp.machine ℚ D).run (Udp.initial heap routers) es = some p →
    ∀ inst client data message source,
      .handler inst client data (.finished (.error (.Config message source))) ∉ p.tasks

/-- Every upstream address of the TCP and UDP instances is parsed, and no connection and no session
is refused for its address. -/
structure AddressesServed (config : Config) : Prop where
  parsed : ∀ u ∈ socketUpstreams config, ∃ addr, utils.parseAddress u.address = .ok addr
  connections : ConnectionsServed config
  sessions : SessionsServed config

/-! ## TCP -/

section tcp

variable {instances : List ProxyInstanceConfig} {parse : Tcp.ParseAddr}

/-- A call ends with an error about the configuration only where the address is not parsed. -/
theorem get_config_error {config : TcpProxyConfig} {upstream : UpstreamConfig}
    {sh sh' : Tcp.Shared} {get : Tcp.GetPc} {e : Tcp.GetEvent} {message : String}
    {source : Option String}
    (h : get.step parse config upstream sh e =
      some (sh', .finished (.error (.Config message source)))) :
    Tcp.parseAddress parse upstream.address = .error (.Config message source) := by
  unfold Tcp.GetPc.step at h
  split at h
  · split_ifs at h
    · split at h <;> simp at h
    · simp at h
  · simp at h
  · split at h
    · simp at h
    · next error haddr =>
        obtain ⟨-, rfl⟩ : _ ∧ _ := by simpa using h
        exact haddr
  · simp at h
  · simp [Error.network] at h
  · simp [Error.network] at h
  · simp at h
  · split_ifs at h
    simp [Error.network] at h
  · simp at h

/-- The upstream of a call stays the same, and a caller that lets its stream go has one. -/
theorem tcpTask_step {sh sh' : Tcp.Shared} {t t' : Tcp.Task} {e : Tcp.Event}
    (h : t.step parse sh e = some (sh', t')) :
    t'.upstream = t.upstream ∧ (t'.get = t.get ∨
      ∃ e, t.get.step parse t.config t.upstream sh e = some (sh', t'.get)) := by
  unfold Tcp.Task.step at h
  split at h
  · obtain ⟨⟨sh₁, get⟩, hget, heq⟩ := Option.map_eq_some_iff.mp h
    obtain ⟨rfl, rfl⟩ : _ ∧ _ := by simpa using heq
    exact ⟨rfl, Or.inr ⟨_, hget⟩⟩
  · obtain ⟨stream, -, heq⟩ := Option.map_eq_some_iff.mp h
    obtain ⟨rfl, rfl⟩ : _ ∧ _ := by simpa using heq
    exact ⟨rfl, Or.inl rfl⟩
  · obtain ⟨stream, -, heq⟩ := Option.map_eq_some_iff.mp h
    obtain ⟨rfl, rfl⟩ : _ ∧ _ := by simpa using heq
    exact ⟨rfl, Or.inl rfl⟩
  · simp at h

/-- Where the parser takes every address of the TCP instances, no call ends with an error about the
configuration. -/
theorem connections_served {p : Pool Tcp.Shared Tcp.Task} {es : List (Sched Tcp.Event)}
    (hparse : ∀ inst u, Tcp.IsCall instances inst u →
      ∃ addr, Tcp.parseAddress parse u.address = .ok addr)
    (hrun : (Tcp.machine instances parse).run Tcp.initial es = some p) :
    ∀ t ∈ p.tasks, ∀ message source, t.get ≠ .finished (.error (.Config message source)) := by
  have hinv := (Tcp.system instances parse).run_owickiGries (P := fun _ _ => True)
    (I := fun _ => True)
    (J := fun _ t => (∃ inst, Tcp.IsCall instances inst t.upstream) ∧
      ∀ message source, t.get ≠ .finished (.error (.Config message source)))
    ?_ ?_ trivial (by simp [Tcp.initial])
    ((Tcp.machine instances parse).along_of_take fun _ _ _ _ _ => trivial) hrun
  · exact fun t ht => (hinv.2 t ht).2
  · intro q i e t sh t' new _ hJ _ ht hact
    obtain ⟨⟨sh₁, t₁⟩, hstep, heq⟩ := Option.map_eq_some_iff.mp hact
    obtain ⟨rfl, rfl, rfl⟩ : _ ∧ _ ∧ _ := by simpa using heq
    obtain ⟨⟨inst, hcall⟩, hserved⟩ := hJ t (List.mem_of_getElem? ht)
    obtain ⟨hupstream, hget⟩ := tcpTask_step hstep
    refine ⟨trivial, ⟨⟨inst, hupstream ▸ hcall⟩, fun message source hfinished => ?_⟩, by simp,
      fun u _ hu => hu⟩
    rcases hget with hget | ⟨e', hget⟩
    · exact hserved message source (hget ▸ hfinished)
    · obtain ⟨addr, haddr⟩ := hparse inst t.upstream hcall
      rw [hfinished] at hget
      rw [get_config_error hget] at haddr
      exact absurd haddr (by simp)
  · intro q e sh new _ _ _ henv
    rcases Tcp.env_cases henv with ⟨ns, -, -, rfl⟩ | ⟨inst, upstream, -, hcall, -, rfl⟩
    · exact ⟨trivial, by simp, fun u _ hu => hu⟩
    · refine ⟨trivial, fun u hu => ?_, fun u _ hu => hu⟩
      obtain rfl := List.mem_singleton.mp hu
      exact ⟨⟨inst, hcall⟩, by simp⟩

end tcp

/-! ## UDP -/

section udp

variable {D : Udp.Deployment} {sh sh' : Udp.Shared}

/-- A handler of a datagram changes no configuration of an upstream. -/
theorem handler_keeps_config {tasks new : List Udp.Task} {inst : ℕ} {client : SocketAddr}
    {pc pc' : Udp.HandlerPc} {e : Udp.Event}
    (h : pc.step ℚ D tasks sh inst client e = some (sh', pc', new)) (r : UpstreamRef) :
    (sh'.heap.get r).config = (sh.heap.get r).config := by
  have hsame : ∀ {heap : Heap}, heap = sh.heap → (heap.get r).config = (sh.heap.get r).config :=
    fun h => by rw [h]
  have hfailed : ∀ s : Udp.UdpSession, ((sh.heap.modify s.upstream fun u =>
      { u with stats := u.stats.recordFailure sh.now }).get r).config =
        (sh.heap.get r).config := by
    intro s
    apply Heap.get_modify_proj UpstreamInfo.config
    exact fun _ => rfl
  have hstep := Udp.HandlerPc.step_inv h
  cases hstep with
  | start | countExpired | decActive | countCreated | incActive =>
      exact hsame (sh.count_heap _)
  | forward hs hsh =>
      subst hsh
      simp only [Udp.Shared.count_heap]
      rfl
  | @notForwarded sid =>
      cases e with
      | sendFailed | timedOut =>
          obtain ⟨s, -, heq⟩ := Option.map_eq_some_iff.mp h
          rw [← (Prod.mk.inj heq).1]
          exact hfailed s
      | sent =>
          obtain ⟨s, -, heq⟩ := Option.map_eq_some_iff.mp h
          rw [← (Prod.mk.inj heq).1]
          simp only [Udp.Shared.count_heap]
          rfl
      | _ => exact absurd h (by simp [Udp.HandlerPc.step])
  | _ => rfl

/-- A handler ends with an error about the configuration only where the address is found to be
invalid. -/
theorem handler_config_error {tasks new : List Udp.Task} {inst : ℕ} {client : SocketAddr}
    {pc : Udp.HandlerPc} {e : Udp.Event} {message : String} {source : Option String}
    (h : pc.step ℚ D tasks sh inst client e =
      some (sh', .finished (.error (.Config message source)), new)) :
    ∃ upstream, pc = .connecting upstream ∧ e = .addressInvalid (.Config message source) := by
  have hstep := Udp.HandlerPc.step_inv h
  cases hstep with
  | noUpstream hselect => simp [Udp.HandlerPc.step, hselect, Error.proxy] at h
  | @notConnected upstream =>
      cases e with
      | addressInvalid error =>
          obtain rfl : error = .Config message source := by simpa [Udp.HandlerPc.step] using h
          exact ⟨upstream, rfl, rfl⟩
      | _ => simp [Udp.HandlerPc.step, Error.network] at h
  | notForwarded =>
      cases e with
      | sendFailed | timedOut | sent => simp [Udp.HandlerPc.step, Error.network] at h
      | _ => simp [Udp.HandlerPc.step] at h

/-- The lists of the routers and the configurations of the upstreams, which no task changes. -/
structure SameUpstreams (heap : Heap) (routers : ℕ → Router) (sh : Udp.Shared) : Prop where
  lists : ∀ inst, (sh.routers inst).upstreams = (routers inst).upstreams
  configs : ∀ r, (sh.heap.get r).config = (heap.get r).config

/-- A handler connects to an upstream of its instance, and does not end with an error about the
configuration. -/
def HandlerServed (routers : ℕ → Router) : Udp.Task → Prop
  | .handler inst _ _ pc =>
      (∀ upstream, pc = .connecting upstream → upstream ∈ (routers inst).upstreams) ∧
        ∀ message source, pc ≠ .finished (.error (.Config message source))
  | _ => True

/-- A handler keeps the lists, and takes the upstream to connect to from that of its instance. -/
theorem handler_keeps_lists {tasks new : List Udp.Task} {inst : ℕ} {client : SocketAddr}
    {pc pc' : Udp.HandlerPc} {e : Udp.Event}
    (h : Udp.HandlerStep ℚ D tasks sh inst client pc e sh' pc' new) :
    (∀ i, (sh'.routers i).upstreams = (sh.routers i).upstreams) ∧
      (∀ upstream, pc' = .connecting upstream → upstream ∈ (sh.routers inst).upstreams) ∧
      ∀ routers, ∀ t ∈ new, HandlerServed routers t := by
  have hnone : ∀ routers, ∀ t ∈ ([] : List Udp.Task), HandlerServed routers t := by simp
  cases h with
  | selected hanswer =>
      refine ⟨fun i => (Router.update_selected_keeps hanswer i).1, fun upstream heq => ?_, hnone⟩
      obtain rfl := Udp.HandlerPc.connecting.inj heq
      exact Router.mem_of_selectUpstream (congrArg Prod.snd hanswer)
  | noUpstream hanswer =>
      exact ⟨fun i => (Router.update_selected_keeps hanswer i).1, by simp, hnone⟩
  | listen => exact ⟨fun _ => rfl, by simp, by simp [HandlerServed]⟩
  | forward hs hsh => exact ⟨fun _ => by rw [hsh]; rfl, by simp, hnone⟩
  | _ => exact ⟨fun _ => rfl, by simp, hnone⟩

/-- Tasks that are no handlers keep the upstreams, and spawn handlers at their start. -/
theorem others_keep {tasks new : List Udp.Task} {t t' : Udp.Task} {e : Udp.Event}
    (h : Udp.TaskStep ℚ D tasks sh t e sh' t' new)
    (ht : ∀ inst client data pc, t ≠ .handler inst client data pc) :
    sh'.heap = sh.heap ∧ sh'.routers = sh.routers ∧
      ∀ routers, HandlerServed routers t' ∧ ∀ u ∈ new, HandlerServed routers u := by
  cases h with
  | handler => exact absurd rfl (ht _ _ _ _)
  | listener h =>
      refine ⟨?_, ?_, fun _ => ⟨trivial, by simp⟩⟩
      · cases h with
        | received | countExpired | decActive => exact Udp.Shared.count_heap _ _
        | _ => rfl
      · cases h with
        | received | countExpired | decActive => exact Udp.Shared.count_routers _ _
        | _ => rfl
  | cleanup h =>
      refine ⟨?_, ?_, fun _ => ⟨trivial, by simp⟩⟩
      · cases h with
        | countExpired | decActive => exact Udp.Shared.count_heap _ _
        | _ => rfl
      · cases h with
        | countExpired | decActive => exact Udp.Shared.count_routers _ _
        | _ => rfl
  | server h =>
      cases h with
      | packet => exact ⟨rfl, rfl, fun _ => ⟨trivial, by simp [HandlerServed]⟩⟩
      | _ => exact ⟨rfl, rfl, fun _ => ⟨trivial, by simp [HandlerServed]⟩⟩
  | reader => exact ⟨rfl, rfl, fun _ => ⟨trivial, by simp⟩⟩

/-- Where every upstream address of the UDP instances is parsed, no handler ends with an error about
the configuration. -/
theorem sessions_served {config : Config} {heap : Heap} {routers : ℕ → Router}
    {p : Pool Udp.Shared Udp.Task} {es : List (Sched Udp.Event)}
    (hparsed : ∀ u ∈ socketUpstreams config, ∃ addr, utils.parseAddress u.address = .ok addr)
    (hdeployed : UdpDeployed config D heap routers)
    (hparses : (Udp.machine ℚ D).Along ParsesAddress (Udp.initial heap routers) es)
    (hrun : (Udp.machine ℚ D).run (Udp.initial heap routers) es = some p) :
    ∀ t ∈ p.tasks, HandlerServed routers t := by
  refine ((Udp.system ℚ D).run_owickiGries (P := ParsesAddress) (I := SameUpstreams heap routers)
    (J := fun _ t => HandlerServed routers t) ?_ ?_ ⟨fun _ => rfl, fun _ => rfl⟩
    (by simp [Udp.initial]) hparses hrun).2
  · intro q i e t sh t' new hI hJ hP ht hact
    have hstep := Udp.Task.step_inv hact
    by_cases hhandler : ∃ inst client data pc, t = .handler inst client data pc
    · obtain ⟨inst, client, data, pc, rfl⟩ := hhandler
      obtain ⟨⟨sh₁, pc', new₁⟩, hpc, heq⟩ := Option.map_eq_some_iff.mp hact
      obtain ⟨rfl, rfl, rfl⟩ : _ ∧ _ ∧ _ := by simpa using heq
      obtain ⟨hlists, hconnecting, hnew⟩ := handler_keeps_lists (Udp.HandlerPc.step_inv hpc)
      refine ⟨⟨fun i => (hlists i).trans (hI.lists i),
        fun r => (handler_keeps_config hpc r).trans (hI.configs r)⟩, ⟨fun upstream hpc' => ?_,
        fun message source hpc' => ?_⟩, hnew routers, fun u _ hu => hu⟩
      · rw [← hI.lists inst]
        exact hconnecting upstream hpc'
      · -- the address of an upstream of the instance was parsed
        subst hpc'
        obtain ⟨upstream, rfl, rfl⟩ := handler_config_error hpc
        have hmem := (hJ _ (List.mem_of_getElem? ht)).1 upstream rfl
        obtain ⟨addr, haddr⟩ := hparsed _ (mem_socketUpstreams (hdeployed.instances inst)
          (by simp [hdeployed.type inst]) (hdeployed.upstreams inst upstream hmem))
        have herror := hP i _ inst client data upstream rfl ht
        rw [hI.configs upstream, haddr] at herror
        exact absurd herror (by simp)
    · obtain ⟨hheap, hrouters, hserved⟩ := others_keep hstep
        fun inst client data pc heq => hhandler ⟨inst, client, data, pc, heq⟩
      exact ⟨⟨fun i => by rw [hrouters]; exact hI.lists i,
        fun r => by rw [hheap]; exact hI.configs r⟩, (hserved routers).1, (hserved routers).2,
        fun u _ hu => hu⟩
  · intro q e sh new hI _ _ henv
    rcases Udp.env_cases henv with ⟨ns, -, rfl, rfl⟩ | ⟨inst, -, rfl, rfl⟩ | ⟨-, rfl, rfl⟩
    · exact ⟨⟨hI.lists, hI.configs⟩, by simp, fun u _ hu => hu⟩
    · exact ⟨hI, by simp [HandlerServed], fun u _ hu => hu⟩
    · exact ⟨hI, by simp [HandlerServed], fun u _ hu => hu⟩

end udp

/-! ## When every address is served -/

/-- **When validation is enough.** Every upstream address of the TCP and UDP instances is parsed,
and no connection and no session is ever refused for its address, if and only if each of them is the
address of a socket: an IP address with a port, and not the name of a host. -/
theorem addresses_served_iff (config : Config) :
    AddressesServed config ↔
      ∀ u ∈ socketUpstreams config, u.address.toList ∈ AddrParser.socketAddr := by
  constructor
  · intro h u hu
    exact (parseAddress_ok_iff u.address).mp (h.parsed u hu)
  · intro h
    have hparsed : ∀ u ∈ socketUpstreams config, ∃ addr, utils.parseAddress u.address = .ok addr :=
      fun u hu => (parseAddress_ok_iff u.address).mpr (h u hu)
    refine ⟨hparsed, fun es p hrun => connections_served ?_ hrun, ?_⟩
    · rintro inst u ⟨hinst, htype, hu⟩
      exact hparsed u (mem_socketUpstreams hinst (by simp [htype]) hu)
    · intro D heap routers hdeployed es p hparses hrun inst client data message source hmem
      exact (sessions_served hparsed hdeployed hparses hrun _ hmem).2 message source rfl

/-- A TCP instance with the host name of its upstream. -/
def hostNameConfig : Config := ⟨.default, [Tcp.dbInstance "orders" 8000 "localhost:5432"]⟩

/-- A host name is not parsed. -/
theorem hostName_not_parsed :
    SocketAddr.fromStr "localhost:5432" = .error "invalid socket address syntax" := by
  decide +kernel

/-- A host name with a port is accepted, and not parsed. -/
theorem hostName_refused : (∀ fromBytes, Accepted fromBytes hostNameConfig) ∧
    ¬ AddressesServed hostNameConfig := by
  constructor
  · intro fromBytes
    refine ⟨by decide, fun inst hinst _ => ?_⟩
    obtain rfl := List.mem_singleton.mp hinst
    exact ProxyManager.validateConfig_default fromBytes rfl
  · intro h
    obtain ⟨addr, haddr⟩ := h.parsed ⟨"db", "localhost:5432", 1, 0, 1000⟩ (by decide)
    exact absurd haddr (by rw [utils.parseAddress, Tcp.parseAddress, hostName_not_parsed]; simp)

end HarbrRouter.Proxy
