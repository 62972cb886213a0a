import HarbrRouter.Metrics.Prometheus
import HarbrRouter.Proxy.Health
import HarbrRouter.Reporting

/-!
# What can be seen of a running router

`metrics.rs`, `MetricsServer`, `server.rs`, `HealthServer`, and the periodic tasks of `router.rs`,
beside the start task and the traffic of the served instance: the collection of the proxies'
metrics, the health monitoring, the collection of the memory usage, and the requests to the two
servers.

The periodic tasks are spawned when all instances have returned, and the upstreams of the registry
are not those of the load balancers. So nothing of what the proxies do is ever seen.

**Theorem** (`never_monitored`): with an instance configured, nothing but the two servers is ever
spawned, no metrics of a proxy are exported, and `start` does not return successfully. `Unmonitored`
is what stays true of the start task: a step that would break it comes behind the loop over the
instances, which the start task never leaves (`Unmonitored.ownStep`), and the metrics of the proxies
are written by a task that is not there (`proxyMetrics_of_run`).

**Theorem** (`health_blind`): what the metrics server says of the upstreams and of the health is the
same whatever is recorded. The upstreams of the registry are allocated for it alone, and a call of a
handler changes those of its load balancer only (`get_of_apply`, `untouched_of_run`).
-/

set_option autoImplicit false

namespace HarbrRouter

open Transition PointRing Routing

/-! ## The health of the system -/

/-- Source: `metrics.rs`, `SystemHealth` -/
structure SystemHealth where
  status : HealthState
  uptimeSeconds : ℕ
  healthyProxies : ℕ
  unhealthyProxies : ℕ
  healthyUpstreams : ℕ
  unhealthyUpstreams : ℕ
  /-- Unix time, in seconds. -/
  timestamp : ℕ
  message : String
deriving DecidableEq, Repr

/-- The status from the counts; `unknown` stands for degraded too.
Source: `metrics.rs`, `MetricsRegistry::get_system_health` -/
def overallStatus (healthyProxies unhealthyProxies unhealthyUpstreams : ℕ) : HealthState :=
  if 0 < unhealthyProxies ∨ 0 < unhealthyUpstreams then
    if healthyProxies = 0 then .unhealthy else .unknown
  else if 0 < healthyProxies then .healthy
  else .unknown

/-- Source: `metrics.rs`, `MetricsRegistry::get_system_health` -/
def statusMessage (unhealthyProxies unhealthyUpstreams : ℕ) : HealthState → String
  | .healthy => "All systems operational"
  | .unhealthy => "System degraded: " ++ Nat.repr unhealthyProxies ++ " unhealthy proxies, " ++
      Nat.repr unhealthyUpstreams ++ " unhealthy upstreams"
  | .unknown => "System status unknown or starting up"

namespace ExportedRegistry

/-- Source: `metrics.rs`, `MetricsRegistry::update_proxy_metrics` -/
def updateProxyMetrics (self : ExportedRegistry) (instanceName : String) (metrics : ProxyMetrics) :
    ExportedRegistry :=
  { self with proxyMetrics := self.proxyMetrics.insert instanceName metrics }

/-- Source: `metrics.rs`, `MetricsRegistry::update_memory_usage` -/
def updateMemoryUsage (self : ExportedRegistry) (rssBytes : ℕ) : ExportedRegistry :=
  { self with rssBytes }

/-- The health after the uptime is updated. Source: `metrics.rs`,
`MetricsRegistry::get_system_health` -/
def getSystemHealth (self : ExportedRegistry) (heap : Heap) (now unixTime : ℕ)
    (proxyHealths : AList fun _ : String => Proxy.ProxyHealth) : SystemHealth :=
  let proxies := proxyHealths.entries.map fun entry => entry.2.status
  let upstreams := self.upstreamMetrics.entries.map fun entry => (heap.get entry.2).healthState
  let status := overallStatus (proxies.count .healthy) (proxies.count .unhealthy)
    (upstreams.count .unhealthy)
  { status
    uptimeSeconds := (self.updateUptime now).uptimeSeconds
    healthyProxies := proxies.count .healthy
    unhealthyProxies := proxies.count .unhealthy
    healthyUpstreams := upstreams.count .healthy
    unhealthyUpstreams := upstreams.count .unhealthy
    timestamp := unixTime
    message := statusMessage (proxies.count .unhealthy) (upstreams.count .unhealthy) status }

end ExportedRegistry

/-- A list of one repeated value has no other one. -/
theorem count_map_eq_zero {α β : Type} [BEq β] [LawfulBEq β] {l : List α} {f : α → β} {b c : β}
    (h : ∀ a ∈ l, f a = c) (hne : b ≠ c) : (l.map f).count b = 0 := by
  rw [List.count_eq_zero]
  intro hmem
  obtain ⟨a, ha, rfl⟩ := List.mem_map.mp hmem
  exact hne (h a ha)

/-- Without a proxy and with upstreams of which nothing is known, nothing is known. -/
theorem ExportedRegistry.getSystemHealth_of_unknown {self : ExportedRegistry} {heap : Heap}
    (h : ∀ entry ∈ self.upstreamMetrics.entries, (heap.get entry.2).healthState = .unknown)
    (now unixTime : ℕ) :
    self.getSystemHealth heap now unixTime ∅ =
      ⟨.unknown, (self.updateUptime now).uptimeSeconds, 0, 0, 0, 0, unixTime,
        "System status unknown or starting up"⟩ := by
  have hhealthy := count_map_eq_zero (b := HealthState.healthy) h (by decide)
  have hunhealthy := count_map_eq_zero (b := HealthState.unhealthy) h (by decide)
  unfold getSystemHealth
  dsimp only
  rw [hhealthy, hunhealthy]
  rfl

/-! ## The two servers -/

/-- What a response carries; the health is written as JSON. -/
inductive ResponseBody where
  | text (text : String)
  | json (health : SystemHealth)
deriving DecidableEq, Repr

/-- A response of one of the two servers. -/
structure ServerResponse where
  status : ℕ
  contentType : Option String
  body : ResponseBody
deriving DecidableEq, Repr

/-- The response to a path that is not known. -/
def ServerResponse.notFound : ServerResponse := ⟨404, none, .text "Not Found"⟩

/-- Source: `metrics.rs`, `MetricsServer::handle_request` -/
def MetricsServer.handleRequest (F : Type) [ScoreArith F] [DisplayFloat F]
    (registry : ExportedRegistry) (heap : Heap) (now unixTime : ℕ) (metricsPath path : String) :
    ServerResponse :=
  if path = metricsPath then
    ⟨200, some "text/plain; version=0.0.4; charset=utf-8",
      .text (registry.exportPrometheus F heap now)⟩
  else if path = "/health" then
    let health := registry.getSystemHealth heap now unixTime ∅
    let status := match health.status with
      | .healthy | .unknown => 200
      | .unhealthy => 503
    ⟨status, some "application/json", .json health⟩
  else .notFound

/-- Source: `server.rs`, `HealthServer::handle_request` -/
def HealthServer.handleRequest (unixTime : ℕ) (healthPath path : String) : ServerResponse :=
  if path = healthPath then
    ⟨200, some "application/json",
      .json ⟨.healthy, 0, 0, 0, 0, 0, unixTime, "Health check endpoint operational"⟩⟩
  else .notFound

namespace Monitoring

/-! ## The router with its observers -/

/-- The router, and the fields of the registry that the start task does not write. -/
structure State where
  router : Startup.State
  proxyMetrics : AList fun _ : String => ProxyMetrics
  /-- When the registry was made, in nanoseconds. -/
  startTime : ℕ
  uptimeSeconds : ℕ
  rssBytes : ℕ

/-- The registry. -/
def State.registry (s : State) : ExportedRegistry where
  toMetricsRegistry := s.router.registry
  proxyMetrics := s.proxyMetrics
  startTime := s.startTime
  uptimeSeconds := s.uptimeSeconds
  rssBytes := s.rssBytes

/-- Change the registry. -/
def State.modifyRegistry (s : State) (f : ExportedRegistry → ExportedRegistry) : State where
  router := { s.router with registry := (f s.registry).toMetricsRegistry }
  proxyMetrics := (f s.registry).proxyMetrics
  startTime := (f s.registry).startTime
  uptimeSeconds := (f s.registry).uptimeSeconds
  rssBytes := (f s.registry).rssBytes

/-- The process has not ended: the tasks that the start task has spawned run. -/
def State.Alive (s : State) : Prop :=
  match s.router.pc with
  | .finished _ | .panicked _ | .killed => False
  | _ => True

instance (s : State) : Decidable s.Alive := by
  unfold State.Alive
  split
  all_goals infer_instance

/-- A step of the router or of its traffic, a tick of a periodic task, or a request to a server. -/
inductive Event where
  | router (e : Reporting.Event)
  /-- The metrics are collected; the proxies and what they report, in the order of a `HashMap`. -/
  | collectMetrics (metrics : List (ProxyType × ProxyMetrics))
  /-- The health of the proxies is logged. -/
  | monitorHealth
  | collectMemory
  /-- A request to the metrics server. -/
  | metricsRequest (path : String)
  /-- A request to the health server. -/
  | healthRequest (path : String)

section machine

variable (F : Type) [ScoreArith F] (fromBytes : String → Except String String)
  (hashKey : String → U64) (search : BinarySearch U64) (config : Config)

/-- Is the task one that collects metrics, with an interval that its ticker accepts? -/
def isCollection : Startup.Spawned → Bool
  | .metricsCollection intervalSecs => intervalSecs ≠ 0
  | _ => false

/-- Is the task one that monitors the health? -/
def isMonitoring : Startup.Spawned → Bool
  | .healthMonitoring intervalSecs => intervalSecs ≠ 0
  | _ => false

/-- One step. Source: `router.rs`, `Router::start_metrics_collection_task` and
`Router::start_health_monitoring_task`; `proxy.rs`, `ProxyManager::get_all_metrics`; `metrics.rs`,
`MetricsServer::start_memory_collection` and `MetricsServer::collect_memory_usage` -/
def step (s : State) : Event → Option State
  | .router e =>
      ((Reporting.machine F fromBytes hashKey search config).step s.router e).map fun router =>
        { s with router }
  | .collectMetrics metrics =>
      if s.Alive ∧ s.router.spawned.any isCollection ∧
          (metrics.map Prod.fst).Perm [.http, .tcp, .udp] then
        some (s.modifyRegistry fun registry =>
          metrics.foldl (fun r entry => r.updateProxyMetrics entry.1.debug entry.2) registry)
      else none
  | .monitorHealth => if s.Alive ∧ s.router.spawned.any isMonitoring then some s else none
  | .collectMemory =>
      if s.Alive ∧ .metricsServer ∈ s.router.spawned ∧ config.global.metrics.intervalSecs ≠ 0 then
        some (s.modifyRegistry fun registry => registry.updateMemoryUsage 0)
      else none
  | .metricsRequest path =>
      if s.Alive ∧ .metricsServer ∈ s.router.spawned then
        if path = config.global.metrics.path ∨ path = "/health" then
          some (s.modifyRegistry fun registry => registry.updateUptime s.router.now)
        else some s
      else none
  | .healthRequest _ => if s.Alive ∧ .healthServer ∈ s.router.spawned then some s else none

/-- The machine of the router and its observers. -/
def machine : Machine State Event := ⟨step F fromBytes hashKey search config⟩

/-- The router and the registry before `start` is called. -/
def initial (now : ℕ) : State := ⟨Reporting.initial now, ∅, now, 0, 0⟩

/-- The answer of the metrics server to a request. -/
def State.metricsResponse [DisplayFloat F] (s : State) (unixTime : ℕ) (path : String) :
    ServerResponse :=
  MetricsServer.handleRequest F s.registry s.router.heap s.router.now unixTime
    config.global.metrics.path path

/-- The answer of the health server to a request. -/
def healthResponse (unixTime : ℕ) (path : String) : ServerResponse :=
  HealthServer.handleRequest unixTime config.global.healthCheck.path path

end machine

/-! ## The start task with a configured instance -/

section start

variable {F : Type} [ScoreArith F] {fromBytes : String → Except String String}
  {hashKey : String → U64} {search : BinarySearch U64} {config : Config} {s s' : Startup.State}

/-- What stays true of the start task when an instance is configured: only the servers are spawned,
no instance is tracked, and the number of instances is not written. -/
structure Unmonitored (s : Startup.State) : Prop where
  spawned : ∀ t ∈ s.spawned, t = .metricsServer ∨ t = .healthServer
  running : s.runningInstances = ∅
  total : s.registry.proxyInstancesTotal = 0

/-- A step that writes neither the spawned tasks nor the running instances nor their number leaves
`start` unmonitored. -/
theorem Unmonitored.congr (h : Unmonitored s) (hspawned : s'.spawned = s.spawned)
    (hrunning : s'.runningInstances = s.runningInstances)
    (htotal : s'.registry.proxyInstancesTotal = s.registry.proxyInstancesTotal) :
    Unmonitored s' :=
  ⟨by rw [hspawned]; exact h.spawned, by rw [hrunning, h.running], by rw [htotal, h.total]⟩

/-- A spawn of one of the two servers leaves `start` unmonitored. -/
theorem Unmonitored.spawn (h : Unmonitored s) {t : Startup.Spawned}
    (ht : t = .metricsServer ∨ t = .healthServer) (pc : Startup.StartPc) :
    Unmonitored { s with spawned := s.spawned ++ [t], pc } := by
  refine ⟨fun u hu => ?_, h.running, h.total⟩
  rcases List.mem_append.mp hu with hu | hu
  · exact h.spawned u hu
  · rwa [List.mem_singleton.mp hu]

/-- A step in the start of an instance leaves `start` unmonitored: the start task never comes to
track one. -/
theorem Unmonitored.stepInstance (h : Unmonitored s) (hinv : Startup.Inv fromBytes config s)
    {inst : ProxyInstanceConfig} {rest : List ProxyInstanceConfig} {pc : Startup.InstancePc}
    (hpc : s.pc = .starting inst rest pc)
    (hstep : s.stepInstance fromBytes hashKey inst rest pc = some s') : Unmonitored s' := by
  cases pc with
  | registering loadBalancer upstreams =>
      cases upstreams <;> obtain rfl := Option.some.inj hstep <;> exact h.congr rfl rfl rfl
  | validating loadBalancer =>
      simp only [Startup.State.stepInstance] at hstep
      split at hstep <;> obtain rfl := Option.some.inj hstep <;> exact h.congr rfl rfl rfl
  | serving loadBalancer seen =>
      simp only [Startup.State.stepInstance] at hstep
      split_ifs at hstep
      obtain rfl := Option.some.inj hstep
      exact h.congr rfl rfl rfl
  | tracking loadBalancer => exact absurd hpc (hinv.untracked _ _ _)
  | creating | subscribing | binding =>
      obtain rfl := Option.some.inj hstep
      exact h.congr rfl rfl rfl

/-- A step of the start task leaves `start` unmonitored: the loop over the instances never ends. -/
theorem Unmonitored.ownStep (hinst : config.proxyInstances ≠ []) (h : Unmonitored s)
    (hinv : Startup.Inv fromBytes config s)
    (hstep : s.ownStep fromBytes hashKey config = some s') : Unmonitored s' := by
  have hpast : s.pc.pending ≠ some [] := fun hpending => hinst (hinv.pending [] hpending).symm
  unfold Startup.State.ownStep at hstep
  cases hpc : s.pc with
  | metricsServer =>
      obtain rfl := Option.some.inj (hpc ▸ hstep)
      split_ifs
      · exact h.spawn (Or.inl rfl) _
      · exact h.congr rfl rfl rfl
  | healthServer =>
      obtain rfl := Option.some.inj (hpc ▸ hstep)
      split_ifs
      · exact h.spawn (Or.inr rfl) _
      · exact h.congr rfl rfl rfl
  | nextInstance rest =>
      cases rest <;> obtain rfl := Option.some.inj (hpc ▸ hstep) <;> exact h.congr rfl rfl rfl
  | starting inst rest pc => exact h.stepInstance hinv hpc (hpc ▸ hstep)
  | metricsCollection | healthMonitoring | instancesCount =>
      rw [hpc] at hpast
      exact absurd rfl hpast
  | proxyShutdown | componentShutdown =>
      obtain rfl := Option.some.inj (hpc ▸ hstep)
      exact h.congr rfl rfl rfl
  | waiting | finished | panicked | killed => exact absurd (hpc ▸ hstep) (by simp)

/-- Every step of the router leaves `start` unmonitored. -/
theorem Unmonitored.step (hinst : config.proxyInstances ≠ []) (h : Unmonitored s)
    (hinv : Startup.Inv fromBytes config s) {e : Startup.Event}
    (hstep : s.step fromBytes hashKey config e = some s') : Unmonitored s' := by
  cases e with
  | step => exact h.ownStep hinst hinv hstep
  | client name =>
      simp only [Startup.State.step] at hstep
      split_ifs at hstep
      obtain rfl := Option.some.inj hstep
      exact h
  | advance ns =>
      obtain rfl := Option.some.inj hstep
      exact h.congr rfl rfl rfl
  | serverError e =>
      simp only [Startup.State.step] at hstep
      split at hstep
      · split_ifs at hstep
        obtain rfl := Option.some.inj hstep
        exact h.congr rfl rfl rfl
      · exact absurd hstep (by simp)
  | bindFailed | signal | triggerShutdown | sigtermFailed =>
      simp only [Startup.State.step] at hstep
      split at hstep
      all_goals first
        | obtain rfl := Option.some.inj hstep
          exact h.congr rfl rfl rfl
        | exact absurd hstep (by simp)

/-- The traffic of the served instance leaves the start task where it is. -/
theorem inv_of_traffic {op : Op} (h : Startup.Inv fromBytes config s)
    (hstep : Reporting.traffic F hashKey search s op = some s') :
    Startup.Inv fromBytes config s' := by
  unfold Reporting.traffic at hstep
  split at hstep
  · next inst rest loadBalancer seen hpc =>
      split_ifs at hstep
      obtain rfl := Option.some.inj hstep
      obtain ⟨hserved, hpending, haccepted, hunsent, -, -⟩ := h
      rw [hpc] at hserved hpending haccepted hunsent
      exact ⟨hserved, hpending, haccepted, fun hsent => absurd (hunsent hsent) (by simp), by simp,
        by simp⟩
  · exact absurd hstep (by simp)

/-- The traffic of the served instance leaves `start` unmonitored. -/
theorem Unmonitored.traffic {op : Op} (h : Unmonitored s)
    (hstep : Reporting.traffic F hashKey search s op = some s') : Unmonitored s' := by
  unfold Reporting.traffic at hstep
  split at hstep
  · split_ifs at hstep
    obtain rfl := Option.some.inj hstep
    exact h.congr rfl rfl rfl
  · exact absurd hstep (by simp)

/-- With an instance configured, in every state of the router and its traffic. -/
theorem unmonitored_of_run (hinst : config.proxyInstances ≠ []) {now : ℕ}
    {es : List Reporting.Event}
    (hrun : (Reporting.machine F fromBytes hashKey search config).run (Reporting.initial now) es =
      some s) : Startup.Inv fromBytes config s ∧ Unmonitored s := by
  refine (Reporting.machine F fromBytes hashKey search config).run_preserves
    (I := fun s => Startup.Inv fromBytes config s ∧ Unmonitored s) ?_ ?_ hrun
  · rintro t e t' ⟨hinv, h⟩ hstep
    cases e with
    | router e => exact ⟨hinv.step hstep, h.step hinst hinv hstep⟩
    | traffic op =>
        refine ⟨inv_of_traffic hinv hstep, h.traffic hstep⟩
  · have hnil : (Startup.machine fromBytes hashKey config).run (Reporting.initial now) [] =
        some (Reporting.initial now) := rfl
    refine ⟨Startup.Inv.of_run hnil, ?_, rfl, rfl⟩
    exact fun t ht => absurd ht List.not_mem_nil

end start

/-! ## The upstreams of the registry -/

section registry

variable {F : Type} [ScoreArith F] {fromBytes : String → Except String String}
  {hashKey : String → U64} {search : BinarySearch U64} {config : Config} {s s' : Startup.State}

/-- Each upstream of the registry is as it was made. -/
def Untouched (s : Startup.State) : Prop :=
  ∀ name v, s.registry.upstreamMetrics.lookup name = some v →
    ∃ c now, s.heap.get v = .new c now ∧ c.name = name

/-- A call of a handler changes upstreams of its load balancer only. -/
theorem get_of_apply {loadBalancer loadBalancer' : Router} {heap heap' : Heap} {op : Op}
    (htraffic : Reporting.IsTraffic loadBalancer op)
    (happly : World.apply F hashKey search ⟨loadBalancer, heap⟩ op = ⟨loadBalancer', heap'⟩)
    {v : UpstreamRef} (hv : v ∉ loadBalancer.upstreams) : heap'.get v = heap.get v := by
  have hmodify : ∀ (u : UpstreamRef) (f : UpstreamInfo → UpstreamInfo),
      u ∈ loadBalancer.upstreams → heap.modify u f = heap' → heap'.get v = heap.get v := by
    rintro u f hu rfl
    apply Heap.get_modify_of_ne
    rintro rfl
    exact hv hu
  cases op with
  | updateUpstreams configs now => exact htraffic.elim
  | selectUpstream sessionKey =>
      obtain ⟨-, rfl⟩ := World.mk.inj happly
      rfl
  | updateUpstreamHealth name state now =>
      simp only [World.apply, Router.updateUpstreamHealth] at happly
      cases hname : loadBalancer.getUpstreamByName heap name with
      | none =>
          rw [hname] at happly
          obtain ⟨-, rfl⟩ := World.mk.inj happly
          rfl
      | some u =>
          rw [hname] at happly
          exact hmodify u _ (List.mem_of_find?_eq_some hname) (World.mk.inj happly).2
  | recordSuccess u | recordFailure u | incrementConnections u | decrementConnections u =>
      exact hmodify u _ htraffic (World.mk.inj happly).2

/-- Every step of the router leaves the upstreams of the registry as they were made. -/
theorem Untouched.effect (h : Untouched s) (hinv : Reporting.Inv s)
    (heffect : Reporting.Effect s s') : Untouched s' := by
  intro name v hv
  cases heffect with
  | keep hheap hregistry =>
      rw [hregistry] at hv
      rw [hheap]
      exact h name v hv
  | create hheap hupstreams hregistry =>
      rw [hregistry] at hv
      rw [hheap, Heap.get_alloc (hinv.separate name v hv).1]
      exact h name v hv
  | @register loadBalancer upstream upstreams hbefore hheap hregistry =>
      rw [hregistry] at hv
      by_cases hname : name = upstream.name
      · subst hname
        rw [AList.lookup_insert] at hv
        obtain rfl := Option.some.inj hv
        exact ⟨upstream, s.now, by simp [hheap, Heap.alloc, Heap.get], rfl⟩
      · rw [AList.lookup_insert_ne hname] at hv
        rw [hheap, Heap.get_alloc (hinv.separate name v hv).1]
        exact h name v hv

/-- The traffic leaves the upstreams of the registry as they were made. -/
theorem Untouched.traffic (h : Untouched s) (hinv : Reporting.Inv s) {op : Op}
    (hstep : Reporting.traffic F hashKey search s op = some s') : Untouched s' := by
  obtain ⟨loadBalancer, loadBalancer', hbefore, -, htraffic, happly, hregistry, -⟩ :=
    Reporting.effect_of_traffic hstep
  intro name v hv
  rw [hregistry] at hv
  have hmem := Reporting.mem_loadBalancers hbefore
  rw [get_of_apply htraffic happly ((hinv.separate name v hv).2 loadBalancer hmem)]
  exact h name v hv

/-- In every state of the router and its traffic the upstreams of the registry are as they were
made. -/
theorem untouched_of_run {now : ℕ} {es : List Reporting.Event}
    (hrun : (Reporting.machine F fromBytes hashKey search config).run (Reporting.initial now) es =
      some s) : Untouched s := by
  refine (Reporting.machine F fromBytes hashKey search config).run_induction
    (Q := fun _ t => Untouched t) ?_ ?_ hrun
  · intro name v hv
    exact absurd hv (by simp [Reporting.initial, Startup.State.initial, MetricsRegistry.new])
  · intro es e t t' ht ih hstep
    have hinv := Reporting.Inv.of_run ht
    cases e with
    | router e => exact ih.effect hinv (Reporting.effect_of_step hstep)
    | traffic op => exact ih.traffic hinv hstep

end registry

/-! ## Runs -/

section runs

variable {F : Type} [ScoreArith F] {fromBytes : String → Except String String}
  {hashKey : String → U64} {search : BinarySearch U64} {config : Config} {s s' : State} {e : Event}

/-- What the observers write of the registry is not what the start task writes. -/
theorem modifyRegistry_router (s : State) {f : ExportedRegistry → ExportedRegistry}
    (hf : ∀ r, (f r).toMetricsRegistry = r.toMetricsRegistry) :
    (s.modifyRegistry f).router = s.router := by
  unfold State.modifyRegistry
  rw [hf]
  rfl

/-- Collecting metrics writes no more than the metrics of the proxies. -/
theorem foldl_updateProxyMetrics (metrics : List (ProxyType × ProxyMetrics))
    (r : ExportedRegistry) :
    (metrics.foldl (fun r entry => r.updateProxyMetrics entry.1.debug entry.2) r).toMetricsRegistry
      = r.toMetricsRegistry := by
  induction metrics generalizing r with
  | nil => rfl
  | cons entry metrics ih => exact ih _

/-- What one step does: the router moves, and nothing else changes; or the router stays, and the
metrics of the proxies change only when the collection task ticks. -/
theorem step_cases (h : (machine F fromBytes hashKey search config).step s e = some s') :
    (∃ e₁, (Reporting.machine F fromBytes hashKey search config).step s.router e₁ = some s'.router ∧
        s'.proxyMetrics = s.proxyMetrics) ∨
      (s'.router = s.router ∧
        (s'.proxyMetrics = s.proxyMetrics ∨ s.router.spawned.any isCollection = true)) := by
  cases e with
  | router e₁ =>
      obtain ⟨router, hrouter, rfl⟩ := Option.map_eq_some_iff.mp h
      exact Or.inl ⟨e₁, hrouter, rfl⟩
  | collectMetrics metrics =>
      simp only [machine, step] at h
      split_ifs at h with hcollect
      obtain rfl := Option.some.inj h
      exact Or.inr ⟨modifyRegistry_router s (foldl_updateProxyMetrics metrics),
        Or.inr hcollect.2.1⟩
  | monitorHealth =>
      simp only [machine, step] at h
      split_ifs at h
      obtain rfl := Option.some.inj h
      exact Or.inr ⟨rfl, Or.inl rfl⟩
  | collectMemory =>
      simp only [machine, step] at h
      split_ifs at h
      obtain rfl := Option.some.inj h
      exact Or.inr ⟨modifyRegistry_router s fun _ => rfl, Or.inl rfl⟩
  | metricsRequest path =>
      simp only [machine, step] at h
      split_ifs at h
      · obtain rfl := Option.some.inj h
        exact Or.inr ⟨modifyRegistry_router s fun _ => rfl, Or.inl rfl⟩
      · obtain rfl := Option.some.inj h
        exact Or.inr ⟨rfl, Or.inl rfl⟩
  | healthRequest path =>
      simp only [machine, step] at h
      split_ifs at h
      obtain rfl := Option.some.inj h
      exact Or.inr ⟨rfl, Or.inl rfl⟩

/-- The observers add nothing to what the router does. -/
theorem router_run {now : ℕ} {es : List Event}
    (hrun : (machine F fromBytes hashKey search config).run (initial now) es = some s) :
    ∃ fs, (Reporting.machine F fromBytes hashKey search config).run (Reporting.initial now) fs =
      some s.router := by
  refine (machine F fromBytes hashKey search config).run_preserves
    (I := fun s => ∃ fs, (Reporting.machine F fromBytes hashKey search config).run
      (Reporting.initial now) fs = some s.router) ?_ ⟨[], rfl⟩ hrun
  rintro t e t' ⟨fs, hfs⟩ hstep
  rcases step_cases hstep with ⟨e₁, hrouter, -⟩ | ⟨hrouter, -⟩
  · refine ⟨fs ++ [e₁], (Machine.run_append_eq_some _).mpr ⟨t.router, hfs, ?_⟩⟩
    rwa [Machine.run_singleton]
  · exact ⟨fs, by rw [hrouter, hfs]⟩

/-- With an instance configured, no metrics of a proxy are ever collected. -/
theorem proxyMetrics_of_run (hinst : config.proxyInstances ≠ []) {now : ℕ} {es : List Event}
    (hrun : (machine F fromBytes hashKey search config).run (initial now) es = some s) :
    s.proxyMetrics = ∅ := by
  refine (machine F fromBytes hashKey search config).run_induction
    (Q := fun _ t => t.proxyMetrics = ∅) rfl ?_ hrun
  intro es e t t' ht ih hstep
  obtain ⟨fs, hfs⟩ := router_run ht
  have hspawned := (unmonitored_of_run hinst hfs).2.spawned
  rcases step_cases hstep with ⟨e₁, -, hsame⟩ | ⟨-, hsame | hcollect⟩
  · rw [hsame, ih]
  · rw [hsame, ih]
  · obtain ⟨task, htask, hcollection⟩ := List.any_eq_true.mp hcollect
    rcases hspawned task htask with rfl | rfl
    · exact absurd hcollection (by simp [isCollection])
    · exact absurd hcollection (by simp [isCollection])

/-- **What becomes of a start with instances.** When an instance is configured, in every reachable
state: the metrics server and the health server are all that is spawned, and no periodic task of the
router; no instance is tracked; `start` has not returned successfully; and the metrics that are
exported are none of a proxy and say that there is no instance. -/
theorem never_monitored [DisplayFloat F] (hinst : config.proxyInstances ≠ []) {now : ℕ}
    {es : List Event}
    (hrun : (machine F fromBytes hashKey search config).run (initial now) es = some s) :
    (∀ t ∈ s.router.spawned, t = .metricsServer ∨ t = .healthServer) ∧
      s.router.runningInstances = ∅ ∧ s.router.pc ≠ .finished (.ok ()) ∧
      (∀ m ∈ (s.registry.getMetricsSummary F s.router.heap s.router.now).metrics F, ∀ name,
        m.label ≠ some ("instance", name)) ∧
      (s.registry.getMetricsSummary F s.router.heap s.router.now).proxyInstancesTotal = 0 := by
  obtain ⟨fs, hfs⟩ := router_run hrun
  obtain ⟨hinv, h⟩ := unmonitored_of_run hinst hfs
  refine ⟨h.spawned, h.running, fun hpc => ?_, fun m hm name hlabel => ?_, h.total⟩
  · exact hinst (hinv.pending [] (by rw [hpc]; rfl)).symm
  · rcases metrics_cases hm with hm | ⟨entry, hentry, -⟩ | ⟨entry, -, hm⟩
    · rw [label_systemMetrics _ m hm] at hlabel
      exact absurd hlabel (by simp)
    · have hnone := proxyMetrics_of_run hinst hrun
      unfold ExportedRegistry.getMetricsSummary State.registry at hentry
      unfold ExportedRegistry.updateUptime at hentry
      rw [hnone] at hentry
      exact absurd hentry (by simp)
    · rw [label_upstreamMetrics _ _ m hm] at hlabel
      exact absurd hlabel (by simp)

/-- **The answers do not depend on what happens.** Whatever the handlers record and whichever health
is reported, in every reachable state the metrics server reports each upstream as it was made, and,
unless its metrics have that path, answers a health check with 200, the status `unknown` and no
healthy or unhealthy proxy or upstream. -/
theorem health_blind [DisplayFloat F] {now : ℕ} {es : List Event}
    (hrun : (machine F fromBytes hashKey search config).run (initial now) es = some s)
    (unixTime : ℕ) :
    (∀ entry ∈ (s.registry.getMetricsSummary F s.router.heap s.router.now).upstreams,
        ∃ c made, entry.2 = MetricsRegistry.snapshot F entry.1 (.new c made)) ∧
      (config.global.metrics.path ≠ "/health" →
        ∃ uptimeSeconds, s.metricsResponse F config unixTime "/health" =
          ⟨200, some "application/json", .json ⟨.unknown, uptimeSeconds, 0, 0, 0, 0, unixTime,
            "System status unknown or starting up"⟩⟩) := by
  obtain ⟨fs, hfs⟩ := router_run hrun
  have huntouched := untouched_of_run hfs
  have hentries : ∀ entry ∈ s.router.registry.upstreamMetrics.entries,
      ∃ c made, s.router.heap.get entry.2 = .new c made := by
    rintro ⟨name, v⟩ hentry
    obtain ⟨c, made, hv, -⟩ := huntouched name v (AList.mem_lookup_iff.mpr hentry)
    exact ⟨c, made, hv⟩
  constructor
  · intro entry hentry
    obtain ⟨⟨name, v⟩, hmem, rfl⟩ := List.mem_map.mp hentry
    obtain ⟨c, made, hv⟩ := hentries _ hmem
    exact ⟨c, made, by rw [hv]⟩
  · intro hpath
    have hunknown : ∀ entry ∈ s.router.registry.upstreamMetrics.entries,
        (s.router.heap.get entry.2).healthState = .unknown := by
      intro entry hentry
      obtain ⟨c, made, hv⟩ := hentries entry hentry
      rw [hv]
      rfl
    refine ⟨(s.registry.updateUptime s.router.now).uptimeSeconds, ?_⟩
    unfold State.metricsResponse MetricsServer.handleRequest
    rw [if_neg (Ne.symm hpath), if_pos rfl, s.registry.getSystemHealth_of_unknown hunknown]

/-- **When `start` returns.** There is a run in which `start` returns successfully exactly when no
instance is configured. -/
theorem start_returns_iff (now : ℕ) :
    (∃ es s, (machine F fromBytes hashKey search config).run (initial now) es = some s ∧
      s.router.pc = .finished (.ok ())) ↔ config.proxyInstances = [] := by
  constructor
  · rintro ⟨es, s, hrun, hpc⟩
    by_contra hinst
    obtain ⟨fs, hfs⟩ := router_run hrun
    have hpending := (unmonitored_of_run hinst hfs).1.pending [] (by rw [hpc]; rfl)
    exact hinst hpending.symm
  · intro hinst
    -- the start task comes to its wait, is told to shut down, and shuts down
    refine ⟨List.replicate 6 (Event.router (.router .step)) ++
      [Event.router (.router .triggerShutdown)] ++
        List.replicate 2 (Event.router (.router .step)), ?_⟩
    simp [Machine.run, machine, step, Reporting.machine, Reporting.initial, initial,
      Startup.State.step, Startup.State.ownStep, Startup.State.initial, hinst, List.replicate]

end runs

/-! ## One instance -/

/-- The machine of one TCP instance with one upstream. -/
abbrev exampleMachine : Machine State Event :=
  machine ℚ .ok (fun key => key.hash.toFin) (.linear U64) (Startup.exampleConfig ["tcp-a"])

/-- A connection comes and ends well, and the upstream's health is reported to be bad; the memory
usage is collected and both servers are asked. -/
def oneConnectionObserved : List Event :=
  (Reporting.untilSelected ++ Reporting.oneConnection ++
      [Reporting.Event.traffic (.updateUpstreamHealth "backend" .unhealthy 20)]).map Event.router ++
    [.collectMemory, .metricsRequest "/metrics", .healthRequest "/health"]

/-- Nothing of the served connection is exported. -/
theorem never_monitored_oneConnection :
    ∃ s, exampleMachine.run (initial 0) oneConnectionObserved = some s ∧
      (∀ t ∈ s.router.spawned, t = .metricsServer ∨ t = .healthServer) ∧
      s.router.runningInstances = ∅ ∧
      (s.registry.getMetricsSummary ℚ s.router.heap s.router.now).proxyInstancesTotal = 0 := by
  obtain ⟨s, hs⟩ : ∃ s, exampleMachine.run (initial 0) oneConnectionObserved = some s := ⟨_, rfl⟩
  obtain ⟨hspawned, hrunning, -, -, htotal⟩ := never_monitored (by decide) hs
  exact ⟨s, hs, hspawned, hrunning, htotal⟩

/-- The upstream is unhealthy, and the answer is 200. -/
theorem health_blind_oneConnection :
    ∃ s, exampleMachine.run (initial 0) oneConnectionObserved = some s ∧
      (s.router.heap.get 0).healthState = .unhealthy ∧
      (s.metricsResponse ℚ (Startup.exampleConfig ["tcp-a"]) 0 "/health").status = 200 := by
  obtain ⟨s, hs, hhealth⟩ : ∃ s, exampleMachine.run (initial 0) oneConnectionObserved = some s ∧
      (s.router.heap.get 0).healthState = .unhealthy := ⟨_, rfl, rfl⟩
  obtain ⟨-, hanswer⟩ := health_blind hs 0
  obtain ⟨uptimeSeconds, hresponse⟩ := hanswer (by decide)
  exact ⟨s, hs, hhealth, by rw [hresponse]⟩

end Monitoring

end HarbrRouter
