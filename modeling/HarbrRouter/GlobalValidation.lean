import HarbrRouter.Startup

/-!
# What the validation of the global section leaves out

`Config::validate` looks for duplicate listen addresses among the instances only, although the
metrics server and the health server bind a socket as well; and `GlobalConfig::validate` looks at
the metrics interval only where the metrics server is enabled, although the collection of the
metrics is started in any case.

**Theorem** (`tcpListeners_nodup_iff`): the addresses of an accepted configuration differ exactly
when those of the two servers are no instance's and not each other's. The instances have distinct
addresses by validation (`instanceListeners_nodup`), and the servers add one address each at most.

**Theorem** (`periods_nonzero_iff`): no run makes a periodic task with the period zero exactly when
the interval is not zero or there is an instance, which the start never gets past. (⇐) Of the tasks
that a run spawns (`spawned_known`) the metrics server has the interval for its period where it is
enabled, which validation has looked at, and the collection of the metrics where there is no
instance. (⇒) Without an instance the fourth step spawns that collection.
-/

set_option autoImplicit false

namespace HarbrRouter.Startup

open Transition Routing

/-! ## Listen addresses -/

section listeners

variable (config : Config)

/-- Source: `router.rs`, `Router::new` and `metrics.rs`, `MetricsServer::start` -/
def metricsListeners : List SocketAddr :=
  if config.global.metrics.enabled then [config.global.metrics.listenAddr] else []

/-- Source: `router.rs`, `Router::new` and `server.rs`, `HealthServer::start` -/
def healthListeners : List SocketAddr :=
  if config.global.healthCheck.enabled then [config.global.healthCheck.listenAddr] else []

/-- The addresses of the HTTP and the TCP instances.
Source: `proxy/http.rs`, `HttpProxy::start` and `proxy/tcp.rs`, `TcpProxy::start` -/
def instanceListeners : List SocketAddr :=
  (config.proxyInstances.filter fun inst => inst.proxyType ≠ .udp).map
    ProxyInstanceConfig.listenAddr

/-- The addresses to which the router binds a TCP socket. Source: `router.rs`, `Router::start` -/
def tcpListeners : List SocketAddr :=
  metricsListeners config ++ (healthListeners config ++ instanceListeners config)

variable {config}

/-- The instances of an accepted configuration have distinct addresses. -/
theorem instanceListeners_nodup (h : config.validate.2 = .ok ()) :
    (instanceListeners config).Nodup :=
  (Config.validate_ok_iff.mp h).listenAddrs.sublist (List.filter_sublist.map _)

/-- An enabled server has its address, and a disabled one none. -/
theorem mem_metricsListeners {addr : SocketAddr} :
    addr ∈ metricsListeners config ↔
      config.global.metrics.enabled = true ∧ addr = config.global.metrics.listenAddr := by
  unfold metricsListeners
  split_ifs with henabled <;> simp [henabled]

/-- An enabled server has its address, and a disabled one none. -/
theorem mem_healthListeners {addr : SocketAddr} :
    addr ∈ healthListeners config ↔
      config.global.healthCheck.enabled = true ∧ addr = config.global.healthCheck.listenAddr := by
  unfold healthListeners
  split_ifs with henabled <;> simp [henabled]

end listeners

/-- The addresses of the two servers are no instance's and not each other's. -/
structure ServersApart (config : Config) : Prop where
  metrics : config.global.metrics.enabled = true →
    config.global.metrics.listenAddr ∉ instanceListeners config
  health : config.global.healthCheck.enabled = true →
    config.global.healthCheck.listenAddr ∉ instanceListeners config
  servers : config.global.metrics.enabled = true → config.global.healthCheck.enabled = true →
    config.global.metrics.listenAddr ≠ config.global.healthCheck.listenAddr

/-- **When the listen addresses differ.** The TCP sockets of an accepted configuration have pairwise
distinct addresses if and only if the addresses of the enabled metrics and health servers are none
of an HTTP or TCP instance and differ from each other. -/
theorem tcpListeners_nodup_iff (config : Config) (h : config.validate.2 = .ok ()) :
    (tcpListeners config).Nodup ↔ ServersApart config := by
  have hmetrics : (metricsListeners config).Nodup := by
    unfold metricsListeners
    split_ifs <;> simp
  have hhealth : (healthListeners config).Nodup := by
    unfold healthListeners
    split_ifs <;> simp
  rw [tcpListeners, List.nodup_append', List.nodup_append']
  constructor
  · rintro ⟨-, ⟨-, -, hhealthInstances⟩, hmetricsRest⟩
    refine ⟨fun henabled hmem => ?_, fun henabled hmem => ?_, fun hm hh heq => ?_⟩
    · exact hmetricsRest (mem_metricsListeners.mpr ⟨henabled, rfl⟩) (List.mem_append_right _ hmem)
    · exact hhealthInstances (mem_healthListeners.mpr ⟨henabled, rfl⟩) hmem
    · exact hmetricsRest (mem_metricsListeners.mpr ⟨hm, rfl⟩)
        (List.mem_append_left _ (mem_healthListeners.mpr ⟨hh, heq⟩))
  · intro hapart
    refine ⟨hmetrics, ⟨hhealth, instanceListeners_nodup h, fun addr hh hinst => ?_⟩,
      fun addr hm hrest => ?_⟩
    · obtain ⟨henabled, rfl⟩ := mem_healthListeners.mp hh
      exact hapart.health henabled hinst
    · obtain ⟨henabled, rfl⟩ := mem_metricsListeners.mp hm
      rcases List.mem_append.mp hrest with hh | hinst
      · obtain ⟨hhenabled, heq⟩ := mem_healthListeners.mp hh
        exact hapart.servers henabled hhenabled heq
      · exact hapart.metrics henabled hinst

/-- An HTTP instance, under the default global section. -/
def webConfig (port : UInt16) : Config :=
  ⟨.default, [⟨"web_proxy", .http, .v4 ⟨0, 0, 0, 0⟩ port,
    [⟨"frontend", "10.0.0.1:3000", 1, 0, 5000⟩], .default⟩]⟩

/-- On another port than those of the servers it is apart from them. -/
theorem tcpListeners_nodup_iff_web : (tcpListeners (webConfig 80)).Nodup :=
  (tcpListeners_nodup_iff (webConfig 80) (by decide)).mpr
    ⟨by decide, by decide, by decide⟩

/-- On port 8080 it has the address of the health server. -/
theorem healthServer_clashes :
    (webConfig 8080).validate.2 = .ok () ∧ ¬ (tcpListeners (webConfig 8080)).Nodup := by
  decide

/-! ## Periods -/

section periods

variable {fromBytes : String → Except String String} {hashKey : String → U64} {config : Config}
  {heap : Heap} {registry : MetricsRegistry} {now : ℕ} {s s' : State}

/-- The periods, in seconds, of the periodic tasks that a spawned task makes or is.
Source: `metrics.rs`, `MetricsServer::start` and `MetricsServer::start_memory_collection`;
`router.rs`, `Router::start_metrics_collection_task` and `Router::start_health_monitoring_task` -/
def Spawned.periods (metrics : MetricsConfig) : Spawned → List ℕ
  | .metricsServer => if metrics.enabled then [metrics.intervalSecs] else []
  | .healthServer => []
  | .metricsCollection intervalSecs => [intervalSecs]
  | .healthMonitoring intervalSecs => [intervalSecs]

/-- The period of the cleanup task that an instance starts.
Source: `proxy/udp.rs`, `UdpProxy::start` and `UdpProxy::run_session_cleanup` -/
def cleanupPeriods (inst : ProxyInstanceConfig) : List ℕ :=
  if inst.proxyType = .udp then [60] else []

/-- The periods of the periodic tasks that run in a state. -/
def State.periods (config : Config) (s : State) : List ℕ :=
  s.spawned.flatMap (Spawned.periods config.global.metrics) ++ s.serving.flatMap cleanupPeriods

/-- In a step of its own the start task spawns at most one task, each kind where the source does. -/
theorem ownStep_spawned (h : s.ownStep fromBytes hashKey config = some s') :
    s'.spawned = s.spawned ∨ ∃ task, s'.spawned = s.spawned ++ [task] ∧
      (task = .metricsServer ∧ config.global.metrics.enabled = true ∨ task = .healthServer ∨
        task = .metricsCollection config.global.metrics.intervalSecs ∧ s.pc = .metricsCollection ∨
        task = .healthMonitoring 30) := by
  unfold State.ownStep at h
  cases hpc : s.pc with
  | metricsServer =>
      obtain rfl := Option.some.inj (hpc ▸ h)
      by_cases henabled : config.global.metrics.enabled = true
      · exact Or.inr ⟨.metricsServer, by simp [henabled], Or.inl ⟨rfl, henabled⟩⟩
      · exact Or.inl (by simp [henabled])
  | healthServer =>
      obtain rfl := Option.some.inj (hpc ▸ h)
      by_cases henabled : config.global.healthCheck.enabled = true
      · exact Or.inr ⟨.healthServer, by simp [henabled], Or.inr (Or.inl rfl)⟩
      · exact Or.inl (by simp [henabled])
  | metricsCollection =>
      obtain rfl := Option.some.inj (hpc ▸ h)
      exact Or.inr ⟨_, rfl, Or.inr (Or.inr (Or.inl ⟨rfl, rfl⟩))⟩
  | healthMonitoring =>
      obtain rfl := Option.some.inj (hpc ▸ h)
      exact Or.inr ⟨_, rfl, Or.inr (Or.inr (Or.inr rfl))⟩
  | nextInstance rest =>
      cases rest <;> obtain rfl := Option.some.inj (hpc ▸ h) <;> exact Or.inl rfl
  | starting inst rest pc =>
      have hstep : s.stepInstance fromBytes hashKey inst rest pc = some s' := by
        simpa only [hpc] using h
      apply Or.inl
      unfold State.stepInstance at hstep
      split at hstep
      · obtain rfl := Option.some.inj hstep
        rfl
      · obtain rfl := Option.some.inj hstep
        rfl
      · obtain rfl := Option.some.inj hstep
        rfl
      · split at hstep <;> obtain rfl := Option.some.inj hstep <;> rfl
      · obtain rfl := Option.some.inj hstep
        rfl
      · obtain rfl := Option.some.inj hstep
        rfl
      · split_ifs at hstep
        obtain rfl := Option.some.inj hstep
        rfl
      · obtain rfl := Option.some.inj hstep
        rfl
  | instancesCount | proxyShutdown | componentShutdown =>
      obtain rfl := Option.some.inj (hpc ▸ h)
      exact Or.inl rfl
  | waiting | finished | panicked | killed => exact absurd (hpc ▸ h) (by simp)

/-- An event from outside spawns no task. -/
theorem step_spawned {e : Event} (he : e ≠ .step)
    (h : s.step fromBytes hashKey config e = some s') : s'.spawned = s.spawned := by
  cases e with
  | step => exact absurd rfl he
  | advance ns =>
      obtain rfl := Option.some.inj h
      rfl
  | client name =>
      simp only [State.step] at h
      split_ifs at h
      obtain rfl := Option.some.inj h
      rfl
  | serverError e =>
      simp only [State.step] at h
      split at h
      · split_ifs at h
        obtain rfl := Option.some.inj h
        rfl
      · exact absurd h (by simp)
  | bindFailed | sigtermFailed =>
      simp only [State.step] at h
      split at h
      · obtain rfl := Option.some.inj h
        rfl
      · exact absurd h (by simp)
  | triggerShutdown =>
      simp only [State.step] at h
      split at h <;> obtain rfl := Option.some.inj h <;> rfl
  | signal =>
      simp only [State.step] at h
      split at h
      · obtain rfl := Option.some.inj h
        rfl
      · obtain rfl := Option.some.inj h
        rfl
      · obtain rfl := Option.some.inj h
        rfl
      · exact absurd h (by simp)
      · exact absurd h (by simp)
      · exact absurd h (by simp)
      · obtain rfl := Option.some.inj h
        rfl

/-- The tasks that run, and that the metrics are collected only where there is no instance. -/
def KnownTask (config : Config) (task : Spawned) : Prop :=
  task = .metricsServer ∧ config.global.metrics.enabled = true ∨ task = .healthServer ∨
    task = .metricsCollection config.global.metrics.intervalSecs ∧ config.proxyInstances = [] ∨
    task = .healthMonitoring 30

/-- In every state of a run the spawned tasks are known ones. -/
theorem spawned_known {es : List Event}
    (hrun : (machine fromBytes hashKey config).run (.initial heap registry now) es = some s) :
    ∀ task ∈ s.spawned, KnownTask config task := by
  have hinit : (machine fromBytes hashKey config).run (.initial heap registry now) [] =
      some (.initial heap registry now) := rfl
  have hinv := (machine fromBytes hashKey config).run_preserves
    (I := fun s => Inv fromBytes config s ∧ ∀ task ∈ s.spawned, KnownTask config task) ?_
    ⟨Inv.of_run hinit, by simp [State.initial]⟩ hrun
  · exact hinv.2
  · rintro s e s' ⟨hinv, htasks⟩ hstep
    refine ⟨hinv.step hstep, ?_⟩
    by_cases he : e = .step
    · subst he
      rcases ownStep_spawned hstep with heq | ⟨task, heq, htask⟩
      · rwa [heq]
      · rw [heq]
        refine List.forall_mem_append.mpr ⟨htasks, List.forall_mem_singleton.mpr ?_⟩
        rcases htask with h | h | ⟨rfl, hpc⟩ | h
        · exact Or.inl h
        · exact Or.inr (Or.inl h)
        · -- the loop is behind all instances, and it never gets past the first one
          exact Or.inr (Or.inr (Or.inl ⟨rfl, (hinv.pending [] (by rw [hpc]; rfl)).symm⟩))
        · exact Or.inr (Or.inr (Or.inr h))
    · rwa [step_spawned he hstep]

/-- **When no period is zero.** No run of an accepted configuration makes a periodic task with the
period zero if and only if the metrics interval is not zero or there is an instance, which the start
task serves and does not get past. -/
theorem periods_nonzero_iff (fromBytes : String → Except String String) (hashKey : String → U64)
    (config : Config) (heap : Heap) (registry : MetricsRegistry) (now : ℕ)
    (h : config.validate.2 = .ok ()) :
    (∀ es s, (machine fromBytes hashKey config).run (.initial heap registry now) es = some s →
      ∀ period ∈ s.periods config, period ≠ 0) ↔
      config.global.metrics.intervalSecs ≠ 0 ∨ config.proxyInstances ≠ [] := by
  constructor
  · intro hall
    by_contra! hzero
    obtain ⟨hinterval, hnil⟩ := hzero
    obtain ⟨s, hrun, hspawned⟩ : ∃ s, (machine fromBytes hashKey config).run
        (.initial heap registry now) (List.replicate 4 .step) = some s ∧
        .metricsCollection config.global.metrics.intervalSecs ∈ s.spawned := by
      simp [Machine.run, machine, State.step, State.ownStep, State.initial, hnil, List.replicate]
    refine hall _ s hrun 0 (List.mem_append_left _ (List.mem_flatMap.mpr ⟨_, hspawned, ?_⟩)) rfl
    simp [Spawned.periods, hinterval]
  · intro hcondition es s hrun period hperiod
    rcases List.mem_append.mp hperiod with hmem | hmem
    · obtain ⟨task, htask, hperiod⟩ := List.mem_flatMap.mp hmem
      rcases spawned_known hrun task htask with ⟨rfl, henabled⟩ | rfl | ⟨rfl, hnil⟩ | rfl
      · obtain rfl : period = _ := by simpa [Spawned.periods, henabled] using hperiod
        exact (GlobalConfig.validate_ok_iff.mp (Config.validate_ok_iff.mp h).global).interval
          henabled
      · simp [Spawned.periods] at hperiod
      · obtain rfl : period = _ := by simpa [Spawned.periods] using hperiod
        exact hcondition.resolve_right (not_not.mpr hnil)
      · obtain rfl : period = _ := by simpa [Spawned.periods] using hperiod
        decide
    · obtain ⟨inst, -, hperiod⟩ := List.mem_flatMap.mp hmem
      unfold cleanupPeriods at hperiod
      split_ifs at hperiod
      · obtain rfl := List.mem_singleton.mp hperiod
        decide
      · simp at hperiod

end periods

/-- The metrics are disabled and there is nothing to serve. -/
def idleConfig (intervalSecs : ℕ) : Config :=
  ⟨{ GlobalConfig.default with
    metrics := { GlobalConfig.default.metrics with enabled := false, intervalSecs } }, []⟩

/-- With an interval of a minute no period is ever zero. -/
theorem periods_nonzero_iff_idle : (idleConfig 60).validate.2 = .ok () ∧
    ∀ es s, (machine .ok (fun _ => 0) (idleConfig 60)).run (.initial .empty .new 0) es = some s →
      ∀ period ∈ s.periods (idleConfig 60), period ≠ 0 :=
  ⟨by decide, (periods_nonzero_iff .ok (fun _ => 0) (idleConfig 60) .empty .new 0
    (by decide)).mpr (Or.inl (by decide))⟩

/-- With an interval of zero, which is accepted where the metrics are disabled, the collection of
the metrics is made with it. -/
theorem zeroPeriod_made :
    (idleConfig 0).validate.2 = .ok () ∧ ∃ es s,
      (machine .ok (fun _ => 0) (idleConfig 0)).run (.initial .empty .new 0) es = some s ∧
        0 ∈ s.periods (idleConfig 0) :=
  ⟨by decide, List.replicate 4 .step, _, rfl, by decide⟩

end HarbrRouter.Startup
