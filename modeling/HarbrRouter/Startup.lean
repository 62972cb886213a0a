import HarbrRouter.Lib.Transition
import HarbrRouter.Metrics
import HarbrRouter.Proxy.Manager
import HarbrRouter.Routing.Router

/-!
# The start of the router

`router.rs`, `Router::start`, with `ProxyManager::start_proxy` and the `start` of the three proxies
that it awaits. The start task is one task: it goes from await to await, and what it spawns (the
metrics and health servers, the periodic tasks, a handler for each client) runs beside it.

The accept loop of an instance returns when the manager's shutdown broadcast is received, and that
broadcast is sent after the wait for a shutdown signal, which comes after all instances: so the
first instance that is served is the last one to be started. `Inv` says so of every state
(`Inv.of_run`).

**Theorem** (`serving_head`): whatever happens, only the first configured instance is ever served.

**Theorem** (`servesAll_iff`): all instances are served whenever the start task has nothing to do,
exactly when there is at most one instance or the first one is not accepted by its proxy. (⇐) A
start task that waits without an error has nothing to serve or serves the first instance
(`Inv.of_quiescent`). (⇒) A first instance that is accepted does come to be served
(`exists_serving`), and the start task waits there, with the second one not served.
-/

set_option autoImplicit false

namespace HarbrRouter.Startup

open Transition Routing Proxy

/-! ## The start task -/

/-- The tasks that `start` spawns. -/
inductive Spawned where
  /-- `MetricsServer::start` -/
  | metricsServer
  /-- `HealthServer::start` -/
  | healthServer
  /-- Source: `router.rs`, `Router::start_metrics_collection_task` -/
  | metricsCollection (intervalSecs : ℕ)
  /-- Source: `router.rs`, `Router::start_health_monitoring_task` -/
  | healthMonitoring (intervalSecs : ℕ)
deriving DecidableEq, Repr

/-- The start of one instance. Source: `router.rs`, `Router::start_proxy_instance` -/
inductive InstancePc where
  /-- `LoadBalancer::new(strategy)` and `update_upstreams` -/
  | creating
  /-- `global_registry().add_upstream(..)`, for each of the upstreams that are left -/
  | registering (loadBalancer : Router) (upstreams : List UpstreamConfig)
  /-- `proxy.validate_config(&config)?` -/
  | validating (loadBalancer : Router)
  /-- `self.shutdown_sender.subscribe()` -/
  | subscribing (loadBalancer : Router)
  /-- The bind of the listen address; the receiver has seen so many messages. -/
  | binding (loadBalancer : Router) (seen : ℕ)
  /-- The accept loop, packet loop or server of the proxy. -/
  | serving (loadBalancer : Router) (seen : ℕ)
  /-- `self.running_instances.insert(..)` -/
  | tracking (loadBalancer : Router)

/-- Where the start task is. Source: `router.rs`, `Router::start` -/
inductive StartPc where
  /-- `tokio::spawn` of the metrics server -/
  | metricsServer
  /-- `tokio::spawn` of the health server -/
  | healthServer
  /-- The head of the loop of `start_proxy_instances`. -/
  | nextInstance (rest : List ProxyInstanceConfig)
  /-- The start of an instance, which the loop awaits. -/
  | starting (config : ProxyInstanceConfig) (rest : List ProxyInstanceConfig) (pc : InstancePc)
  /-- `self.start_metrics_collection_task()` -/
  | metricsCollection
  /-- `self.start_health_monitoring_task()` -/
  | healthMonitoring
  /-- `global_registry().set_proxy_instances_count(..)` -/
  | instancesCount
  /-- `self.wait_for_shutdown()` -/
  | waiting
  /-- `self.proxy_manager.shutdown()` -/
  | proxyShutdown
  /-- The shutdown of the servers and `wait_for_component_shutdown`. -/
  | componentShutdown
  | finished (result : Result Unit)
  /-- `Server::bind` panics where the address cannot be bound. -/
  | panicked (message : String)
  /-- A signal that nobody handles ends the process. -/
  | killed

/-- The router while it starts. Source: `router.rs`, `Router` -/
structure State where
  pc : StartPc
  now : ℕ
  heap : Heap
  registry : MetricsRegistry
  spawned : List Spawned
  /-- The messages sent on the manager's shutdown broadcast. -/
  shutdownsSent : ℕ
  /-- The instances whose accept loop runs. -/
  serving : List ProxyInstanceConfig
  runningInstances : AList fun _ : String => Router
  /-- Was the router asked to shut down? -/
  shutdownRequested : Bool

/-- A step of the start task, a result of the operating system, or an event of the environment. -/
inductive Event where
  | step
  | bindFailed (e : String)
  /-- `server.await` fails. -/
  | serverError (e : String)
  /-- A client reaches the instance of that name. -/
  | client (name : String)
  /-- SIGINT or SIGTERM. -/
  | signal
  /-- `Router::trigger_shutdown` -/
  | triggerShutdown
  /-- The handler for SIGTERM cannot be registered. -/
  | sigtermFailed
  /-- The clock advances. -/
  | advance (ns : ℕ)
deriving DecidableEq, Repr

/-- The strategy of an instance. Source: `router.rs`, `Router::start_proxy_instance` -/
def strategy : ProxyType → LoadBalancingStrategy
  | .http => .healthAware
  | .tcp => .leastConnections
  | .udp => .weightedRoundRobin

/-- What becomes of the start task when the address of an instance cannot be bound.
Source: `proxy/http.rs`, `proxy/tcp.rs` and `proxy/udp.rs`, `start` -/
def bindFailure (config : ProxyInstanceConfig) (e : String) : StartPc :=
  match config.proxyType with
  | .http => .panicked e
  | .tcp =>
      .finished (.error (.network
        ("Failed to bind to " ++ config.listenAddr.display ++ ": " ++ e) .connectionFailed))
  | .udp =>
      .finished (.error (.network
        ("Failed to bind UDP socket to " ++ config.listenAddr.display ++ ": " ++ e)
          .connectionFailed))

section machine

variable (fromBytes : String → Except String String) (hashKey : String → U64) (config : Config)

namespace State

/-- Before `start` is called. Source: `router.rs`, `Router::new` -/
def initial (heap : Heap) (registry : MetricsRegistry) (now : ℕ) : State :=
  ⟨.metricsServer, now, heap, registry, [], 0, [], ∅, false⟩

/-- Source: `router.rs`, `Router::start_proxy_instance`; `proxy.rs`, `ProxyManager::start_proxy`;
`start` of the three proxies -/
def stepInstance (s : State) (inst : ProxyInstanceConfig) (rest : List ProxyInstanceConfig) :
    InstancePc → Option State
  | .creating =>
      let (loadBalancer, heap) := (Router.new (strategy inst.proxyType)).updateUpstreams hashKey
        s.heap inst.upstreams s.now
      some { s with heap, pc := .starting inst rest (.registering loadBalancer inst.upstreams) }
  | .registering loadBalancer (upstream :: upstreams) =>
      -- a new `UpstreamInfo`, not the one of the load balancer
      let (heap, infos) := s.heap.alloc [.new upstream s.now]
      let registry := infos.foldl (fun r info => r.addUpstream heap info) s.registry
      let pc := StartPc.starting inst rest (.registering loadBalancer upstreams)
      some { s with heap, registry, pc }
  | .registering loadBalancer [] =>
      some { s with pc := .starting inst rest (.validating loadBalancer) }
  | .validating loadBalancer =>
      match ProxyManager.validateConfig fromBytes inst with
      | .error e => some { s with pc := .finished (.error e) }
      | .ok () => some { s with pc := .starting inst rest (.subscribing loadBalancer) }
  | .subscribing loadBalancer =>
      some { s with pc := .starting inst rest (.binding loadBalancer s.shutdownsSent) }
  | .binding loadBalancer seen =>
      let serving := s.serving ++ [inst]
      some { s with serving, pc := .starting inst rest (.serving loadBalancer seen) }
  | .serving loadBalancer seen =>
      if seen < s.shutdownsSent then
        let serving := s.serving.erase inst
        some { s with serving, pc := .starting inst rest (.tracking loadBalancer) }
      else none
  | .tracking loadBalancer =>
      let runningInstances := s.runningInstances.insert inst.name loadBalancer
      some { s with runningInstances, pc := .nextInstance rest }

/-- The next step of the start task, `none` where it waits or has ended.
Source: `router.rs`, `Router::start` and `Router::shutdown` -/
def ownStep (s : State) : Option State :=
  match s.pc with
  | .metricsServer =>
      let spawned := if config.global.metrics.enabled then s.spawned ++ [.metricsServer]
        else s.spawned
      some { s with spawned, pc := .healthServer }
  | .healthServer =>
      let spawned := if config.global.healthCheck.enabled then s.spawned ++ [.healthServer]
        else s.spawned
      some { s with spawned, pc := .nextInstance config.proxyInstances }
  | .nextInstance [] => some { s with pc := .metricsCollection }
  | .nextInstance (inst :: rest) => some { s with pc := .starting inst rest .creating }
  | .starting inst rest pc => s.stepInstance fromBytes hashKey inst rest pc
  | .metricsCollection =>
      let spawned := s.spawned ++ [.metricsCollection config.global.metrics.intervalSecs]
      some { s with spawned, pc := .healthMonitoring }
  | .healthMonitoring =>
      some { s with spawned := s.spawned ++ [.healthMonitoring 30], pc := .instancesCount }
  | .instancesCount =>
      let registry := s.registry.setProxyInstancesCount config.proxyInstances.length
      some { s with registry, pc := .waiting }
  | .waiting => none
  | .proxyShutdown =>
      some { s with shutdownsSent := s.shutdownsSent + 1, pc := .componentShutdown }
  | .componentShutdown => some { s with pc := .finished (.ok ()) }
  | .finished _ | .panicked _ | .killed => none

/-- One step of the router. SIGINT and SIGTERM are handled once the start task waits for them;
before that they end the process, and afterwards they do nothing. A programmatic shutdown reaches
the start task only while it waits: there is no other receiver.
Source: `router.rs`, `Router::start` and `Router::wait_for_shutdown` -/
def step (s : State) : Event → Option State
  | .step => s.ownStep fromBytes hashKey config
  | .bindFailed e =>
      match s.pc with
      | .starting inst _ (.binding _ _) => some { s with pc := bindFailure inst e }
      | _ => none
  | .serverError e =>
      match s.pc with
      | .starting inst _ (.serving _ _) =>
          if inst.proxyType = .http then
            let serving := s.serving.erase inst
            let error := Error.internal ("HTTP proxy server error: " ++ e)
            some { s with serving, pc := .finished (.error error) }
          else none
      | _ => none
  | .client name => if s.serving.any fun inst => inst.name = name then some s else none
  | .signal =>
      match s.pc with
      | .waiting => some { s with shutdownRequested := true, pc := .proxyShutdown }
      | .proxyShutdown | .componentShutdown => some { s with shutdownRequested := true }
      | .finished _ | .panicked _ | .killed => none
      | _ => some { s with shutdownRequested := true, serving := [], pc := .killed }
  | .triggerShutdown =>
      match s.pc with
      | .waiting => some { s with shutdownRequested := true, pc := .proxyShutdown }
      | _ => some { s with shutdownRequested := true }
  | .sigtermFailed =>
      match s.pc with
      | .waiting => some { s with pc := .proxyShutdown }
      | _ => none
  | .advance ns => some { s with now := s.now + ns }

end State

/-- The machine of the start task and its environment. -/
def machine : Machine State Event := ⟨State.step fromBytes hashKey config⟩

/-! ## What is asked of the start -/

namespace State

/-- No error has ended the start task. -/
def NoError (s : State) : Prop :=
  (∀ e, s.pc ≠ .finished (.error e)) ∧ ∀ message, s.pc ≠ .panicked message

/-- The start task can make no step of its own. -/
def Quiescent (s : State) : Prop := s.ownStep fromBytes hashKey config = none

/-- All configured instances are served. -/
def AllServing (s : State) : Prop := ∀ inst ∈ config.proxyInstances, inst ∈ s.serving

end State

/-- In every state that the start of the router reaches without an error and without a shutdown
request, and in which the start task can make no step of its own, all instances are served. -/
def ServesAll (heap : Heap) (registry : MetricsRegistry) (now : ℕ) : Prop :=
  ∀ es s, (machine fromBytes hashKey config).run (.initial heap registry now) es = some s →
    s.NoError → s.shutdownRequested = false → s.Quiescent fromBytes hashKey config →
      s.AllServing config

/-! ## What is true in every state -/

/-- The instance whose accept loop the start task is in. -/
def StartPc.served : StartPc → Option ProxyInstanceConfig
  | .starting inst _ (.serving _ _) => some inst
  | _ => none

/-- The instances that the loop of `start_proxy_instances` has not come past, where the start task
is in it or behind it and no error has ended it. -/
def StartPc.pending : StartPc → Option (List ProxyInstanceConfig)
  | .nextInstance rest => some rest
  | .starting inst rest _ => some (inst :: rest)
  | .metricsServer | .healthServer | .finished (.error _) | .panicked _ | .killed => none
  | _ => some []

/-- The instance that has passed the check of its proxy and that the start task has not left. -/
def StartPc.accepted : StartPc → Option ProxyInstanceConfig
  | .starting inst _ (.subscribing _) | .starting inst _ (.binding _ _)
  | .starting inst _ (.serving _ _) | .starting inst _ (.tracking _) => some inst
  | _ => none

/-- The invariant of the start. -/
structure Inv (s : State) : Prop where
  /-- No instance is served but the one that the start task waits for. -/
  served : s.serving = s.pc.served.toList
  /-- The loop never comes past its first instance. -/
  pending : ∀ rest, s.pc.pending = some rest → rest = config.proxyInstances
  accepted : ∀ inst, s.pc.accepted = some inst → ProxyManager.validateConfig fromBytes inst = .ok ()
  /-- The broadcast of the manager is sent when nobody is served any more. -/
  unsent : 0 < s.shutdownsSent → s.pc = .componentShutdown ∨ s.pc = .finished (.ok ())
  untracked : ∀ inst rest loadBalancer, s.pc ≠ .starting inst rest (.tracking loadBalancer)
  killed : s.pc = .killed → s.shutdownRequested = true

namespace Inv

variable {fromBytes hashKey config} {s s' : State}

/-- The invariant is kept when the start task goes on, before the shutdown, to where it serves
nobody and has nobody checked. -/
theorem goOn (h : Inv fromBytes config s) {pc pc' : StartPc} (hpc : s.pc = pc)
    (hold : pc ≠ .componentShutdown ∧ pc ≠ .finished (.ok ()) ∧ pc.served = none)
    (hnew : s'.pc = pc' ∧ pc' ≠ .killed ∧ pc'.served = none ∧ pc'.accepted = none)
    (hpending : ∀ rest, pc'.pending = some rest → rest = config.proxyInstances)
    (hserving : s'.serving = s.serving) (hsent : s'.shutdownsSent = s.shutdownsSent) :
    Inv fromBytes config s' := by
  subst hpc
  obtain ⟨rfl, hkilled, hserved', haccepted⟩ := hnew
  obtain ⟨hcomponent, hfinished, hserved⟩ := hold
  refine ⟨by rw [hserving, h.served, hserved, hserved'], hpending, by simp [haccepted],
    fun hpos => ?_, fun inst rest loadBalancer hpc => by simp [hpc, StartPc.accepted] at haccepted,
    fun hpc => absurd hpc hkilled⟩
  rcases h.unsent (hsent ▸ hpos) with hpc | hpc
  · exact absurd hpc hcomponent
  · exact absurd hpc hfinished

/-- A step in the start of an instance keeps the invariant. -/
theorem stepInstance (h : Inv fromBytes config s) {inst : ProxyInstanceConfig}
    {rest : List ProxyInstanceConfig} {pc : InstancePc} (hpc : s.pc = .starting inst rest pc)
    (hstep : s.stepInstance fromBytes hashKey inst rest pc = some s') :
    Inv fromBytes config s' := by
  have hrest : ∀ l, some (inst :: rest) = some l → l = config.proxyInstances := fun l hl =>
    h.pending l (by rw [hpc, ← hl]; rfl)
  have hserved := h.served
  have hzero : s.shutdownsSent = 0 := by simpa [hpc] using h.unsent
  cases pc with
  | creating =>
      obtain rfl := Option.some.inj hstep
      exact h.goOn hpc (by simp [StartPc.served]) ⟨rfl, by simp, rfl, rfl⟩ hrest rfl rfl
  | registering loadBalancer upstreams =>
      cases upstreams with
      | nil =>
          obtain rfl := Option.some.inj hstep
          exact h.goOn hpc (by simp [StartPc.served]) ⟨rfl, by simp, rfl, rfl⟩ hrest rfl rfl
      | cons upstream upstreams =>
          obtain rfl := Option.some.inj hstep
          exact h.goOn hpc (by simp [StartPc.served]) ⟨rfl, by simp, rfl, rfl⟩ hrest rfl rfl
  | validating loadBalancer =>
      simp only [State.stepInstance] at hstep
      split at hstep
      · obtain rfl := Option.some.inj hstep
        exact h.goOn hpc (by simp [StartPc.served]) ⟨rfl, by simp, rfl, rfl⟩
          (by simp [StartPc.pending]) rfl rfl
      · next hok =>
          obtain rfl := Option.some.inj hstep
          rw [hpc] at hserved
          refine ⟨hserved, hrest, fun inst' hinst => ?_, by simp [hzero], by simp, by simp⟩
          obtain rfl := Option.some.inj hinst
          exact hok
  | subscribing loadBalancer =>
      obtain rfl := Option.some.inj hstep
      rw [hpc] at hserved
      exact ⟨hserved, hrest, fun inst' hinst => h.accepted inst' (by rw [hpc]; exact hinst),
        by simp [hzero], by simp, by simp⟩
  | binding loadBalancer seen =>
      obtain rfl := Option.some.inj hstep
      rw [hpc] at hserved
      refine ⟨?_, hrest, fun inst' hinst => h.accepted inst' (by rw [hpc]; exact hinst),
        by simp [hzero], by simp, by simp⟩
      simp [hserved, StartPc.served]
  | serving loadBalancer seen => simp [State.stepInstance, hzero] at hstep
  | tracking loadBalancer => exact absurd hpc (h.untracked _ _ _)

/-- A step of the start task keeps the invariant. -/
theorem ownStep (h : Inv fromBytes config s)
    (hstep : s.ownStep fromBytes hashKey config = some s') : Inv fromBytes config s' := by
  have hpending := h.pending
  have hserved := h.served
  unfold State.ownStep at hstep
  cases hpc : s.pc with
  | metricsServer =>
      obtain rfl := Option.some.inj (hpc ▸ hstep)
      exact h.goOn hpc (by simp [StartPc.served]) ⟨rfl, by simp, rfl, rfl⟩
        (by simp [StartPc.pending]) rfl rfl
  | healthServer =>
      obtain rfl := Option.some.inj (hpc ▸ hstep)
      exact h.goOn hpc (by simp [StartPc.served]) ⟨rfl, by simp, rfl, rfl⟩
        (by simp [StartPc.pending]) rfl rfl
  | nextInstance rest =>
      rw [hpc] at hpending
      cases rest <;> obtain rfl := Option.some.inj (hpc ▸ hstep) <;>
        exact h.goOn hpc (by simp [StartPc.served]) ⟨rfl, by simp, rfl, rfl⟩ hpending rfl rfl
  | starting inst rest pc => exact h.stepInstance hpc (hpc ▸ hstep)
  | metricsCollection | healthMonitoring | instancesCount =>
      rw [hpc] at hpending
      obtain rfl := Option.some.inj (hpc ▸ hstep)
      exact h.goOn hpc (by simp [StartPc.served]) ⟨rfl, by simp, rfl, rfl⟩ hpending rfl rfl
  | proxyShutdown | componentShutdown =>
      obtain rfl := Option.some.inj (hpc ▸ hstep)
      rw [hpc] at hserved hpending
      exact ⟨hserved, hpending, by simp [StartPc.accepted], by simp, by simp, by simp⟩
  | waiting | finished | panicked | killed => exact absurd (hpc ▸ hstep) (by simp)

/-- A shutdown that nobody handles yet, or that is only noted, keeps the invariant. -/
theorem requested (h : Inv fromBytes config s) :
    Inv fromBytes config { s with shutdownRequested := true } :=
  ⟨h.served, h.pending, h.accepted, h.unsent, h.untracked, fun _ => rfl⟩

/-- The end of the wait for a shutdown keeps the invariant. -/
theorem shutdown (h : Inv fromBytes config s) (hpc : s.pc = .waiting) :
    Inv fromBytes config { s with pc := .proxyShutdown } := by
  have hpending := h.pending
  rw [hpc] at hpending
  exact h.goOn hpc (by simp [StartPc.served]) ⟨rfl, by simp, rfl, rfl⟩ hpending rfl rfl

/-- A step of the router keeps the invariant. -/
theorem step (h : Inv fromBytes config s) {e : Event}
    (hstep : (machine fromBytes hashKey config).step s e = some s') : Inv fromBytes config s' := by
  cases e with
  | step => exact h.ownStep hstep
  | bindFailed e =>
      simp only [machine, State.step] at hstep
      split at hstep
      · next inst rest loadBalancer seen hpc =>
          obtain rfl := Option.some.inj hstep
          cases htype : inst.proxyType <;> simp only [bindFailure, htype] <;>
            exact h.goOn hpc (by simp [StartPc.served]) ⟨rfl, by simp, rfl, rfl⟩
              (by simp [StartPc.pending]) rfl rfl
      · exact absurd hstep (by simp)
  | serverError e =>
      simp only [machine, State.step] at hstep
      split at hstep
      · next inst rest loadBalancer seen hpc =>
          split_ifs at hstep
          obtain rfl := Option.some.inj hstep
          obtain ⟨hserved, -, -, hunsent, -, -⟩ := h
          rw [hpc] at hserved hunsent
          have hzero : s.shutdownsSent = 0 := by simpa using hunsent
          refine ⟨?_, by simp [StartPc.pending], by simp [StartPc.accepted], by simp [hzero],
            by simp, by simp⟩
          simp [hserved, StartPc.served]
      · exact absurd hstep (by simp)
  | client name =>
      simp only [machine, State.step] at hstep
      split_ifs at hstep
      obtain rfl := Option.some.inj hstep
      exact h
  | signal =>
      simp only [machine, State.step] at hstep
      split at hstep
      · next hpc =>
          obtain rfl := Option.some.inj hstep
          exact (h.shutdown hpc).requested
      · obtain rfl := Option.some.inj hstep
        exact h.requested
      · obtain rfl := Option.some.inj hstep
        exact h.requested
      · exact absurd hstep (by simp)
      · exact absurd hstep (by simp)
      · exact absurd hstep (by simp)
      · next hcomponent hfinished _ _ =>
          obtain rfl := Option.some.inj hstep
          refine ⟨rfl, by simp [StartPc.pending], by simp [StartPc.accepted], fun hsent => ?_,
            by simp, by simp⟩
          rcases h.unsent hsent with hpc | hpc
          · exact absurd hpc hcomponent
          · exact absurd hpc (hfinished _)
  | triggerShutdown =>
      simp only [machine, State.step] at hstep
      split at hstep
      · next hpc =>
          obtain rfl := Option.some.inj hstep
          exact (h.shutdown hpc).requested
      · obtain rfl := Option.some.inj hstep
        exact h.requested
  | sigtermFailed =>
      simp only [machine, State.step] at hstep
      split at hstep
      · next hpc =>
          obtain rfl := Option.some.inj hstep
          exact h.shutdown hpc
      · exact absurd hstep (by simp)
  | advance ns =>
      obtain rfl := Option.some.inj hstep
      exact ⟨h.served, h.pending, h.accepted, h.unsent, h.untracked, h.killed⟩

/-- The invariant holds in every state of a run. -/
theorem of_run {heap : Heap} {registry : MetricsRegistry} {now : ℕ} {es : List Event}
    (hrun : (machine fromBytes hashKey config).run (.initial heap registry now) es = some s) :
    Inv fromBytes config s := by
  refine (machine fromBytes hashKey config).run_preserves (fun _ _ _ h => h.step) ?_ hrun
  exact ⟨rfl, by simp [State.initial, StartPc.pending], by simp [State.initial, StartPc.accepted],
    by simp [State.initial], by simp [State.initial], by simp [State.initial]⟩

/-- Only the first of the configured instances is served. -/
theorem serving_isPrefix (h : Inv fromBytes config s) :
    s.serving <+: config.proxyInstances.take 1 := by
  rw [h.served]
  cases hpc : s.pc with
  | starting inst rest pc =>
      have hrest := h.pending (inst :: rest) (by rw [hpc]; rfl)
      cases pc <;> simp [StartPc.served, ← hrest]
  | _ => simp [StartPc.served]

/-- The start task waits, without an error and without a shutdown request, only where there is
nothing to serve or where the first instance is served. -/
theorem of_quiescent (h : Inv fromBytes config s) (hno : s.NoError)
    (hreq : s.shutdownRequested = false) (hquiet : s.Quiescent fromBytes hashKey config) :
    config.proxyInstances = [] ∨ ∃ first rest, config.proxyInstances = first :: rest ∧
      s.serving = [first] ∧ ProxyManager.validateConfig fromBytes first = .ok () := by
  unfold State.Quiescent State.ownStep at hquiet
  cases hpc : s.pc with
  | nextInstance rest => cases rest <;> simp [hpc] at hquiet
  | starting inst rest pc =>
      have hrest := h.pending (inst :: rest) (by rw [hpc]; rfl)
      refine Or.inr ⟨inst, rest, hrest.symm, ?_⟩
      simp only [hpc] at hquiet
      cases pc with
      | serving loadBalancer seen =>
          exact ⟨by rw [h.served, hpc]; rfl, h.accepted inst (by rw [hpc]; rfl)⟩
      | registering loadBalancer upstreams =>
          cases upstreams <;> simp [State.stepInstance] at hquiet
      | validating loadBalancer =>
          simp only [State.stepInstance] at hquiet
          split at hquiet <;> simp at hquiet
      | _ => simp [State.stepInstance] at hquiet
  | waiting => exact Or.inl (h.pending [] (by rw [hpc]; rfl)).symm
  | finished result =>
      cases result with
      | ok => exact Or.inl (h.pending [] (by rw [hpc]; rfl)).symm
      | error e => exact absurd hpc (hno.1 e)
  | panicked message => exact absurd hpc (hno.2 message)
  | killed => exact absurd (h.killed hpc) (by simp [hreq])
  | _ => simp [hpc] at hquiet

/-- While the start task serves its first instance it has nothing else to do. -/
theorem quiescent_of_serving (h : Inv fromBytes config s) {inst : ProxyInstanceConfig}
    {rest : List ProxyInstanceConfig} {loadBalancer : Router} {seen : ℕ}
    (hpc : s.pc = .starting inst rest (.serving loadBalancer seen)) :
    s.NoError ∧ s.Quiescent fromBytes hashKey config ∧ s.serving = [inst] := by
  have hzero : s.shutdownsSent = 0 := by simpa [hpc] using h.unsent
  refine ⟨⟨by simp [hpc], by simp [hpc]⟩, ?_, by rw [h.served, hpc]; rfl⟩
  simp [State.Quiescent, State.ownStep, hpc, State.stepInstance, hzero]

end Inv

/-- **Only the first instance is served.** In every state of every run, no instance but the first
configured one is served. -/
theorem serving_head {heap : Heap} {registry : MetricsRegistry} {now : ℕ} {es : List Event}
    {s : State} (hrun : (machine fromBytes hashKey config).run (.initial heap registry now) es =
      some s) : ∀ inst ∈ s.serving, inst ∈ config.proxyInstances.head? := by
  intro inst hinst
  have hmem := (Inv.of_run hrun).serving_isPrefix.subset hinst
  cases hlist : config.proxyInstances with
  | nil => simp [hlist] at hmem
  | cons first rest => simpa [hlist, eq_comm] using hmem

/-! ## How the first instance comes to be served -/

/-- The start task registers the upstreams that are left. -/
theorem run_registering (inst : ProxyInstanceConfig) (rest : List ProxyInstanceConfig)
    (loadBalancer : Router) (upstreams : List UpstreamConfig) (s : State)
    (hpc : s.pc = .starting inst rest (.registering loadBalancer upstreams)) :
    ∃ es s', (machine fromBytes hashKey config).run s es = some s' ∧
      s'.pc = .starting inst rest (.validating loadBalancer) ∧
      s'.shutdownRequested = s.shutdownRequested := by
  induction upstreams generalizing s with
  | nil =>
      refine ⟨[.step], { s with pc := .starting inst rest (.validating loadBalancer) }, ?_, rfl,
        rfl⟩
      rw [Machine.run_singleton]
      simp [machine, State.step, State.ownStep, hpc, State.stepInstance]
  | cons upstream upstreams ih =>
      obtain ⟨t, ht, htpc, htreq⟩ : ∃ t, (machine fromBytes hashKey config).step s .step = some t ∧
          t.pc = .starting inst rest (.registering loadBalancer upstreams) ∧
          t.shutdownRequested = s.shutdownRequested := by
        simp [machine, State.step, State.ownStep, hpc, State.stepInstance]
      obtain ⟨es, s', hrun, hpc', hreq⟩ := ih t htpc
      exact ⟨.step :: es, s', (Machine.run_cons_eq_some _).mpr ⟨t, ht, hrun⟩, hpc',
        hreq.trans htreq⟩

/-- The start task comes to serve a first instance that its proxy accepts. -/
theorem exists_serving (heap : Heap) (registry : MetricsRegistry) (now : ℕ)
    {first : ProxyInstanceConfig} {rest : List ProxyInstanceConfig}
    (hfirst : config.proxyInstances = first :: rest)
    (hok : ProxyManager.validateConfig fromBytes first = .ok ()) :
    ∃ es s loadBalancer seen,
      (machine fromBytes hashKey config).run (.initial heap registry now) es = some s ∧
        s.pc = .starting first rest (.serving loadBalancer seen) ∧
        s.shutdownRequested = false := by
  obtain ⟨t, loadBalancer, ht, htpc, htreq⟩ : ∃ t loadBalancer,
      (machine fromBytes hashKey config).run (.initial heap registry now)
        [.step, .step, .step, .step] = some t ∧
      t.pc = .starting first rest (.registering loadBalancer first.upstreams) ∧
      t.shutdownRequested = false := by
    simp [Machine.run, machine, State.step, State.ownStep, State.initial, hfirst,
      State.stepInstance]
  obtain ⟨es, u, hu, hupc, hureq⟩ := run_registering fromBytes hashKey config first rest
    loadBalancer first.upstreams t htpc
  obtain ⟨v, hv, hvpc, hvreq⟩ : ∃ v, (machine fromBytes hashKey config).run u
        [.step, .step, .step] = some v ∧
      v.pc = .starting first rest (.serving loadBalancer u.shutdownsSent) ∧
      v.shutdownRequested = u.shutdownRequested := by
    simp [Machine.run, machine, State.step, State.ownStep, hupc, State.stepInstance, hok]
  refine ⟨[.step, .step, .step, .step] ++ (es ++ [.step, .step, .step]), v, loadBalancer,
    u.shutdownsSent, ?_, hvpc, by rw [hvreq, hureq, htreq]⟩
  exact (Machine.run_append_eq_some _).mpr
    ⟨t, ht, (Machine.run_append_eq_some _).mpr ⟨u, hu, hv⟩⟩

/-- **When all instances are served.** For an accepted configuration: in every state that the start
reaches without an error and without a shutdown request, and in which it only waits, all configured
instances are served, if and only if there is at most one instance or the first instance is not
accepted by its proxy. -/
theorem servesAll_iff {heap : Heap} {registry : MetricsRegistry} {now : ℕ}
    (hvalid : config.validate.2 = .ok ()) :
    ServesAll fromBytes hashKey config heap registry now ↔
      config.proxyInstances.length ≤ 1 ∨ ∃ first rest e, config.proxyInstances = first :: rest ∧
        ProxyManager.validateConfig fromBytes first = .error e := by
  constructor
  · intro hall
    by_contra! hmany
    obtain ⟨hlen, hrejected⟩ := hmany
    obtain ⟨first, second, rest, hlist⟩ : ∃ first second rest,
        config.proxyInstances = first :: second :: rest := by
      match hlist : config.proxyInstances with
      | [] | [_] => simp [hlist] at hlen
      | first :: second :: rest => exact ⟨first, second, rest, rfl⟩
    have hok : ProxyManager.validateConfig fromBytes first = .ok () := by
      cases hcheck : ProxyManager.validateConfig fromBytes first with
      | ok => rfl
      | error e => exact absurd hcheck (hrejected first _ e hlist)
    obtain ⟨es, s, loadBalancer, seen, hrun, hpc, hreq⟩ :=
      exists_serving fromBytes hashKey config heap registry now hlist hok
    obtain ⟨hno, hquiet, hserving⟩ := (Inv.of_run hrun).quiescent_of_serving hpc
    have hmem := hall es s hrun hno hreq hquiet second (by simp [hlist])
    -- the names of an accepted configuration differ, so the second is not the first again
    have hnames := Config.nodup_names hvalid
    obtain rfl : second = first := by simpa [hserving] using hmem
    simp [hlist] at hnames
  · rintro hfew es s hrun hno hreq hquiet inst hinst
    rcases (Inv.of_run hrun).of_quiescent hno hreq hquiet with
      hnil | ⟨first, rest, hlist, hserving, hok⟩
    · simp [hnil] at hinst
    · rcases hfew with hlen | ⟨first', rest', e, hlist', herror⟩
      · obtain rfl : rest = [] := by simpa [hlist] using hlen
        rw [hserving]
        rwa [hlist] at hinst
      · obtain ⟨rfl, -⟩ := List.cons.inj (hlist.symm.trans hlist')
        rw [hok] at herror
        exact absurd herror (by simp)

end machine

/-! ## One instance and two -/

/-- A configuration of instances with one upstream each. -/
def exampleConfig (names : List String) : Config where
  global := .default
  proxyInstances := names.mapIdx fun i name =>
    ⟨name, .tcp, .v4 ⟨127, 0, 0, 1⟩ (8000 + i.toUInt16),
      [⟨"backend", "127.0.0.1:9000", 1, 0, 5000⟩], .default⟩

/-- A configuration with one accepted instance has it served. -/
theorem servesAll_iff_single :
    ServesAll .ok (fun _ => 0) (exampleConfig ["tcp-a"]) .empty .new 0 :=
  (servesAll_iff .ok (fun _ => 0) (exampleConfig ["tcp-a"]) (by decide)).mpr (Or.inl (by decide))

/-- Two TCP instances: the start task serves the first and comes no further. -/
theorem second_not_served :
    (exampleConfig ["tcp-a", "tcp-b"]).validate.2 = .ok () ∧
      ¬ ServesAll .ok (fun _ => 0) (exampleConfig ["tcp-a", "tcp-b"]) .empty .new 0 := by
  refine ⟨by decide, fun hall => ?_⟩
  have hmem := hall (List.replicate 9 .step) _ rfl ⟨by simp, by simp⟩ rfl rfl
  exact absurd (hmem _ (List.mem_cons_of_mem _ List.mem_cons_self)) (by decide)

end HarbrRouter.Startup
