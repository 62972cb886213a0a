import HarbrRouter.Startup

/-!
# What the metrics registry reports of the upstreams

`router.rs`, `Router::start_proxy_instance`, with the traffic of the instance that is served: the
load balancer of an instance has its upstreams, and the registry has an `UpstreamInfo` of its own
for each of them. Whatever the handlers record, they record with those of the load balancer.

**Theorem** (`reports_iff`): the registry agrees with the load balancers in every state of a run
exactly as long as nothing is recorded. (⇐) All upstreams are as they were made then
(`fresh_of_run`), on both sides alike. (⇒) The first record changes one upstream of the load
balancer so that it can be seen (`changed_of_traffic`), and none of the registry, whose upstreams
are others (`Inv`).
-/

set_option autoImplicit false

namespace HarbrRouter.Reporting

open Transition PointRing Routing Startup

/-! ## Load balancers and their traffic -/

/-- The load balancer of an instance that is being started, and the upstreams of the instance that
are not yet registered. -/
def current (s : State) : Option (Router × List UpstreamConfig) :=
  match s.pc with
  | .starting _ _ (.registering loadBalancer upstreams) => some (loadBalancer, upstreams)
  | .starting _ _ (.validating loadBalancer) | .starting _ _ (.subscribing loadBalancer)
  | .starting _ _ (.binding loadBalancer _) | .starting _ _ (.serving loadBalancer _)
  | .starting _ _ (.tracking loadBalancer) => some (loadBalancer, [])
  | _ => none

/-- The load balancers that the router holds. -/
def loadBalancers (s : State) : List Router :=
  (current s).toList.map Prod.fst ++ s.runningInstances.entries.map Sigma.snd

/-- What the handlers of an instance do with its load balancer: they select, and they record with
its upstreams; and the health of an upstream may be reported. -/
def IsTraffic (loadBalancer : Router) : Op → Prop
  | .selectUpstream _ | .updateUpstreamHealth _ _ _ => True
  | .recordSuccess upstream _ _ | .recordFailure upstream _ | .incrementConnections upstream
  | .decrementConnections upstream => upstream ∈ loadBalancer.upstreams
  | .updateUpstreams _ _ => False

instance (loadBalancer : Router) (op : Op) : Decidable (IsTraffic loadBalancer op) := by
  unfold IsTraffic
  split
  all_goals infer_instance

/-- The load balancer of the instance that is being started is one of them. -/
theorem mem_loadBalancers {s : State} {loadBalancer : Router} {configs : List UpstreamConfig}
    (h : current s = some (loadBalancer, configs)) : loadBalancer ∈ loadBalancers s := by
  unfold loadBalancers
  rw [h]
  exact List.mem_append_left _ List.mem_cons_self

/-- A step of the router, or a call that a handler of the served instance makes. -/
inductive Event where
  | router (e : Startup.Event)
  | traffic (op : Op)

section machine

variable (F : Type) [ScoreArith F] (fromBytes : String → Except String String)
  (hashKey : String → U64) (search : BinarySearch U64) (config : Config)

/-- A call of a handler. There are handlers from the accept loop on, and the start task stays in the
accept loop of the first instance that it serves (`serving_head`). -/
def traffic (s : State) (op : Op) : Option State :=
  match s.pc with
  | .starting inst rest (.serving loadBalancer seen) =>
      if IsTraffic loadBalancer op then
        let w := World.apply F hashKey search ⟨loadBalancer, s.heap⟩ op
        some { s with heap := w.heap, pc := .starting inst rest (.serving w.router seen) }
      else none
  | _ => none

/-- The router and the traffic of its instances. -/
def machine : Machine State Event where
  step s
    | .router e => s.step fromBytes hashKey config e
    | .traffic op => traffic F hashKey search s op

/-- The router and the registry before `start` is called. -/
def initial (now : ℕ) : State := .initial .empty .new now

/-! ## What is compared -/

/-- The values of an upstream that the registry should report. -/
def observed (info : UpstreamInfo) : ℕ × ℕ × ℕ × ℕ × HealthState :=
  (info.stats.requestsSent, info.stats.responsesReceived, info.stats.failures,
    info.stats.activeConnections, info.healthState)

/-- What the registry reports agrees with the upstreams of the load balancers. -/
def Agrees (s : State) : Prop :=
  ∀ loadBalancer ∈ loadBalancers s, ∀ u ∈ loadBalancer.upstreams, ∀ entry,
    (s.registry.getMetricsSummary F s.heap).upstreams.lookup (s.heap.get u).config.name =
        some entry →
      entry.requestsSent = (s.heap.get u).stats.requestsSent ∧
        entry.responsesReceived = (s.heap.get u).stats.responsesReceived ∧
        entry.failures = (s.heap.get u).stats.failures ∧
        entry.activeConnections = (s.heap.get u).stats.activeConnections ∧
        entry.healthState = (s.heap.get u).healthState

/-- A step that changes what should be reported: an outcome is recorded, a connection is counted, or
the health of an upstream changes. -/
def Records (s : State) : Event → Prop
  | .traffic (.recordSuccess _ _ _) | .traffic (.recordFailure _ _)
  | .traffic (.incrementConnections _) | .traffic (.decrementConnections _) => True
  | .traffic (.updateUpstreamHealth name state _) => ∃ loadBalancer u,
      (current s).map Prod.fst = some loadBalancer ∧
        loadBalancer.getUpstreamByName s.heap name = some u ∧ (s.heap.get u).healthState ≠ state
  | _ => False

/-! ## What a step does -/

/-- What a step of the router does to the upstreams, the registry and the load balancers. -/
inductive Effect (s s' : State) : Prop
  | keep (hheap : s'.heap = s.heap)
      (hregistry : s'.registry.upstreamMetrics = s.registry.upstreamMetrics)
      (hcurrent : current s' = none ∨ current s' = current s)
      (hsub : ∀ loadBalancer ∈ loadBalancers s', loadBalancer ∈ loadBalancers s)
  /-- A load balancer gets new upstreams. -/
  | create {loadBalancer : Router} {configs : List UpstreamConfig}
      (hheap : s'.heap = (s.heap.alloc (configs.map fun c => .new c s.now)).1)
      (hupstreams : loadBalancer.upstreams = (s.heap.alloc (configs.map fun c => .new c s.now)).2)
      (hregistry : s'.registry.upstreamMetrics = s.registry.upstreamMetrics)
      (hcurrent : current s' = some (loadBalancer, configs))
      (hrunning : s'.runningInstances = s.runningInstances)
  /-- The registry gets one more. -/
  | register {loadBalancer : Router} {upstream : UpstreamConfig} {upstreams : List UpstreamConfig}
      (hbefore : current s = some (loadBalancer, upstream :: upstreams))
      (hheap : s'.heap = (s.heap.alloc [.new upstream s.now]).1)
      (hregistry : s'.registry.upstreamMetrics =
        s.registry.upstreamMetrics.insert upstream.name s.heap.cells.length)
      (hafter : current s' = some (loadBalancer, upstreams))
      (hrunning : s'.runningInstances = s.runningInstances)

variable {F fromBytes hashKey search config}

/-- A step that touches neither the upstreams nor the registry nor the running instances. -/
theorem Effect.quiet {s s' : State} (hheap : s'.heap = s.heap)
    (hregistry : s'.registry.upstreamMetrics = s.registry.upstreamMetrics)
    (hrunning : s'.runningInstances = s.runningInstances)
    (hcurrent : current s' = none ∨ current s' = current s) : Effect s s' := by
  refine .keep hheap hregistry hcurrent fun loadBalancer hmem => ?_
  unfold loadBalancers at hmem ⊢
  rw [hrunning] at hmem
  rcases hcurrent with hnone | hsame
  · rw [hnone] at hmem
    exact List.mem_append_right _ hmem
  · rwa [hsame] at hmem

/-- A step in the start of an instance has one of the effects. -/
theorem effect_of_stepInstance {s s' : State} {inst : ProxyInstanceConfig}
    {rest : List ProxyInstanceConfig} {pc : InstancePc} (hpc : s.pc = .starting inst rest pc)
    (h : s.stepInstance fromBytes hashKey inst rest pc = some s') : Effect s s' := by
  cases pc with
  | creating =>
      obtain rfl := Option.some.inj h
      exact .create rfl (Router.rebuildRing_upstreams _ _ _) rfl rfl rfl
  | registering loadBalancer upstreams =>
      cases upstreams with
      | nil =>
          obtain rfl := Option.some.inj h
          exact .quiet rfl rfl rfl (Or.inr (by simp [current, hpc]))
      | cons upstream upstreams =>
          obtain rfl := Option.some.inj h
          refine .register (by simp only [current, hpc]) rfl ?_ rfl rfl
          have hname : ((s.heap.alloc [.new upstream s.now]).1.get
              s.heap.cells.length).config.name = upstream.name := by
            simp [Heap.alloc, Heap.get, UpstreamInfo.new]
          rw [← hname]
          rfl
  | validating loadBalancer =>
      simp only [State.stepInstance] at h
      split at h
      · obtain rfl := Option.some.inj h
        exact .quiet rfl rfl rfl (Or.inl rfl)
      · obtain rfl := Option.some.inj h
        exact .quiet rfl rfl rfl (Or.inr (by simp [current, hpc]))
  | subscribing loadBalancer =>
      obtain rfl := Option.some.inj h
      exact .quiet rfl rfl rfl (Or.inr (by simp [current, hpc]))
  | binding loadBalancer seen =>
      obtain rfl := Option.some.inj h
      exact .quiet rfl rfl rfl (Or.inr (by simp [current, hpc]))
  | serving loadBalancer seen =>
      simp only [State.stepInstance] at h
      split_ifs at h
      obtain rfl := Option.some.inj h
      exact .quiet rfl rfl rfl (Or.inr (by simp [current, hpc]))
  | tracking loadBalancer =>
      obtain rfl := Option.some.inj h
      refine .keep rfl rfl (Or.inl rfl) fun lb hmem => ?_
      have hcurrent : current s = some (loadBalancer, []) := by simp only [current, hpc]
      unfold loadBalancers at hmem ⊢
      rw [hcurrent]
      rcases List.mem_append.mp hmem with hnone | hrunning
      · exact absurd hnone List.not_mem_nil
      · obtain ⟨entry, hentry, rfl⟩ := List.mem_map.mp hrunning
        rw [AList.entries_insert] at hentry
        rcases List.mem_cons.mp hentry with rfl | hold
        · exact List.mem_append_left _ List.mem_cons_self
        · apply List.mem_append_right
          exact List.mem_map_of_mem ((List.kerase_sublist _ _).subset hold)

/-- Every step of the router has one of the effects. -/
theorem effect_of_step {s s' : State} {e : Startup.Event}
    (h : s.step fromBytes hashKey config e = some s') : Effect s s' := by
  cases e with
  | step =>
      simp only [State.step, State.ownStep] at h
      cases hpc : s.pc with
      | starting inst rest pc => exact effect_of_stepInstance hpc (by simpa [hpc] using h)
      | nextInstance rest =>
          cases rest <;> obtain rfl := Option.some.inj (hpc ▸ h) <;>
            exact .quiet rfl rfl rfl (Or.inl rfl)
      | waiting | finished | panicked | killed => exact absurd (hpc ▸ h) (by simp)
      | _ =>
          obtain rfl := Option.some.inj (hpc ▸ h)
          exact .quiet rfl rfl rfl (Or.inl rfl)
  | bindFailed e =>
      simp only [State.step] at h
      split at h
      · next inst _ _ _ _ =>
          obtain rfl := Option.some.inj h
          refine .quiet rfl rfl rfl (Or.inl ?_)
          unfold current bindFailure
          cases inst.proxyType <;> rfl
      · exact absurd h (by simp)
  | serverError e =>
      simp only [State.step] at h
      split at h
      · split_ifs at h
        obtain rfl := Option.some.inj h
        exact .quiet rfl rfl rfl (Or.inl rfl)
      · exact absurd h (by simp)
  | client name =>
      simp only [State.step] at h
      split_ifs at h
      obtain rfl := Option.some.inj h
      exact .quiet rfl rfl rfl (Or.inr rfl)
  | signal =>
      simp only [State.step] at h
      split at h
      · obtain rfl := Option.some.inj h
        exact .quiet rfl rfl rfl (Or.inl rfl)
      · obtain rfl := Option.some.inj h
        exact .quiet rfl rfl rfl (Or.inr rfl)
      · obtain rfl := Option.some.inj h
        exact .quiet rfl rfl rfl (Or.inr rfl)
      · exact absurd h (by simp)
      · exact absurd h (by simp)
      · exact absurd h (by simp)
      · obtain rfl := Option.some.inj h
        exact .quiet rfl rfl rfl (Or.inl rfl)
  | triggerShutdown =>
      simp only [State.step] at h
      split at h
      · obtain rfl := Option.some.inj h
        exact .quiet rfl rfl rfl (Or.inl rfl)
      · obtain rfl := Option.some.inj h
        exact .quiet rfl rfl rfl (Or.inr rfl)
  | sigtermFailed =>
      simp only [State.step] at h
      split at h
      · obtain rfl := Option.some.inj h
        exact .quiet rfl rfl rfl (Or.inl rfl)
      · exact absurd h (by simp)
  | advance ns =>
      obtain rfl := Option.some.inj h
      exact .quiet rfl rfl rfl (Or.inr rfl)

/-- What a call of a handler does: the load balancer keeps its upstreams, with their configurations,
and nothing else changes. -/
theorem effect_of_traffic {s s' : State} {op : Op} (h : traffic F hashKey search s op = some s') :
    ∃ loadBalancer loadBalancer', current s = some (loadBalancer, []) ∧
      current s' = some (loadBalancer', []) ∧ IsTraffic loadBalancer op ∧
      World.apply F hashKey search ⟨loadBalancer, s.heap⟩ op = ⟨loadBalancer', s'.heap⟩ ∧
      s'.registry = s.registry ∧ s'.runningInstances = s.runningInstances := by
  unfold traffic at h
  split at h
  · next inst rest loadBalancer seen hpc =>
      split_ifs at h with htraffic
      obtain rfl := Option.some.inj h
      refine ⟨loadBalancer, _, by simp only [current, hpc], rfl, htraffic, rfl, rfl, rfl⟩
  · exact absurd h (by simp)

/-- A call of a handler keeps the upstreams of the load balancer and their configurations. -/
theorem apply_keeps {loadBalancer loadBalancer' : Router} {heap heap' : Heap} {op : Op}
    (htraffic : IsTraffic loadBalancer op)
    (h : World.apply F hashKey search ⟨loadBalancer, heap⟩ op = ⟨loadBalancer', heap'⟩) :
    loadBalancer'.upstreams = loadBalancer.upstreams ∧
      heap'.cells.length = heap.cells.length ∧
      ∀ u, (heap'.get u).config = (heap.get u).config := by
  rcases World.apply_cases F hashKey search ⟨loadBalancer, heap⟩ op with
    ⟨configs, now, rfl, -⟩ | ⟨r, state, now, heq⟩ | heq | ⟨r, f, heq⟩
  · exact htraffic.elim
  · obtain ⟨rfl, rfl⟩ := World.mk.inj (h.symm.trans heq)
    refine ⟨Router.rebuildRing_upstreams _ _ _, by simp [Heap.modify], fun u => ?_⟩
    exact Heap.get_modify_proj (fun info => info.config)
      (fun info => info.setHealthState_config state now) heap r u
  · rcases heq with heq | heq
    · obtain ⟨rfl, rfl⟩ := World.mk.inj (h.symm.trans heq)
      exact ⟨rfl, rfl, fun _ => rfl⟩
    · obtain ⟨rfl, rfl⟩ := World.mk.inj (h.symm.trans heq)
      exact ⟨rfl, rfl, fun _ => rfl⟩
  · obtain ⟨rfl, rfl⟩ := World.mk.inj (h.symm.trans heq)
    refine ⟨rfl, by simp [Heap.modify], fun u => ?_⟩
    exact Heap.get_modify_proj (f := fun info => { info with stats := f info.stats })
      (fun info => info.config) (fun _ => rfl) heap r u

/-! ## While nothing is recorded -/

/-- All upstreams are as they were made. -/
def Fresh (heap : Heap) : Prop := ∀ u, observed (heap.get u) = (0, 0, 0, 0, .unknown)

/-- A new upstream is observed as it was made. -/
theorem observed_new (config : UpstreamConfig) (now : ℕ) :
    observed (.new config now) = (0, 0, 0, 0, .unknown) := rfl

/-- New upstreams keep the heap fresh. -/
theorem Fresh.alloc {heap : Heap} (h : Fresh heap) {infos : List UpstreamInfo}
    (hinfos : ∀ info ∈ infos, observed info = (0, 0, 0, 0, .unknown)) :
    Fresh (heap.alloc infos).1 := by
  intro u
  unfold Heap.alloc Heap.get
  rw [List.getD_eq_getElem?_getD]
  rcases lt_or_ge u heap.cells.length with hu | hu
  · rw [List.getElem?_append_left hu, ← List.getD_eq_getElem?_getD]
    exact h u
  · rw [List.getElem?_append_right hu]
    cases hget : infos[u - heap.cells.length]? with
    | none => rfl
    | some info => exact hinfos info (List.mem_of_getElem? hget)

/-- Every step of the router keeps the heap fresh. -/
theorem Effect.fresh {s s' : State} (h : Effect s s') (hfresh : Fresh s.heap) : Fresh s'.heap := by
  cases h with
  | keep hheap => rwa [hheap]
  | create hheap =>
      rw [hheap]
      apply hfresh.alloc
      intro info hinfo
      obtain ⟨config, -, rfl⟩ := List.mem_map.mp hinfo
      exact observed_new config s.now
  | register hbefore hheap =>
      rw [hheap]
      apply hfresh.alloc
      intro info hinfo
      rw [List.mem_singleton.mp hinfo]
      exact observed_new _ s.now

/-- A call that records nothing keeps the heap fresh. -/
theorem fresh_of_traffic {s s' : State} {op : Op} (h : traffic F hashKey search s op = some s')
    (hsilent : ¬ Records s (.traffic op)) (hfresh : Fresh s.heap) : Fresh s'.heap := by
  obtain ⟨loadBalancer, loadBalancer', hcurrent, -, htraffic, happly, -, -⟩ := effect_of_traffic h
  cases op with
  | updateUpstreams configs now => exact htraffic.elim
  | selectUpstream sessionKey =>
      obtain ⟨-, hheap⟩ := World.mk.inj happly
      rwa [← hheap]
  | updateUpstreamHealth name state now =>
      simp only [World.apply, Router.updateUpstreamHealth] at happly
      cases hname : loadBalancer.getUpstreamByName s.heap name with
      | none =>
          rw [hname] at happly
          obtain ⟨-, hheap⟩ := World.mk.inj happly
          rwa [← hheap]
      | some u =>
          rw [hname] at happly
          obtain ⟨-, hheap⟩ := World.mk.inj happly
          have hstate : (s.heap.get u).healthState = state := by
            by_contra hne
            exact hsilent ⟨loadBalancer, u, by simp [hcurrent], hname, hne⟩
          have hsame : observed ((s.heap.get u).setHealthState state now) =
              observed (s.heap.get u) := by
            subst hstate
            cases hcase : (s.heap.get u).healthState <;>
              simp [observed, UpstreamInfo.setHealthState, UpstreamInfo.countHealthFailure, hcase]
          intro v
          rw [← hheap, ← hfresh v]
          exact Heap.get_modify_proj_at (f := fun info => info.setHealthState state now) observed
            hsame v
  | _ => exact absurd trivial hsilent

/-- While nothing is recorded, all upstreams are as they were made. -/
theorem fresh_of_run {now : ℕ} {es : List Event} {s : State}
    (hsilent : (machine F fromBytes hashKey search config).Along (fun t e => ¬ Records t e)
      (initial now) es)
    (hrun : (machine F fromBytes hashKey search config).run (initial now) es = some s) :
    Fresh s.heap := by
  refine (machine F fromBytes hashKey search config).run_preserves_along
    (I := fun t => Fresh t.heap) ?_ ?_ hsilent hrun
  · intro t e t' hfresh hsilent hstep
    cases e with
    | router e => exact (effect_of_step hstep).fresh hfresh
    | traffic op => exact fresh_of_traffic hstep hsilent hfresh
  · intro u
    rfl

/-- Where all upstreams are as they were made, the registry agrees with the load balancers. -/
theorem agrees_of_fresh {s : State} (h : Fresh s.heap) : Agrees F s := by
  intro loadBalancer _ u _ entry hentry
  rw [MetricsRegistry.lookup_getMetricsSummary] at hentry
  obtain ⟨v, -, rfl⟩ := Option.map_eq_some_iff.mp hentry
  have hsame : observed (s.heap.get v) = observed (s.heap.get u) := (h v).trans (h u).symm
  simpa [observed, MetricsRegistry.snapshot] using hsame

/-! ## The registry has upstreams of its own -/

/-- The invariant of the upstreams. -/
structure Inv (s : State) : Prop where
  inHeap : ∀ loadBalancer ∈ loadBalancers s, ∀ u ∈ loadBalancer.upstreams,
    u < s.heap.cells.length
  /-- No upstream of the registry is one of a load balancer. -/
  separate : ∀ name v, s.registry.upstreamMetrics.lookup name = some v →
    v < s.heap.cells.length ∧ ∀ loadBalancer ∈ loadBalancers s, v ∉ loadBalancer.upstreams
  /-- The names of the upstreams are registered, or will be. -/
  registered : ∀ loadBalancer configs, current s = some (loadBalancer, configs) →
    ∀ u ∈ loadBalancer.upstreams, (s.heap.get u).config.name ∈ s.registry.upstreamMetrics ∨
      (s.heap.get u).config.name ∈ configs.map fun c => c.name

/-- Every step of the router keeps the invariant. -/
theorem Inv.effect {s s' : State} (h : Inv s) (heffect : Effect s s') : Inv s' := by
  cases heffect with
  | keep hheap hregistry hcurrent hsub =>
      refine ⟨fun lb hlb => ?_, fun name v hv => ?_, fun lb configs hlb => ?_⟩
      · rw [hheap]
        exact h.inHeap lb (hsub lb hlb)
      · rw [hregistry] at hv
        rw [hheap]
        obtain ⟨hlt, hnot⟩ := h.separate name v hv
        exact ⟨hlt, fun lb hlb => hnot lb (hsub lb hlb)⟩
      · rcases hcurrent with hnone | hsame
        · rw [hnone] at hlb
          exact absurd hlb (by simp)
        · rw [hsame] at hlb
          rw [hheap, hregistry]
          exact h.registered lb configs hlb
  | @create loadBalancer configs hheap hupstreams hregistry hcurrent hrunning =>
      have hlength : s'.heap.cells.length = s.heap.cells.length + configs.length := by
        simp [hheap, Heap.alloc]
      have hnew : ∀ u ∈ loadBalancer.upstreams,
          s.heap.cells.length ≤ u ∧ u < s.heap.cells.length + configs.length := by
        intro u hu
        rw [hupstreams] at hu
        simpa [Heap.alloc, List.mem_range'_1] using hu
      have hold : ∀ lb ∈ loadBalancers s', lb = loadBalancer ∨ lb ∈ loadBalancers s := by
        intro lb hlb
        unfold loadBalancers at hlb ⊢
        rw [hcurrent, hrunning] at hlb
        rcases List.mem_append.mp hlb with hlb | hlb
        · exact Or.inl (List.mem_singleton.mp hlb)
        · exact Or.inr (List.mem_append_right _ hlb)
      have hle : s.heap.cells.length ≤ s'.heap.cells.length := by omega
      refine ⟨fun lb hlb u hu => ?_, fun name v hv => ?_, fun lb cs hlb u hu => ?_⟩
      · rcases hold lb hlb with rfl | hlb
        · rw [hlength]
          exact (hnew u hu).2
        · exact (h.inHeap lb hlb u hu).trans_le hle
      · rw [hregistry] at hv
        obtain ⟨hlt, hnot⟩ := h.separate name v hv
        refine ⟨hlt.trans_le hle, fun lb hlb hmem => ?_⟩
        rcases hold lb hlb with rfl | hlb
        · exact absurd hlt (not_lt.mpr (hnew v hmem).1)
        · exact hnot lb hlb hmem
      · rw [hcurrent] at hlb
        obtain ⟨rfl, rfl⟩ : loadBalancer = lb ∧ configs = cs := by simpa using hlb
        right
        have hget := Heap.map_get_alloc s.heap (configs.map fun c => .new c s.now)
        rw [← hupstreams, ← hheap] at hget
        have hmem : s'.heap.get u ∈ configs.map fun c => UpstreamInfo.new c s.now := by
          rw [← hget]
          exact List.mem_map_of_mem hu
        obtain ⟨c, hc, hinfo⟩ := List.mem_map.mp hmem
        rw [← hinfo]
        exact List.mem_map_of_mem hc
  | @register loadBalancer upstream upstreams hbefore hheap hregistry hafter hrunning =>
      have hlength : s'.heap.cells.length = s.heap.cells.length + 1 := by
        simp [hheap, Heap.alloc]
      have hsame : loadBalancers s' = loadBalancers s := by
        unfold loadBalancers
        rw [hbefore, hafter, hrunning]
        rfl
      have hle : s.heap.cells.length ≤ s'.heap.cells.length := by omega
      refine ⟨fun lb hlb u hu => ?_, fun name v hv => ?_, fun lb cs hlb u hu => ?_⟩
      · rw [hsame] at hlb
        exact (h.inHeap lb hlb u hu).trans_le hle
      · rw [hregistry] at hv
        rw [hsame]
        by_cases hname : name = upstream.name
        · subst hname
          rw [AList.lookup_insert] at hv
          obtain rfl := Option.some.inj hv
          refine ⟨by rw [hlength]; exact Nat.lt_succ_self _, fun lb hlb hmem => ?_⟩
          exact absurd (h.inHeap lb hlb _ hmem) (lt_irrefl _)
        · rw [AList.lookup_insert_ne hname] at hv
          obtain ⟨hlt, hnot⟩ := h.separate name v hv
          exact ⟨hlt.trans_le hle, hnot⟩
      · rw [hafter] at hlb
        obtain ⟨rfl, rfl⟩ : loadBalancer = lb ∧ upstreams = cs := by simpa using hlb
        have hmem := mem_loadBalancers hbefore
        rw [hheap, hregistry, Heap.get_alloc (h.inHeap loadBalancer hmem u hu), AList.mem_insert]
        rcases h.registered loadBalancer _ hbefore u hu with hold | hnew
        · exact Or.inl (Or.inr hold)
        · rw [List.map_cons] at hnew
          rcases List.mem_cons.mp hnew with hfirst | hrest
          · exact Or.inl (Or.inl hfirst)
          · exact Or.inr hrest

/-- Every call of a handler keeps the invariant. -/
theorem Inv.traffic {s s' : State} {op : Op} (h : Inv s)
    (hstep : traffic F hashKey search s op = some s') : Inv s' := by
  obtain ⟨loadBalancer, loadBalancer', hbefore, hafter, htraffic, happly, hregistry, hrunning⟩ :=
    effect_of_traffic hstep
  obtain ⟨hupstreams, hlength, hconfig⟩ := apply_keeps htraffic happly
  have hold : ∀ lb ∈ loadBalancers s', ∃ old ∈ loadBalancers s, lb.upstreams = old.upstreams := by
    intro lb hlb
    unfold loadBalancers at hlb ⊢
    rw [hafter, hrunning] at hlb
    rw [hbefore]
    rcases List.mem_append.mp hlb with hlb | hlb
    · obtain rfl := List.mem_singleton.mp hlb
      exact ⟨loadBalancer, List.mem_append_left _ List.mem_cons_self, hupstreams⟩
    · exact ⟨lb, List.mem_append_right _ hlb, rfl⟩
  refine ⟨fun lb hlb u hu => ?_, fun name v hv => ?_, fun lb cs hlb u hu => ?_⟩
  · obtain ⟨old, hmem, heq⟩ := hold lb hlb
    rw [heq] at hu
    rw [hlength]
    exact h.inHeap old hmem u hu
  · rw [hregistry] at hv
    obtain ⟨hlt, hnot⟩ := h.separate name v hv
    refine ⟨by rwa [hlength], fun lb hlb hmem => ?_⟩
    obtain ⟨old, hold, heq⟩ := hold lb hlb
    rw [heq] at hmem
    exact hnot old hold hmem
  · rw [hafter] at hlb
    obtain ⟨rfl, rfl⟩ : loadBalancer' = lb ∧ [] = cs := by simpa using hlb
    rw [hupstreams] at hu
    rw [hregistry, hconfig]
    exact h.registered loadBalancer [] hbefore u hu

/-- The invariant holds in every state of a run. -/
theorem Inv.of_run {now : ℕ} {es : List Event} {s : State}
    (hrun : (machine F fromBytes hashKey search config).run (initial now) es = some s) :
    Inv s := by
  refine (machine F fromBytes hashKey search config).run_preserves ?_ ?_ hrun
  · intro t e t' hinv hstep
    cases e with
    | router e => exact hinv.effect (effect_of_step hstep)
    | traffic op => exact hinv.traffic hstep
  · refine ⟨fun lb hlb => ?_, fun name v hv => ?_, fun lb cs hlb => ?_⟩
    · exact absurd hlb List.not_mem_nil
    · exact absurd hv (by simp [initial, State.initial, MetricsRegistry.new])
    · exact absurd hlb (by simp [initial, State.initial, current])

/-! ## Where something is recorded -/

/-- The first record of an upstream can be seen. -/
theorem observed_ne {info : UpstreamInfo} (h : observed info = (0, 0, 0, 0, .unknown))
    {stats : UpstreamStats}
    (hstats : (∃ t now, stats = info.stats.recordSuccess t now) ∨
      (∃ now, stats = info.stats.recordFailure now) ∨
      stats = info.stats.incrementConnections ∨ stats = info.stats.decrementConnections) :
    observed { info with stats } ≠ (0, 0, 0, 0, .unknown) := by
  obtain ⟨hsent, -, -, hactive, -⟩ : info.stats.requestsSent = 0 ∧
      info.stats.responsesReceived = 0 ∧ info.stats.failures = 0 ∧
      info.stats.activeConnections = 0 ∧ info.healthState = .unknown := by
    simpa [observed] using h
  have hadd : wrappingAdd 0 1 ≠ 0 := by decide
  have hsub : wrappingSub 0 1 ≠ 0 := by decide
  intro hobserved
  obtain ⟨hsent', -, -, hactive', -⟩ : stats.requestsSent = 0 ∧
      stats.responsesReceived = 0 ∧ stats.failures = 0 ∧
      stats.activeConnections = 0 ∧ info.healthState = .unknown := by
    simpa [observed] using hobserved
  rcases hstats with ⟨t, now, rfl⟩ | ⟨now, rfl⟩ | rfl | rfl
  · rw [UpstreamStats.recordSuccess, hsent] at hsent'
    exact hadd hsent'
  · rw [UpstreamStats.recordFailure, hsent] at hsent'
    exact hadd hsent'
  · rw [UpstreamStats.incrementConnections, hactive] at hactive'
    exact hadd hactive'
  · rw [UpstreamStats.decrementConnections, hactive] at hactive'
    exact hsub hactive'

/-- A call that records something changes one upstream of the load balancer, which was as it was
made, and no other one. -/
theorem changed_of_traffic {s s' : State} {op : Op} (h : traffic F hashKey search s op = some s')
    (hrecords : Records s (.traffic op)) (hfresh : Fresh s.heap) (hinv : Inv s) :
    ∃ loadBalancer u, current s' = some (loadBalancer, []) ∧ u ∈ loadBalancer.upstreams ∧
      observed (s'.heap.get u) ≠ (0, 0, 0, 0, .unknown) ∧
      ∀ v, v ≠ u → s'.heap.get v = s.heap.get v := by
  obtain ⟨loadBalancer, loadBalancer', hbefore, hafter, htraffic, happly, -, -⟩ :=
    effect_of_traffic h
  obtain ⟨hupstreams, -, -⟩ := apply_keeps htraffic happly
  have hmem := mem_loadBalancers hbefore
  -- all records change the heap at one upstream
  have hmodify : ∀ (u : UpstreamRef) (f : UpstreamInfo → UpstreamInfo),
      u ∈ loadBalancer.upstreams → s.heap.modify u f = s'.heap →
      observed (f (s.heap.get u)) ≠ (0, 0, 0, 0, .unknown) →
      ∃ loadBalancer u, current s' = some (loadBalancer, []) ∧ u ∈ loadBalancer.upstreams ∧
        observed (s'.heap.get u) ≠ (0, 0, 0, 0, .unknown) ∧
        ∀ v, v ≠ u → s'.heap.get v = s.heap.get v := by
    intro u f hu hheap hne
    refine ⟨loadBalancer', u, hafter, by rwa [hupstreams], ?_, fun v hv => ?_⟩
    · rwa [← hheap, Heap.get_modify_self (hinv.inHeap loadBalancer hmem u hu)]
    · rw [← hheap, Heap.get_modify_of_ne (Ne.symm hv)]
  cases op with
  | updateUpstreams configs now => exact htraffic.elim
  | selectUpstream sessionKey => exact hrecords.elim
  | recordSuccess u t now =>
      exact hmodify u _ htraffic (World.mk.inj happly).2
        (observed_ne (hfresh u) (Or.inl ⟨t, now, rfl⟩))
  | recordFailure u now =>
      exact hmodify u _ htraffic (World.mk.inj happly).2
        (observed_ne (hfresh u) (Or.inr (Or.inl ⟨now, rfl⟩)))
  | incrementConnections u =>
      exact hmodify u _ htraffic (World.mk.inj happly).2
        (observed_ne (hfresh u) (Or.inr (Or.inr (Or.inl rfl))))
  | decrementConnections u =>
      exact hmodify u _ htraffic (World.mk.inj happly).2
        (observed_ne (hfresh u) (Or.inr (Or.inr (Or.inr rfl))))
  | updateUpstreamHealth name state now =>
      obtain ⟨lb, u, hlb, hname, hstate⟩ := hrecords
      obtain rfl : loadBalancer = lb := by simpa [hbefore] using hlb
      simp only [World.apply, Router.updateUpstreamHealth, hname] at happly
      have hu : u ∈ loadBalancer.upstreams := List.mem_of_find?_eq_some hname
      refine hmodify u _ hu (World.mk.inj happly).2 fun hobserved => hstate ?_
      have hunknown : (s.heap.get u).healthState = .unknown := by
        have := hfresh u
        simp only [observed, Prod.mk.injEq] at this
        exact this.2.2.2.2
      rw [hunknown]
      cases state <;>
        simp [observed, UpstreamInfo.setHealthState, UpstreamInfo.countHealthFailure] at hobserved ⊢

/-- After a call that records something the registry reports something else. -/
theorem not_agrees_of_records {s s' : State} {op : Op}
    (h : traffic F hashKey search s op = some s') (hrecords : Records s (.traffic op))
    (hfresh : Fresh s.heap) (hinv : Inv s) : ¬ Agrees F s' := by
  intro hagrees
  obtain ⟨loadBalancer, u, hcurrent, hu, hne, hothers⟩ := changed_of_traffic h hrecords hfresh hinv
  have hinv' := hinv.traffic h
  have hmem := mem_loadBalancers hcurrent
  have hname : (s'.heap.get u).config.name ∈ s'.registry.upstreamMetrics := by
    rcases hinv'.registered loadBalancer [] hcurrent u hu with hname | hnone
    · exact hname
    · exact absurd hnone List.not_mem_nil
  obtain ⟨v, hv⟩ := Option.isSome_iff_exists.mp (AList.lookup_isSome.mpr hname)
  have hvu : v ≠ u := by
    rintro rfl
    exact (hinv'.separate _ v hv).2 loadBalancer hmem hu
  have hentry := hagrees loadBalancer hmem u hu
    (MetricsRegistry.snapshot F (s'.heap.get u).config.name (s'.heap.get v))
    (by rw [MetricsRegistry.lookup_getMetricsSummary, hv]; rfl)
  have hsame : observed (s'.heap.get v) = observed (s'.heap.get u) := by
    simpa [observed, MetricsRegistry.snapshot] using hentry
  rw [← hsame, hothers v hvu] at hne
  exact hne (hfresh v)

/-- **The registry and the load balancers.** In every run of the router with the traffic of its
instances, what the registry reports of the upstreams agrees with the upstreams of the load
balancers in every state reached, if and only if no step of the run records anything: no outcome, no
connection and no change of health. -/
theorem reports_iff (F : Type) [ScoreArith F] (fromBytes : String → Except String String)
    (hashKey : String → U64) (search : BinarySearch U64) (config : Config) (now : ℕ)
    (es : List Event) (s : State)
    (hrun : (machine F fromBytes hashKey search config).run (initial now) es = some s) :
    (∀ fs t, fs <+: es →
        (machine F fromBytes hashKey search config).run (initial now) fs = some t →
        Agrees F t) ↔
      (machine F fromBytes hashKey search config).Along (fun t e => ¬ Records t e) (initial now)
        es := by
  constructor
  · refine (machine F fromBytes hashKey search config).run_induction (Q := fun es _ =>
      (∀ fs t, fs <+: es →
        (machine F fromBytes hashKey search config).run (initial now) fs = some t →
        Agrees F t) →
      (machine F fromBytes hashKey search config).Along (fun t e => ¬ Records t e) (initial now)
        es) ?_ ?_ hrun
    · intro _
      trivial
    · intro es e t t' ht ih hstep hagrees
      have hsilent := ih fun fs u hfs => hagrees fs u (hfs.trans (List.prefix_append es [e]))
      rw [Machine.along_concat _ ht]
      refine ⟨hsilent, fun hrecords => ?_⟩
      have hagrees' := hagrees (es ++ [e]) t' List.prefix_rfl
        ((Machine.run_append_eq_some _).mpr ⟨t, ht, by rwa [Machine.run_singleton]⟩)
      cases e with
      | router e => exact hrecords
      | traffic op =>
          exact not_agrees_of_records hstep hrecords (fresh_of_run hsilent ht) (Inv.of_run ht)
            hagrees'
  · rintro hsilent fs t ⟨gs, rfl⟩ ht
    exact agrees_of_fresh (fresh_of_run (Machine.Along.of_append _ hsilent) ht)

end machine

/-! ## One instance -/

/-- The machine of one TCP instance with one upstream. -/
abbrev exampleMachine : Machine State Event :=
  machine ℚ .ok (fun key => key.hash.toFin) (.linear U64) (exampleConfig ["tcp-a"])

/-- The start of the router up to the accept loop, and a selection. -/
def untilSelected : List Event :=
  List.replicate 9 (.router .step) ++ [.traffic (.selectUpstream none)]

/-- A connection to the selected upstream that ends well. -/
def oneConnection : List Event :=
  [.traffic (.incrementConnections 0), .traffic (.decrementConnections 0),
    .traffic (.recordSuccess 0 5000000 10)]

/-- A selection records nothing: the registry agrees with the load balancer. -/
theorem reports_iff_selected :
    ∃ s, exampleMachine.run (initial 0) untilSelected = some s ∧ Agrees ℚ s := by
  obtain ⟨s, hs⟩ : ∃ s, exampleMachine.run (initial 0) untilSelected = some s := ⟨_, rfl⟩
  refine ⟨s, hs, (reports_iff ℚ _ _ _ _ 0 untilSelected s hs).mpr ?_ untilSelected s
    List.prefix_rfl hs⟩
  rw [Machine.along_iff]
  intro es e fs heq t _
  have hmem : e ∈ untilSelected := by
    rw [heq]
    exact List.mem_append_right _ List.mem_cons_self
  rcases List.mem_append.mp hmem with hrouter | hselect
  · rw [List.eq_of_mem_replicate hrouter]
    exact id
  · rw [List.mem_singleton.mp hselect]
    exact id

/-- After one connection the load balancer's upstream has a request, and the registry reports none.
The configuration is accepted, and its upstream has a name of its own. -/
theorem registry_reports_none :
    (exampleConfig ["tcp-a"]).validate.2 = .ok () ∧
    (((exampleConfig ["tcp-a"]).proxyInstances.flatMap fun inst => inst.upstreams).map
      fun upstream => upstream.name).Nodup ∧
    ∃ s, exampleMachine.run (initial 0) (untilSelected ++ oneConnection) = some s ∧
      ¬ Agrees ℚ s := by
  refine ⟨by decide, by decide, ?_⟩
  obtain ⟨s, hs, loadBalancer, entry, hcurrent, hupstreams, hentry, hreported, hsent⟩ :
      ∃ s, exampleMachine.run (initial 0) (untilSelected ++ oneConnection) = some s ∧
        ∃ loadBalancer entry, current s = some (loadBalancer, []) ∧ loadBalancer.upstreams = [0] ∧
          (s.registry.getMetricsSummary ℚ s.heap).upstreams.lookup (s.heap.get 0).config.name =
            some entry ∧
          entry.requestsSent = 0 ∧ (s.heap.get 0).stats.requestsSent = 1 :=
    ⟨_, rfl, _, _, rfl, rfl, rfl, rfl, rfl⟩
  refine ⟨s, hs, fun hagrees => ?_⟩
  have hsame := (hagrees loadBalancer (mem_loadBalancers hcurrent) 0 (by simp [hupstreams]) entry
    hentry).1
  rw [hreported, hsent] at hsame
  exact absurd hsame (by decide)

end HarbrRouter.Reporting
