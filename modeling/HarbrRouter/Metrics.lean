import HarbrRouter.Routing.Upstream
import Mathlib.Data.List.AList

/-!
# The metrics registry

`metrics.rs`, `MetricsRegistry`: the upstreams that are tracked, by name, and the system counters
that the start of the router writes. There is one registry in a process.
-/

set_option autoImplicit false

namespace HarbrRouter

open Routing

/-- The global registry, with its `SystemMetrics`. Source: `metrics.rs`, `MetricsRegistry` -/
structure MetricsRegistry where
  upstreamMetrics : AList fun _ : String => UpstreamRef
  upstreamsTotal : ℕ
  proxyInstancesTotal : ℕ

namespace MetricsRegistry

/-- Source: `metrics.rs`, `MetricsRegistry::new` -/
def new : MetricsRegistry := ⟨∅, 0, 0⟩

/-- Source: `metrics.rs`, `MetricsRegistry::add_upstream` -/
def addUpstream (self : MetricsRegistry) (heap : Heap) (upstream : UpstreamRef) :
    MetricsRegistry :=
  let name := (heap.get upstream).config.name
  { self with
    upstreamMetrics := self.upstreamMetrics.insert name upstream
    upstreamsTotal := wrappingAdd self.upstreamsTotal 1 }

/-- Source: `metrics.rs`, `MetricsRegistry::remove_upstream` -/
def removeUpstream (self : MetricsRegistry) (name : String) : MetricsRegistry :=
  if name ∈ self.upstreamMetrics then
    { self with
      upstreamMetrics := self.upstreamMetrics.erase name
      upstreamsTotal := wrappingSub self.upstreamsTotal 1 }
  else self

/-- Source: `metrics.rs`, `MetricsRegistry::set_proxy_instances_count` -/
def setProxyInstancesCount (self : MetricsRegistry) (count : ℕ) : MetricsRegistry :=
  { self with proxyInstancesTotal := count }

end MetricsRegistry

/-! ## The summary -/

section summary

variable (F : Type)

/-- Source: `metrics.rs`, `UpstreamMetricsSnapshot` -/
structure UpstreamMetricsSnapshot where
  name : String
  healthState : HealthState
  requestsSent : ℕ
  responsesReceived : ℕ
  failures : ℕ
  activeConnections : ℕ
  avgResponseTimeMs : F
  successRate : F
  healthScore : F

/-- The upstreams of the summary and the system counters that the registry keeps.
Source: `metrics.rs`, `MetricsSummary` and `SystemMetricsSnapshot` -/
structure MetricsSummary where
  proxyInstancesTotal : ℕ
  upstreamsTotal : ℕ
  upstreams : List (String × UpstreamMetricsSnapshot F)

variable [ScoreArith F]

namespace MetricsRegistry

/-- What an upstream is reported with. Source: `metrics.rs`, `MetricsRegistry::get_metrics_summary`
-/
def snapshot (name : String) (upstream : UpstreamInfo) : UpstreamMetricsSnapshot F where
  name := name
  healthState := upstream.healthState
  requestsSent := upstream.stats.requestsSent
  responsesReceived := upstream.stats.responsesReceived
  failures := upstream.stats.failures
  activeConnections := upstream.stats.activeConnections
  avgResponseTimeMs := upstream.stats.avgResponseTimeMs F
  successRate := upstream.stats.successRate F
  healthScore := upstream.healthScore F

/-- Source: `metrics.rs`, `MetricsRegistry::get_metrics_summary` -/
def getMetricsSummary (self : MetricsRegistry) (heap : Heap) : MetricsSummary F where
  proxyInstancesTotal := self.proxyInstancesTotal
  upstreamsTotal := self.upstreamsTotal
  upstreams := self.upstreamMetrics.entries.map fun entry =>
    (entry.1, snapshot F entry.1 (heap.get entry.2))

/-- The entry of a name is the snapshot of the upstream that is tracked under it. -/
theorem lookup_getMetricsSummary (self : MetricsRegistry) (heap : Heap) (name : String) :
    (self.getMetricsSummary F heap).upstreams.lookup name =
      (self.upstreamMetrics.lookup name).map fun u => snapshot F name (heap.get u) := by
  unfold getMetricsSummary AList.lookup
  induction self.upstreamMetrics.entries with
  | nil => rfl
  | cons entry entries ih =>
      obtain ⟨key, u⟩ := entry
      rw [List.map_cons, List.lookup_cons]
      by_cases hkey : name = key
      · subst hkey
        simp
      · rw [beq_eq_false_iff_ne.mpr hkey, List.dlookup_cons_ne _ _ hkey]
        exact ih

end MetricsRegistry

end summary

end HarbrRouter
