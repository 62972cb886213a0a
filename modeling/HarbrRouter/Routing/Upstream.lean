import HarbrRouter.Config
import Mathlib.Algebra.Order.Field.Rat
import Mathlib.Data.Rat.Cast.Defs
import Mathlib.Algebra.Order.Ring.Rat

/-!
# Upstreams: health, statistics and the heap that shares them

`routing.rs`, the data below the router: `UpstreamStats` with its recording operations,
`UpstreamInfo` with its health state, and the health score.

* `ScoreArith F` names the operations that the score and the weighted choice use, so that they are
  written once, over any arithmetic: `f64` in the code, `ℚ` where exact arithmetic is meant.
* `Heap` is the store of the `Arc<UpstreamInfo>`s: an upstream is reached through its address
  (`UpstreamRef`), so that whoever holds the address sees the same health and the same counters.
-/

set_option autoImplicit false

namespace HarbrRouter.Routing

/-! ## Health and statistics -/

/-- Source: `routing.rs`, `HealthState` -/
inductive HealthState where
  | healthy
  | unhealthy
  | unknown
deriving DecidableEq, Repr, Inhabited

/-- Source: `routing.rs`, `UpstreamStats` -/
structure UpstreamStats where
  requestsSent : ℕ
  responsesReceived : ℕ
  failures : ℕ
  activeConnections : ℕ
  avgResponseTimeNs : ℕ
  /-- An instant, in nanoseconds. -/
  lastUpdate : ℕ
deriving DecidableEq, Repr, Inhabited

/-- Source: `routing.rs`, `UpstreamInfo` -/
structure UpstreamInfo where
  config : UpstreamConfig
  healthState : HealthState
  stats : UpstreamStats
  healthFailures : ℕ
  /-- An instant, in nanoseconds. -/
  lastHealthCheck : ℕ
deriving DecidableEq, Repr

instance : Inhabited UpstreamInfo := ⟨⟨⟨"", "", 0, 0, 0⟩, .unknown, default, 0, 0⟩⟩

namespace UpstreamStats

/-- Fresh statistics. Source: `routing.rs`, `impl Default for UpstreamStats` -/
def new (now : ℕ) : UpstreamStats := ⟨0, 0, 0, 0, 0, now⟩

/-- The exponentially weighted average in `u64` arithmetic (alpha = 0.125); zero means that there
is no sample yet. Source: `routing.rs`, `UpstreamStats::record_success` -/
def newAvg (currentAvg responseTimeNs : ℕ) : ℕ :=
  if currentAvg = 0 then responseTimeNs
  else wrappingAdd (currentAvg * 7 % 2 ^ 64) responseTimeNs / 8

/-- Source: `routing.rs`, `UpstreamStats::record_success` -/
def recordSuccess (s : UpstreamStats) (responseTime now : ℕ) : UpstreamStats :=
  { s with
    requestsSent := wrappingAdd s.requestsSent 1
    responsesReceived := wrappingAdd s.responsesReceived 1
    avgResponseTimeNs := newAvg s.avgResponseTimeNs (responseTime % 2 ^ 64)
    lastUpdate := now }

/-- Source: `routing.rs`, `UpstreamStats::record_failure` -/
def recordFailure (s : UpstreamStats) (now : ℕ) : UpstreamStats :=
  { s with
    requestsSent := wrappingAdd s.requestsSent 1
    failures := wrappingAdd s.failures 1
    lastUpdate := now }

/-- Source: `routing.rs`, `UpstreamStats::increment_connections` -/
def incrementConnections (s : UpstreamStats) : UpstreamStats :=
  { s with activeConnections := wrappingAdd s.activeConnections 1 }

/-- Source: `routing.rs`, `UpstreamStats::decrement_connections` -/
def decrementConnections (s : UpstreamStats) : UpstreamStats :=
  { s with activeConnections := wrappingSub s.activeConnections 1 }

end UpstreamStats

/-! ## Scores -/

/-- The arithmetic of scores: the operations that `f64` provides to the selection. -/
class ScoreArith (F : Type) extends Add F, Sub F, Mul F, Div F, NatCast F, OfScientific F, LT F,
    LE F where
  decLt : DecidableLT F
  decLe : DecidableLE F

attribute [reducible, instance] ScoreArith.decLt ScoreArith.decLe

/-- Exact rational arithmetic. -/
instance : ScoreArith ℚ where
  decLt := inferInstance
  decLe := inferInstance

section score

variable (F : Type) [ScoreArith F]

/-- Source: `routing.rs`, `UpstreamStats::success_rate` -/
def UpstreamStats.successRate (s : UpstreamStats) : F :=
  if s.requestsSent = 0 then 1.0
  else (s.responsesReceived : F) / (s.requestsSent : F)

/-- Source: `routing.rs`, `UpstreamStats::avg_response_time_ms` -/
def UpstreamStats.avgResponseTimeMs (s : UpstreamStats) : F :=
  (s.avgResponseTimeNs : F) / 1000000.0

/-- The weight of a health state in the score. Source: `routing.rs`, `UpstreamInfo::health_score` -/
def baseScore : HealthState → F
  | .healthy => 1.0
  | .unknown => 0.5
  | .unhealthy => 0.1

/-- The penalty for slow responses. Source: `routing.rs`, `UpstreamInfo::health_score` -/
def latencyFactor (responseTimeMs : F) : F :=
  if responseTimeMs > (1000.0 : F) then 0.5
  else if responseTimeMs > (500.0 : F) then 0.7
  else if responseTimeMs > (100.0 : F) then 0.9
  else 1.0

/-- Source: `routing.rs`, `UpstreamInfo::health_score` -/
def UpstreamInfo.healthScore (u : UpstreamInfo) : F :=
  baseScore F u.healthState * u.stats.successRate F * latencyFactor F (u.stats.avgResponseTimeMs F)

end score

namespace UpstreamInfo

/-- Source: `routing.rs`, `UpstreamInfo::new` -/
def new (config : UpstreamConfig) (now : ℕ) : UpstreamInfo :=
  ⟨config, .unknown, .new now, 0, now⟩

/-- The failure count after a health report. Source: `routing.rs`, `UpstreamInfo::set_health_state`
-/
def countHealthFailure (u : UpstreamInfo) : HealthState → UpstreamInfo
  | .healthy => { u with healthFailures := 0 }
  | .unhealthy => { u with healthFailures := wrappingAdd u.healthFailures 1 }
  | .unknown => u

/-- Source: `routing.rs`, `UpstreamInfo::set_health_state` -/
def setHealthState (u : UpstreamInfo) (state : HealthState) (now : ℕ) : UpstreamInfo :=
  { u with healthState := state, lastHealthCheck := now }.countHealthFailure state

/-- Source: `routing.rs`, `UpstreamInfo::is_available` -/
def isAvailable (u : UpstreamInfo) : Bool :=
  match u.healthState with
  | .healthy | .unknown => true
  | .unhealthy => false

/-- A health report leaves the configuration alone. -/
@[simp] theorem setHealthState_config (u : UpstreamInfo) (state : HealthState) (now : ℕ) :
    (u.setHealthState state now).config = u.config := by
  cases state <;> rfl

end UpstreamInfo

/-! ## The heap -/

/-- An `Arc<UpstreamInfo>`: the address of a shared upstream. -/
abbrev UpstreamRef := ℕ

/-- The upstreams behind the `Arc`s, by address. Nothing is ever freed: an upstream that was
replaced stays reachable for whoever still holds its address. -/
structure Heap where
  cells : List UpstreamInfo
deriving DecidableEq, Repr

namespace Heap

/-- The empty heap. -/
def empty : Heap := ⟨[]⟩

/-- The upstream at an address. -/
def get (h : Heap) (r : UpstreamRef) : UpstreamInfo := h.cells.getD r default

/-- Change the upstream at an address. -/
def modify (h : Heap) (r : UpstreamRef) (f : UpstreamInfo → UpstreamInfo) : Heap :=
  ⟨h.cells.modify r f⟩

/-- `Arc::new` on each of a list of upstreams. -/
def alloc (h : Heap) (us : List UpstreamInfo) : Heap × List UpstreamRef :=
  (⟨h.cells ++ us⟩, List.range' h.cells.length us.length)

/-- Is the upstream at an address available? -/
def isAvailable (h : Heap) (r : UpstreamRef) : Bool := (h.get r).isAvailable

/-- A change at one address is not seen at another. -/
theorem get_modify_of_ne {h : Heap} {r r' : UpstreamRef} (hne : r ≠ r')
    (f : UpstreamInfo → UpstreamInfo) : (h.modify r f).get r' = h.get r' := by
  simp [get, modify, List.getD_eq_getElem?_getD, hne]

/-- A change is seen at its address. -/
theorem get_modify_self {h : Heap} {r : UpstreamRef} (hr : r < h.cells.length)
    (f : UpstreamInfo → UpstreamInfo) : (h.modify r f).get r = f (h.get r) := by
  simp [get, modify, List.getD_eq_getElem?_getD, hr]

/-- What a change keeps of its upstream, it keeps everywhere. -/
theorem get_modify_proj_at {γ : Type} (π : UpstreamInfo → γ) {f : UpstreamInfo → UpstreamInfo}
    {h : Heap} {r : UpstreamRef} (hf : π (f (h.get r)) = π (h.get r)) (r' : UpstreamRef) :
    π ((h.modify r f).get r') = π (h.get r') := by
  by_cases hr : r < h.cells.length
  · by_cases hne : r = r'
    · subst hne
      rw [get_modify_self hr, hf]
    · rw [get_modify_of_ne hne]
  · have hmod : h.modify r f = h := by
      simp [modify, List.modify_eq_self (not_lt.mp hr)]
    rw [hmod]

/-- What a change keeps of each upstream, it keeps everywhere. -/
theorem get_modify_proj {γ : Type} (π : UpstreamInfo → γ) {f : UpstreamInfo → UpstreamInfo}
    (hf : ∀ u, π (f u) = π u) (h : Heap) (r r' : UpstreamRef) :
    π ((h.modify r f).get r') = π (h.get r') :=
  get_modify_proj_at π (hf (h.get r)) r'

/-- An upstream of before is still there after an allocation. -/
theorem get_alloc {h : Heap} {us : List UpstreamInfo} {r : UpstreamRef}
    (hr : r < h.cells.length) : (h.alloc us).1.get r = h.get r := by
  unfold alloc get
  rw [List.getD_eq_getElem?_getD, List.getD_eq_getElem?_getD, List.getElem?_append_left hr]

/-- The new addresses are those of new cells. -/
theorem lt_of_mem_alloc {h : Heap} {us : List UpstreamInfo} {r : UpstreamRef}
    (hr : r ∈ (h.alloc us).2) : r < (h.alloc us).1.cells.length := by
  unfold alloc at hr ⊢
  rw [List.mem_range'_1] at hr
  rw [List.length_append]
  exact hr.2

/-- The new addresses hold the new upstreams. -/
theorem map_get_alloc (h : Heap) (us : List UpstreamInfo) :
    (h.alloc us).2.map (h.alloc us).1.get = us := by
  apply List.ext_getElem
  · simp [alloc]
  · intro i hi₁ hi₂
    simp only [alloc, List.getElem_map, List.getElem_range', get, one_mul]
    rw [List.getD_eq_getElem?_getD, List.getElem?_append_right (by omega),
      Nat.add_sub_cancel_left, List.getElem?_eq_getElem hi₂, Option.getD_some]

end Heap

end HarbrRouter.Routing
