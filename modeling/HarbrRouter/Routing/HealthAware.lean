import HarbrRouter.Routing.Selection
import Mathlib.Tactic.Positivity
import Mathlib.Tactic.NormNum

/-!
# When the health-aware strategy finds an upstream

In exact arithmetic the score of an available upstream is a product of a base score of at least 0.1,
the success rate, a latency factor of at least 0.5 and the weight. The only factor that can be zero
is the success rate, and it is zero from the first failure of an upstream that never succeeded.

**Theorem** (`healthAware_selects_iff`): in every history with positive weights, the strategy finds
an upstream where one is available exactly when an available one has not failed all of its requests.
The weights of the list are those of the configuration, at least 1 in every history
(`weight_of_history`); so the filter keeps just the available upstreams that have not failed all of
their requests (`combinedScore_pos_iff`), and the strategy answers `None` just when the filter keeps
none.
-/

set_option autoImplicit false

namespace HarbrRouter.Routing

open PointRing

/-! ## The factors of a score -/

/-- No health state has a base score of zero. -/
theorem baseScore_pos (s : HealthState) : (0 : ℚ) < baseScore ℚ s := by
  cases s with
  | healthy =>
      change (0 : ℚ) < 1.0
      norm_num
  | unhealthy =>
      change (0 : ℚ) < 0.1
      norm_num
  | unknown =>
      change (0 : ℚ) < 0.5
      norm_num

/-- No response time makes the latency factor zero. -/
theorem latencyFactor_pos (ms : ℚ) : (0 : ℚ) < latencyFactor ℚ ms := by
  unfold latencyFactor
  split_ifs
  · change (0 : ℚ) < 0.5
    norm_num
  · change (0 : ℚ) < 0.7
    norm_num
  · change (0 : ℚ) < 0.9
    norm_num
  · change (0 : ℚ) < 1.0
    norm_num

/-- The success rate is zero when there were requests and none was answered. -/
theorem successRate_pos_iff (s : UpstreamStats) :
    (0 : ℚ) < s.successRate ℚ ↔ s.requestsSent = 0 ∨ s.responsesReceived ≠ 0 := by
  unfold UpstreamStats.successRate
  split_ifs with h
  · refine iff_of_true ?_ (Or.inl h)
    change (0 : ℚ) < 1.0
    norm_num
  · have hsent : (0 : ℚ) < (s.requestsSent : ℚ) := by exact_mod_cast Nat.pos_of_ne_zero h
    rw [or_iff_right h]
    change (0 : ℚ) < (s.responsesReceived : ℚ) / (s.requestsSent : ℚ) ↔ _
    rw [div_pos_iff_of_pos_right hsent, Nat.cast_pos, Nat.pos_iff_ne_zero]

/-- An upstream that was never tried or has answered at least once. -/
def UpstreamStats.NotAllFailed (s : UpstreamStats) : Prop :=
  s.requestsSent = 0 ∨ s.responsesReceived ≠ 0

/-- With a weight of at least 1, the filter keeps exactly the upstreams that have not failed all
of their requests. -/
theorem combinedScore_pos_iff {heap : Heap} {r : UpstreamRef}
    (hw : 1 ≤ (heap.get r).config.weight) :
    (0.0 : ℚ) < Router.combinedScore ℚ heap r ↔ (heap.get r).stats.NotAllFailed := by
  have hweight : (0 : ℚ) < ((heap.get r).config.weight : ℚ) := by exact_mod_cast hw
  have hbase := baseScore_pos (heap.get r).healthState
  have hlatency := latencyFactor_pos ((heap.get r).stats.avgResponseTimeMs ℚ)
  rw [UpstreamStats.NotAllFailed, ← successRate_pos_iff]
  unfold Router.combinedScore UpstreamInfo.healthScore
  rw [show (0.0 : ℚ) = 0 by norm_num]
  apply (mul_pos_iff_of_pos_right hweight).trans
  apply (mul_pos_iff_of_pos_right hlatency).trans
  exact mul_pos_iff_of_pos_left hbase

namespace World

/-! ## Histories with positive weights -/

/-- Every list that a history installs has weights of at least 1.
Source: `config.rs`, `UpstreamConfig::validate` -/
def PositiveWeights (ops : List Op) : Prop :=
  ∀ configs now, Op.updateUpstreams configs now ∈ ops → ∀ c ∈ configs, 1 ≤ c.weight

/-- The upstreams of the current list have weights of at least 1. -/
theorem weight_of_history (F : Type) [ScoreArith F] (hashKey : String → U64)
    (search : BinarySearch U64) (strategy : LoadBalancingStrategy) {ops : List Op}
    (hw : PositiveWeights ops) :
    let w := history F hashKey search strategy ops
    ∀ r ∈ w.router.upstreams, 1 ≤ (w.heap.get r).config.weight := by
  refine history_induction F hashKey search
    (I := fun w => ∀ r ∈ w.router.upstreams, 1 ≤ (w.heap.get r).config.weight) ?_ ?_
  · intro r hr
    simp [Router.new] at hr
  · intro w op hop ih
    rcases w.apply_cases F hashKey search op with ⟨configs, now, rfl, heq⟩ | ⟨r, state, now, heq⟩ |
      (heq | heq) | ⟨r, f, heq⟩
    · rw [heq]
      intro r hr
      simp only [Router.rebuildRing_upstreams] at hr
      have hget := List.mem_map_of_mem
        (f := (w.heap.alloc (configs.map fun c => .new c now)).1.get) hr
      rw [Heap.map_get_alloc] at hget
      obtain ⟨c, hc, hcr⟩ := List.mem_map.mp hget
      rw [← hcr]
      exact hw configs now hop c hc
    · rw [heq]
      intro r' hr'
      simp only [Router.rebuildRing_upstreams] at hr'
      rw [Heap.get_modify_proj UpstreamInfo.config (fun u => u.setHealthState_config state now)]
      exact ih r' hr'
    · rwa [heq]
    · rw [heq]
      exact ih
    · rw [heq]
      intro r' hr'
      have hconfig : ∀ u : UpstreamInfo, { u with stats := f u.stats }.config = u.config :=
        fun _ => rfl
      change 1 ≤ ((w.heap.modify r _).get r').config.weight
      rw [Heap.get_modify_proj UpstreamInfo.config hconfig]
      exact ih r' hr'

/-- **When the health-aware strategy selects.** After every history with positive weights, an
available upstream means a selection if and only if no upstream is available or some available
upstream has not failed all of its requests. -/
theorem healthAware_selects_iff (hashKey : String → U64) (search : BinarySearch U64)
    (ops : List Op) (hw : PositiveWeights ops) (sessionKey : Option String) :
    let w := history ℚ hashKey search .healthAware ops
    ((∃ r ∈ w.router.upstreams, w.heap.isAvailable r = true) →
        (w.router.selectUpstream ℚ hashKey search w.heap sessionKey).2.isSome = true) ↔
      (∀ r ∈ w.router.upstreams, w.heap.isAvailable r = false) ∨
        ∃ r ∈ w.router.upstreams, w.heap.isAvailable r = true ∧
          (w.heap.get r).stats.NotAllFailed := by
  intro w
  have hweight := weight_of_history ℚ hashKey search .healthAware hw
  have hstrategy : w.router.strategy = .healthAware := history_strategy ℚ hashKey search _ ops
  have hselect : (∃ r ∈ w.router.upstreams, w.heap.isAvailable r = true) →
      ((w.router.selectUpstream ℚ hashKey search w.heap sessionKey).2.isSome = true ↔
        ∃ r ∈ w.router.upstreams, w.heap.isAvailable r = true ∧
          (w.heap.get r).stats.NotAllFailed) := by
    rintro ⟨r₀, hr₀, -⟩
    have hne : ¬ w.router.upstreams.isEmpty = true := by
      simpa using List.ne_nil_of_mem hr₀
    have hfst : (w.router.selectUpstream ℚ hashKey search w.heap sessionKey).2 =
        (w.router.selectHealthAware ℚ w.heap w.router.upstreams).2 := by
      simp only [Router.selectUpstream, if_neg hne, hstrategy]
    rw [hfst, ← Option.ne_none_iff_isSome, Ne, Router.selectHealthAware_eq_none_iff,
      List.eq_nil_iff_forall_not_mem]
    push Not
    constructor
    · rintro ⟨c, hc⟩
      obtain ⟨hr, hav, hscore, hpos⟩ := (Router.mem_candidates ℚ).mp hc
      rw [hscore] at hpos
      exact ⟨c.1, hr, hav, (combinedScore_pos_iff (hweight c.1 hr)).mp hpos⟩
    · rintro ⟨r, hr, hav, hstats⟩
      exact ⟨(r, Router.combinedScore ℚ w.heap r), (Router.mem_candidates ℚ).mpr
        ⟨hr, hav, rfl, (combinedScore_pos_iff (hweight r hr)).mpr hstats⟩⟩
  constructor
  · intro h
    by_cases hav : ∃ r ∈ w.router.upstreams, w.heap.isAvailable r = true
    · exact Or.inr ((hselect hav).mp (h hav))
    · left
      push Not at hav
      simpa using hav
  · rintro (hnone | hsome) hav
    · obtain ⟨r, hr, hr'⟩ := hav
      rw [hnone r hr] at hr'
      exact absurd hr' (by decide)
    · exact (hselect hav).mpr hsome

/-- A history with one upstream of weight 1: it becomes healthy, is selected and fails. -/
def oneFailure : List Op :=
  [.updateUpstreams [⟨"a", "a:80", 1, 0, 5000⟩] 0, .updateUpstreamHealth "a" .healthy 0,
    .selectUpstream none, .recordFailure 0 0]

/-- After its first failure the only upstream is healthy, and is not selected any more. -/
theorem healthAware_drops_only_upstream :
    let w := history ℚ (fun _ => 0) (BinarySearch.linear U64) .healthAware oneFailure
    PositiveWeights oneFailure ∧ 0 ∈ w.router.upstreams ∧ w.heap.isAvailable 0 = true ∧
      (w.router.selectUpstream ℚ (fun _ => 0) (BinarySearch.linear U64) w.heap none).2 = none := by
  refine ⟨?_, by decide +kernel⟩
  intro configs now h c hc
  simp only [oneFailure, List.mem_cons, Op.updateUpstreams.injEq, reduceCtorEq, List.not_mem_nil,
    or_false] at h
  obtain ⟨rfl, -⟩ := h
  obtain rfl := List.mem_singleton.mp hc
  exact le_rfl

/-- Two upstreams: the first has failed twice, the second has failed once and answered once. -/
def failuresAndSuccess : List Op :=
  [.updateUpstreams [⟨"a", "a:80", 1, 0, 5000⟩, ⟨"b", "b:80", 1, 0, 5000⟩] 0, .recordFailure 0 1,
    .recordFailure 1 2, .recordSuccess 1 (20 * 10 ^ 6) 3, .recordFailure 0 4]

/-- The condition at work: the second of the two is available and has not failed all of its
requests, so an upstream is selected. -/
theorem healthAware_selects_iff_answered :
    let w := history ℚ (fun _ => 0) (BinarySearch.linear U64) .healthAware failuresAndSuccess
    (w.router.selectUpstream ℚ (fun _ => 0) (BinarySearch.linear U64) w.heap none).2.isSome =
      true := by
  refine (healthAware_selects_iff (fun _ => 0) (BinarySearch.linear U64) failuresAndSuccess ?_
    none).mpr (Or.inr ?_) ?_
  · simp [PositiveWeights, failuresAndSuccess]
  · exact ⟨1, by decide, by decide, Or.inr (by decide)⟩
  · exact ⟨1, by decide, by decide⟩

end World

end HarbrRouter.Routing
