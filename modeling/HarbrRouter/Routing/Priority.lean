import HarbrRouter.Routing.Steady

/-!
# Priorities

`config.rs`, `UpstreamConfig::priority` ("higher = preferred"), and the five strategies of
`routing.rs`, none of which reads it.

**Theorem** (`priority_respected_iff`): from a reachable state on, as long as the list and the
health states stay, no selection answers an upstream beside an available one of a higher priority if
and only if all available upstreams have the same priority.

(⇐) What is selected is available (`World.history_selectUpstream`), and steady calls change neither
who is available nor the priorities (`OnePriority.sameList`), so there is no available upstream of a
higher priority (`OnePriority.respects`). (⇒) Every available upstream may be selected after some
steady calls (`World.exists_selected`), also the one with the lower of two priorities.
-/

set_option autoImplicit false

namespace HarbrRouter.Routing.Priority

open PointRing World

/-- No available upstream of the list has a higher priority than the one selected. -/
def RespectsPriority (heap : Heap) (upstreams : List UpstreamRef) (answer : Option UpstreamRef) :
    Prop :=
  ∀ r, answer = some r → ∀ u ∈ upstreams, heap.isAvailable u = true →
    (heap.get u).config.priority ≤ (heap.get r).config.priority

/-- All available upstreams have the same priority. -/
def OnePriority (w : World) : Prop :=
  ∀ u ∈ w.available, ∀ v ∈ w.available,
    (w.heap.get u).config.priority = (w.heap.get v).config.priority

instance (w : World) : Decidable (OnePriority w) :=
  inferInstanceAs (Decidable (∀ u ∈ w.available, ∀ v ∈ w.available, _ = _))

/-- Worlds with the same list have one priority alike. -/
theorem OnePriority.sameList {w w' : World} (h : OnePriority w) (hsame : SameList w w') :
    OnePriority w' := by
  have hmem : ∀ {u}, u ∈ w'.available → u ∈ w.available := fun {u} hu => by
    obtain ⟨hmem, hav⟩ := List.mem_filter.mp hu
    exact List.mem_filter.mpr ⟨hsame.upstreams ▸ hmem, hsame.isAvailable u ▸ hav⟩
  intro u hu v hv
  rw [hsame.config u, hsame.config v]
  exact h u (hmem hu) v (hmem hv)

section respects

variable (F : Type) [ScoreArith F] (hashKey : String → U64) (search : BinarySearch U64)

/-- Where the available upstreams have one priority, what is selected has it. -/
theorem OnePriority.respects {strategy : LoadBalancingStrategy} {ops : List Op}
    (h : OnePriority (history F hashKey search strategy ops)) (sessionKey : Option String) :
    let w := history F hashKey search strategy ops
    RespectsPriority w.heap w.router.upstreams
      (w.router.selectUpstream F hashKey search w.heap sessionKey).2 := by
  intro w r hr u hu hav
  have hselected := (history_selectUpstream F hashKey search strategy ops sessionKey).1 r hr
  exact (h u (List.mem_filter.mpr ⟨hu, hav⟩) r (List.mem_filter.mpr hselected)).le

/-- A history goes on with steady calls. -/
theorem steadyRun_history (strategy : LoadBalancingStrategy) (ops : List Op) {ops' : List Op}
    (hops : ∀ op ∈ ops', op.Steady) : SteadyRun F hashKey search
      (history F hashKey search strategy ops) (history F hashKey search strategy (ops ++ ops')) :=
  ⟨ops', hops, List.foldl_append.symm⟩

/-- **When priorities are respected**: for every strategy and after every history with positive
weights, all selections respect the priorities, whatever the session keys are and as long as the
list and the health states stay, exactly when all available upstreams have the same priority. (A
`Vec`, such as the turn of a rotation, has no more elements than a word can count.) -/
theorem priority_respected_iff [ScoreSigns F] (strategy : LoadBalancingStrategy) (ops : List Op)
    (hw : PositiveWeights ops)
    (hvec : (Fairness.turn (history F hashKey search strategy ops).heap
      (history F hashKey search strategy ops).router).length ≤ 2 ^ 64) :
    (∀ ops', (∀ op ∈ ops', op.Steady) → ∀ sessionKey,
        let w := history F hashKey search strategy (ops ++ ops')
        RespectsPriority w.heap w.router.upstreams
          (w.router.selectUpstream F hashKey search w.heap sessionKey).2) ↔
      OnePriority (history F hashKey search strategy ops) := by
  constructor
  · intro h
    have hle : ∀ u ∈ (history F hashKey search strategy ops).available,
        ∀ v ∈ (history F hashKey search strategy ops).available,
        ((history F hashKey search strategy ops).heap.get u).config.priority ≤
          ((history F hashKey search strategy ops).heap.get v).config.priority := by
      intro u hu v hv
      -- the turn of the second one comes, while the first one is available
      obtain ⟨w, ⟨ops', hops', hhistory⟩, hselected⟩ := exists_selected F hashKey search
        (allocated_history F hashKey search strategy ops)
        (weight_of_history F hashKey search strategy hw) hvec hv
      have hrun := steadyRun_history F hashKey search strategy ops hops'
      have hsame := hrun.sameList
      obtain ⟨hmem, hav⟩ := List.mem_filter.mp hu
      rw [← hsame.config u, ← hsame.config v]
      refine h ops' hops' none v ?_ u (hsame.upstreams.symm ▸ hmem)
        ((hsame.isAvailable u).trans hav)
      rw [← hselected, ← hhistory, history, history, List.foldl_append]
    exact fun u hu v hv => le_antisymm (hle u hu v hv) (hle v hv u hu)
  · intro h ops' hops' sessionKey
    have hrun := steadyRun_history F hashKey search strategy ops hops'
    exact OnePriority.respects F hashKey search (h.sameList hrun.sameList) sessionKey

end respects

/-- Two upstreams with the priorities. -/
def twoPriorities (priority priority' : ℕ) : List Op :=
  [.updateUpstreams [⟨"a", "127.0.0.1:9000", 1, priority, 5000⟩,
    ⟨"b", "127.0.0.1:9001", 1, priority', 5000⟩] 0]

/-- Two upstreams of the same priority are a list whose priorities are always respected. -/
theorem priority_respected_iff_equal :
    OnePriority (history ℚ (fun _ => 0) (BinarySearch.linear U64) .leastConnections
      (twoPriorities 10 10)) ∧
    ∀ ops', (∀ op ∈ ops', op.Steady) → ∀ sessionKey,
      let w := history ℚ (fun _ => 0) (BinarySearch.linear U64) .leastConnections
        (twoPriorities 10 10 ++ ops')
      RespectsPriority w.heap w.router.upstreams
        (w.router.selectUpstream ℚ (fun _ => 0) (BinarySearch.linear U64) w.heap sessionKey).2 := by
  have hequal : OnePriority (history ℚ (fun _ => 0) (BinarySearch.linear U64) .leastConnections
      (twoPriorities 10 10)) := by decide
  refine ⟨hequal, ?_⟩
  exact (priority_respected_iff ℚ (fun _ => 0) (BinarySearch.linear U64) .leastConnections
    (twoPriorities 10 10) (by simp [PositiveWeights, twoPriorities]) (by decide)).mpr hequal

/-- **A lower priority is selected**: round robin begins with the first of the two. -/
theorem lower_priority_selected :
    ∃ w, w = World.history ℚ (fun _ => 0) (BinarySearch.linear U64) .roundRobin
        (twoPriorities 0 10) ∧
      ¬ RespectsPriority w.heap w.router.upstreams
        (w.router.selectUpstream ℚ (fun _ => 0) (BinarySearch.linear U64) w.heap none).2 := by
  refine ⟨_, rfl, fun h => ?_⟩
  exact absurd (h 0 rfl 1 (by decide) rfl) (by decide)

end HarbrRouter.Routing.Priority
