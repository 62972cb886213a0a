import HarbrRouter.Routing.Router

/-!
# What the five strategies select, in any history of calls

**Theorem** (`history_selectUpstream`): after any history of calls, a selected upstream is a member
of the current list and available, for every strategy, and the strategies without scores find one
whenever there is one.

Four strategies look at the health states themselves, and it is a fact about each of them
(`selectRoundRobin_spec` and the others). Consistent hashing never does: its ring has to be the one
that a rebuild would make from the current list (`World.InSync`), and then it answers an available
upstream (`selectConsistentHash_spec`). Every call keeps the ring in step, since those that change
the list or a health end with a rebuild (`InSync.apply`).
-/

set_option autoImplicit false

namespace HarbrRouter.Routing

open PointRing

/-- What a strategy may answer on a list: only available members. -/
def SelectsAvailable (heap : Heap) (upstreams : List UpstreamRef) (answer : Option UpstreamRef) :
    Prop :=
  ∀ r, answer = some r → r ∈ upstreams ∧ heap.isAvailable r = true

/-- What a strategy that does not score may not do: answer `None` beside an available upstream. -/
def NoneOnlyIfNoneAvailable (heap : Heap) (upstreams : List UpstreamRef)
    (answer : Option UpstreamRef) : Prop :=
  answer = none → ∀ r ∈ upstreams, heap.isAvailable r = false

namespace Router

/-! ## One selection -/

/-- A rotation answers a member of its list. -/
theorem mem_of_rotate {self : Router} {l : List UpstreamRef} {r : UpstreamRef}
    (h : (self.rotate l).2 = some r) : r ∈ l := by
  unfold rotate at h
  split_ifs at h
  exact List.mem_of_getElem? h

/-- A rotation answers `None` on the empty list only. -/
theorem rotate_eq_none {self : Router} {l : List UpstreamRef} (h : (self.rotate l).2 = none) :
    l = [] := by
  unfold rotate at h
  split_ifs at h with hl
  · simpa using hl
  · have hlen : 0 < l.length := List.length_pos_of_ne_nil (by simpa using hl)
    rw [List.getElem?_eq_none_iff] at h
    exact absurd (Nat.mod_lt _ hlen) (not_lt.mpr h)

/-- No available upstream is left out when the filtered list is empty. -/
theorem isAvailable_of_filter_nil {heap : Heap} {upstreams : List UpstreamRef}
    (h : upstreams.filter heap.isAvailable = []) : ∀ r ∈ upstreams, heap.isAvailable r = false := by
  intro r hr
  simpa using List.filter_eq_nil_iff.mp h r hr

section strategies

variable (self : Router) (heap : Heap) (upstreams : List UpstreamRef)

/-- Round robin answers an available upstream, if there is one. -/
theorem selectRoundRobin_spec :
    SelectsAvailable heap upstreams (self.selectRoundRobin heap upstreams).2 ∧
      NoneOnlyIfNoneAvailable heap upstreams (self.selectRoundRobin heap upstreams).2 :=
  ⟨fun _ h => List.mem_filter.mp (mem_of_rotate h),
    fun h => isAvailable_of_filter_nil (rotate_eq_none h)⟩

/-- Weighted round robin answers an available upstream, if there is one. -/
theorem selectWeightedRoundRobin_spec :
    SelectsAvailable heap upstreams (self.selectWeightedRoundRobin heap upstreams).2 ∧
      NoneOnlyIfNoneAvailable heap upstreams (self.selectWeightedRoundRobin heap upstreams).2 := by
  constructor
  · intro r h
    obtain ⟨r', hr', hrep⟩ := List.mem_flatMap.mp (mem_of_rotate h)
    rw [List.eq_of_mem_replicate hrep]
    exact List.mem_filter.mp hr'
  · intro h
    apply isAvailable_of_filter_nil
    rw [List.eq_nil_iff_forall_not_mem]
    intro r hr
    -- every weight counts at least once
    have hmem := List.mem_replicate.mpr
      ⟨(Nat.pos_iff_ne_zero.mp (lt_max_of_lt_right one_pos) :
        max (heap.get r).config.weight 1 ≠ 0), (rfl : r = r)⟩
    exact List.eq_nil_iff_forall_not_mem.mp (rotate_eq_none h) r
      (List.mem_flatMap.mpr ⟨r, hr, hmem⟩)

/-- Least connections answers an available upstream, if there is one. -/
theorem selectLeastConnections_spec :
    SelectsAvailable heap upstreams (selectLeastConnections heap upstreams) ∧
      NoneOnlyIfNoneAvailable heap upstreams (selectLeastConnections heap upstreams) :=
  ⟨fun _ h => List.mem_filter.mp (List.argmin_mem h),
    fun h => isAvailable_of_filter_nil (List.argmin_eq_none.mp h)⟩

variable {heap upstreams}

/-- On a ring in step with the list, consistent hashing answers an available upstream, if there is
one. -/
theorem selectConsistentHash_spec (hashKey : String → U64) (search : BinarySearch U64)
    (self : ConsistentHashRing) {hashRing : ConsistentHashRing}
    (hvn : 0 < self.virtualNodesPerUpstream)
    (hring : hashRing = self.update hashKey (infos heap upstreams)) (key : String) :
    SelectsAvailable heap upstreams (selectConsistentHash hashKey search hashRing upstreams key) ∧
      NoneOnlyIfNoneAvailable heap upstreams
        (selectConsistentHash hashKey search hashRing upstreams key) := by
  subst hring
  unfold selectConsistentHash
  rcases h : (self.update hashKey (infos heap upstreams)).getUpstream hashKey search key
    with _ | idx
  · refine ⟨fun r hr => by simp at hr, fun _ r hr => ?_⟩
    exact (getUpstream_eq_none search hvn).mp h _ (List.mem_map_of_mem hr)
  · obtain ⟨u, hu, hav⟩ := available_of_getUpstream search h
    obtain ⟨r, hr, rfl⟩ : ∃ r, upstreams[idx]? = some r ∧ heap.get r = u := by
      simpa [infos, List.getElem?_map, Option.map_eq_some_iff] using hu
    simp only [hr]
    refine ⟨fun r' h' => ?_, fun h' => by simp at h'⟩
    obtain rfl := Option.some.inj h'
    exact ⟨List.mem_of_getElem? hr, hav⟩

end strategies

/-! ## The health-aware walk -/

section healthAware

variable (F : Type) [ScoreArith F]

/-- A candidate is an available member with a positive score. -/
theorem mem_candidates {heap : Heap} {upstreams : List UpstreamRef} {c : UpstreamRef × F} :
    c ∈ candidates F heap upstreams ↔
      c.1 ∈ upstreams ∧ heap.isAvailable c.1 = true ∧ c.2 = combinedScore F heap c.1 ∧
        (0.0 : F) < c.2 := by
  obtain ⟨r, score⟩ := c
  simp only [candidates, List.mem_filter, List.mem_map, decide_eq_true_eq, Prod.mk.injEq]
  constructor
  · rintro ⟨⟨r', ⟨hr, hav⟩, rfl, rfl⟩, hpos⟩
    exact ⟨hr, hav, rfl, hpos⟩
  · rintro ⟨hr, hav, rfl, hpos⟩
    exact ⟨⟨r, ⟨hr, hav⟩, rfl, rfl⟩, hpos⟩

variable {F}

/-- The walk ends at one of its candidates. -/
theorem mem_of_walkScores {randomValue : F} {cs : List (UpstreamRef × F)} {r : UpstreamRef}
    (h : walkScores randomValue cs = some r) : ∃ score, (r, score) ∈ cs := by
  induction cs generalizing randomValue with
  | nil => simp [walkScores] at h
  | cons c cs ih =>
      unfold walkScores at h
      split_ifs at h
      · obtain rfl := Option.some.inj h
        exact ⟨c.2, List.mem_cons_self⟩
      · obtain ⟨score, hmem⟩ := ih h
        exact ⟨score, List.mem_cons_of_mem c hmem⟩

variable (F) (self : Router) (heap : Heap) (upstreams : List UpstreamRef)

/-- The health-aware strategy answers one of its candidates. -/
theorem mem_candidates_of_selectHealthAware {r : UpstreamRef}
    (h : (self.selectHealthAware F heap upstreams).2 = some r) :
    ∃ score, (r, score) ∈ candidates F heap upstreams := by
  unfold selectHealthAware at h
  split_ifs at h
  rcases Option.or_eq_some_iff.mp h with hwalk | ⟨-, hhead⟩
  · obtain ⟨score, hmem⟩ := mem_of_walkScores hwalk
    exact ⟨score, (List.perm_insertionSort _ _).mem_iff.mp hmem⟩
  · obtain ⟨c, hc, rfl⟩ := Option.map_eq_some_iff.mp hhead
    exact ⟨c.2, (List.perm_insertionSort _ _).mem_iff.mp (List.mem_of_mem_head? hc)⟩

/-- The health-aware strategy answers an available upstream. -/
theorem selectHealthAware_selectsAvailable :
    SelectsAvailable heap upstreams (self.selectHealthAware F heap upstreams).2 := by
  intro r h
  obtain ⟨score, hmem⟩ := self.mem_candidates_of_selectHealthAware F heap upstreams h
  obtain ⟨hr, hav, -⟩ := (mem_candidates F).mp hmem
  exact ⟨hr, hav⟩

/-- The health-aware strategy answers `None` exactly when it has no candidate. -/
theorem selectHealthAware_eq_none_iff :
    (self.selectHealthAware F heap upstreams).2 = none ↔ candidates F heap upstreams = [] := by
  unfold selectHealthAware
  split_ifs with h
  · simpa using h
  · have hne : candidates F heap upstreams ≠ [] := by simpa using h
    refine iff_of_false (fun hnone => ?_) hne
    obtain ⟨-, hhead⟩ := Option.or_eq_none_iff.mp hnone
    rw [Option.map_eq_none_iff, List.head?_eq_none_iff] at hhead
    have hperm := List.perm_insertionSort (fun a b : UpstreamRef × F => b.2 ≤ a.2)
      (candidates F heap upstreams)
    rw [hhead] at hperm
    exact hne hperm.nil_eq.symm

end healthAware

/-! ## All strategies -/

/-- With a ring in step with the list, every strategy selects available members, and those without
scores find one whenever there is one. -/
theorem selectUpstream_spec (F : Type) [ScoreArith F] (hashKey : String → U64)
    (search : BinarySearch U64) (self : Router) {heap : Heap} (sessionKey : Option String)
    (hring : self.strategy = .consistentHashing →
      self.hashRing = (ConsistentHashRing.new 150).update hashKey (infos heap self.upstreams)) :
    SelectsAvailable heap self.upstreams
        (self.selectUpstream F hashKey search heap sessionKey).2 ∧
      (self.strategy ≠ .healthAware → NoneOnlyIfNoneAvailable heap self.upstreams
        (self.selectUpstream F hashKey search heap sessionKey).2) := by
  unfold selectUpstream
  split_ifs with hempty
  · have hnil : self.upstreams = [] := by simpa using hempty
    rw [hnil]
    exact ⟨fun r h => by simp at h, fun _ _ r h => by simp at h⟩
  · cases hs : self.strategy with
    | roundRobin =>
        obtain ⟨hmem, hnone⟩ := self.selectRoundRobin_spec heap self.upstreams
        exact ⟨hmem, fun _ => hnone⟩
    | weightedRoundRobin =>
        obtain ⟨hmem, hnone⟩ := self.selectWeightedRoundRobin_spec heap self.upstreams
        exact ⟨hmem, fun _ => hnone⟩
    | leastConnections =>
        obtain ⟨hmem, hnone⟩ := selectLeastConnections_spec heap self.upstreams
        exact ⟨hmem, fun _ => hnone⟩
    | consistentHashing =>
        cases sessionKey with
        | some key =>
            obtain ⟨hmem, hnone⟩ := selectConsistentHash_spec hashKey search
              (.new 150) (by decide) (hring hs) key
            exact ⟨hmem, fun _ => hnone⟩
        | none =>
            obtain ⟨hmem, hnone⟩ := self.selectRoundRobin_spec heap self.upstreams
            exact ⟨hmem, fun _ => hnone⟩
    | healthAware =>
        exact ⟨self.selectHealthAware_selectsAvailable F heap self.upstreams,
          fun h => absurd rfl h⟩

/-- Whatever the ring is, a selected upstream is a member of the list. -/
theorem mem_of_selectUpstream {F : Type} [ScoreArith F] {hashKey : String → U64}
    {search : BinarySearch U64} {self : Router} {heap : Heap} {sessionKey : Option String}
    {r : UpstreamRef} (h : (self.selectUpstream F hashKey search heap sessionKey).2 = some r) :
    r ∈ self.upstreams := by
  unfold selectUpstream at h
  split_ifs at h
  · cases hs : self.strategy with
    | roundRobin =>
        rw [hs] at h
        exact ((self.selectRoundRobin_spec heap self.upstreams).1 r h).1
    | weightedRoundRobin =>
        rw [hs] at h
        exact ((self.selectWeightedRoundRobin_spec heap self.upstreams).1 r h).1
    | leastConnections =>
        rw [hs] at h
        exact ((selectLeastConnections_spec heap self.upstreams).1 r h).1
    | consistentHashing =>
        rw [hs] at h
        cases sessionKey with
        | none => exact ((self.selectRoundRobin_spec heap self.upstreams).1 r h).1
        | some key =>
            simp only [selectConsistentHash] at h
            split at h
            · exact List.mem_of_getElem? h
            · exact absurd h (by simp)
    | healthAware =>
        rw [hs] at h
        exact (self.selectHealthAware_selectsAvailable F heap self.upstreams r h).1

end Router

/-! ## The ring stays in step -/

namespace World

/-- A router that hashes keeps the ring that a rebuild would make from its list. -/
def InSync (hashKey : String → U64) (w : World) : Prop :=
  w.router.strategy = .consistentHashing → w.router.hashRing =
    (ConsistentHashRing.new 150).update hashKey (Router.infos w.heap w.router.upstreams)

/-- The ring of a router in step has 150 virtual nodes for each upstream. -/
theorem InSync.virtualNodesPerUpstream {hashKey : String → U64} {w : World}
    (h : w.InSync hashKey) (hs : w.router.strategy = .consistentHashing) :
    w.router.hashRing.virtualNodesPerUpstream = 150 := by
  rw [h hs, ConsistentHashRing.update_virtualNodesPerUpstream]
  rfl

/-- A rebuild brings the ring in step. -/
theorem inSync_rebuildRing (hashKey : String → U64) (heap : Heap) {router : Router}
    (hvn : router.strategy = .consistentHashing → router.hashRing.virtualNodesPerUpstream = 150) :
    InSync hashKey ⟨router.rebuildRing hashKey heap, heap⟩ := by
  intro hs
  have hs' : router.strategy = .consistentHashing := by simpa using hs
  simp only [Router.rebuildRing_upstreams]
  rw [Router.rebuildRing_hashRing hashKey heap hs']
  exact ConsistentHashRing.update_congr hashKey (hvn hs') rfl

/-- Statistics are not on the ring. -/
theorem InSync.modifyStats {hashKey : String → U64} {w : World} (h : w.InSync hashKey)
    (r : UpstreamRef) (f : UpstreamStats → UpstreamStats) :
    (w.modifyStats r f).InSync hashKey := by
  intro hs
  refine (h hs).trans (ConsistentHashRing.update_congr hashKey rfl ?_)
  simp only [Router.infos, List.map_map]
  refine List.map_congr_left fun r' _ => ?_
  have hview : ∀ u : UpstreamInfo, { u with stats := f u.stats }.ringView = u.ringView :=
    fun _ => rfl
  exact (Heap.get_modify_proj UpstreamInfo.ringView hview w.heap r r').symm

section history

variable (F : Type) [ScoreArith F] (hashKey : String → U64) (search : BinarySearch U64)

/-- Every call keeps the ring in step. -/
theorem InSync.apply {w : World} (h : w.InSync hashKey) (op : Op) :
    (w.apply F hashKey search op).InSync hashKey := by
  rcases w.apply_cases F hashKey search op with ⟨configs, now, -, heq⟩ | ⟨r, state, now, heq⟩ |
    (heq | heq) | ⟨r, f, heq⟩
  · rw [heq]
    exact inSync_rebuildRing hashKey _ h.virtualNodesPerUpstream
  · rw [heq]
    exact inSync_rebuildRing hashKey _ h.virtualNodesPerUpstream
  · rwa [heq]
  · rw [heq]
    exact h
  · rw [heq]
    exact h.modifyStats r f

/-- What a new router has and each call of a history keeps, the history keeps. -/
theorem history_induction {I : World → Prop} {strategy : LoadBalancingStrategy} {ops : List Op}
    (hnew : I ⟨.new strategy, .empty⟩)
    (hstep : ∀ w op, op ∈ ops → I w → I (w.apply F hashKey search op)) :
    I (history F hashKey search strategy ops) :=
  List.foldlRecOn ops _ hnew fun w hw op hop => hstep w op hop hw

/-- The ring is in step after every history. -/
theorem history_inSync (strategy : LoadBalancingStrategy) (ops : List Op) :
    (history F hashKey search strategy ops).InSync hashKey := by
  refine history_induction F hashKey search ?_ fun w op _ hw => hw.apply F hashKey search op
  intro _
  rw [ConsistentHashRing.update_eq]
  rfl

/-- No call changes the strategy. -/
theorem history_strategy (strategy : LoadBalancingStrategy) (ops : List Op) :
    (history F hashKey search strategy ops).router.strategy = strategy := by
  refine history_induction F hashKey search (I := fun w => w.router.strategy = strategy) rfl ?_
  intro w op _ hw
  rcases w.apply_cases F hashKey search op with ⟨configs, now, -, heq⟩ | ⟨r, state, now, heq⟩ |
    (heq | heq) | ⟨r, f, heq⟩
  · rw [heq]
    simpa using hw
  · rw [heq]
    simpa using hw
  · rwa [heq]
  · rw [heq]
    exact hw
  · rw [heq]
    exact hw

/-- **Selection in any history.** Whatever calls came before, a selected upstream is a member of
the current list and available, for every strategy and session key; and a strategy without
scores answers `None` only when no upstream of the list is available. -/
theorem history_selectUpstream (strategy : LoadBalancingStrategy) (ops : List Op)
    (sessionKey : Option String) :
    let w := history F hashKey search strategy ops
    let answer := (w.router.selectUpstream F hashKey search w.heap sessionKey).2
    SelectsAvailable w.heap w.router.upstreams answer ∧
      (strategy ≠ .healthAware → NoneOnlyIfNoneAvailable w.heap w.router.upstreams answer) := by
  intro w answer
  have hstrategy : w.router.strategy = strategy := history_strategy F hashKey search strategy ops
  have hspec := w.router.selectUpstream_spec F hashKey search sessionKey
    (history_inSync F hashKey search strategy ops)
  rwa [hstrategy] at hspec

/-- After a failure report about the first of two upstreams, round robin answers the second; with
the other one reported too it answers `None`, and rightly so. -/
theorem history_selectUpstream_roundRobin :
    let ops : List Op := [.updateUpstreams [⟨"a", "a:80", 1, 0, 5000⟩, ⟨"b", "b:80", 1, 0, 5000⟩] 0,
      .updateUpstreamHealth "a" .unhealthy 0]
    let w := history ℚ (fun _ => 0) (BinarySearch.linear U64) .roundRobin ops
    let w' := history ℚ (fun _ => 0) (BinarySearch.linear U64) .roundRobin
      (ops ++ [.updateUpstreamHealth "b" .unhealthy 0])
    (1 ∈ w.router.upstreams ∧ w.heap.isAvailable 1 = true) ∧ w'.heap.isAvailable 1 = false :=
  ⟨(history_selectUpstream ℚ (fun _ => 0) (BinarySearch.linear U64) .roundRobin _ none).1 1
      (by decide),
    (history_selectUpstream ℚ (fun _ => 0) (BinarySearch.linear U64) .roundRobin _ none).2
      (by decide) (by decide) 1 (by decide)⟩

end history

end World

end HarbrRouter.Routing
