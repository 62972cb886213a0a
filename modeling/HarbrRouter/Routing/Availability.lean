import HarbrRouter.Lib.Filtered
import HarbrRouter.Routing.Disruption

/-!
# Only the available upstreams count

`routing.rs`, `select_upstream`: every strategy goes through the available upstreams of the list in
its own way; consistent hashing does not go through the list at all, it keeps positions of the whole
list on its ring. Taking the unavailable upstreams out of the list, and rebuilding the ring from the
rest, shifts these positions, and changes no answer.

**Theorem** (`answers_withoutUnavailable`): no sequence of selections and outcomes tells the router
from the one that holds the available upstreams only (`Router.withoutUnavailable`).

The shorter router simulates the other one, call by call (`World.apply_withoutUnavailable`). For a
selection that is one equation for each strategy. Those that filter the list filter a filtered list;
for consistent hashing the points of the available upstreams are on both rings, at positions that
are shifted but in the same order (`mem_ringPoints_filter`), and an owner is found by the order of
the positions only, so both rings map a key to one upstream (`selectConsistentHash_filter`).
-/

set_option autoImplicit false

namespace HarbrRouter.Routing

open PointRing Filtered

namespace Router

/-! ## The ring of the available upstreams -/

section ring

variable {hashKey : String → U64} {search : BinarySearch U64} {heap : Heap}
  {upstreams : List UpstreamRef} {key : String}

/-- The points of the available upstreams are those of the list, at their new positions. -/
theorem mem_ringPoints_filter {vn c : ℕ} {p : U64} :
    (p, c) ∈ ringPoints hashKey vn (infos heap (upstreams.filter heap.isAvailable)) ↔
      ∃ b, (p, b) ∈ ringPoints hashKey vn (infos heap upstreams) ∧
        (upstreams.take b).countP heap.isAvailable = c := by
  have hinfo : ∀ {us : List UpstreamRef} {i : ℕ} {u : UpstreamInfo},
      (infos heap us)[i]? = some u ↔ ∃ r, us[i]? = some r ∧ heap.get r = u := by
    intro us i u
    simp [infos, List.getElem?_map, Option.map_eq_some_iff]
  constructor
  · rintro ⟨u, hu, hav, hnode⟩
    obtain ⟨r, hr, rfl⟩ := hinfo.mp hu
    obtain ⟨b, hb, hcount⟩ := exists_getElem?_of_filter hr
    exact ⟨b, ⟨heap.get r, hinfo.mpr ⟨r, hb, rfl⟩, hav, hnode⟩, hcount⟩
  · rintro ⟨b, ⟨u, hu, hav, hnode⟩, rfl⟩
    obtain ⟨r, hr, rfl⟩ := hinfo.mp hu
    exact ⟨heap.get r, hinfo.mpr ⟨r, getElem?_filter_countP hr hav, rfl⟩, hav, hnode⟩

/-- What a key is mapped to in the whole list, it is mapped to among the available upstreams. -/
theorem mapsTo_filter {self : ConsistentHashRing} {r : UpstreamRef}
    (h : MapsTo hashKey search self heap upstreams key r) :
    MapsTo hashKey search self heap (upstreams.filter heap.isAvailable) key r := by
  obtain ⟨idx, hidx, hr⟩ := mapsTo_iff.mp h
  have hmoved := hidx.map_owner (monotone_countP_take (P := heap.isAvailable) (l := upstreams))
    fun p c => mem_ringPoints_filter
  obtain ⟨p, -, u, hu, hav, -⟩ := hidx.claims
  obtain ⟨r', hr', rfl⟩ : ∃ r', upstreams[idx]? = some r' ∧ heap.get r' = u := by
    simpa [infos, List.getElem?_map, Option.map_eq_some_iff] using hu
  obtain rfl := Option.some.inj (hr.symm.trans hr')
  exact mapsTo_iff.mpr ⟨_, hmoved, getElem?_filter_countP hr hav⟩

/-- **The two rings map a key to one upstream**, or both to none. -/
theorem selectConsistentHash_filter (self : ConsistentHashRing) :
    selectConsistentHash hashKey search
        (self.update hashKey (infos heap (upstreams.filter heap.isAvailable)))
        (upstreams.filter heap.isAvailable) key =
      selectConsistentHash hashKey search (self.update hashKey (infos heap upstreams)) upstreams
        key := by
  refine Option.ext fun r => ⟨fun h => ?_, mapsTo_filter⟩
  obtain ⟨c, hc, hr⟩ := mapsTo_iff.mp h
  obtain ⟨p, -, hpoint⟩ := hc.claims
  obtain ⟨b, hb, -⟩ := mem_ringPoints_filter.mp hpoint
  -- the whole list has a point too, so that the key is mapped to something there
  obtain ⟨idx, hidx⟩ := exists_assigned (ringPoints_finite (infos heap upstreams)) ⟨_, hb⟩
    (hashKey key)
  obtain ⟨u, hu, -, -⟩ := hidx.claims.choose_spec.2
  obtain ⟨r', hr', -⟩ : ∃ r', upstreams[idx]? = some r' ∧ heap.get r' = u := by
    simpa [infos, List.getElem?_map, Option.map_eq_some_iff] using hu
  have hwhole : MapsTo hashKey search self heap upstreams key r' := mapsTo_iff.mpr ⟨idx, hidx, hr'⟩
  obtain rfl := Option.some.inj (h.symm.trans (mapsTo_filter hwhole))
  exact hwhole

end ring

/-! ## Selection -/

/-- The router that holds the available upstreams only. -/
def withoutUnavailable (hashKey : String → U64) (heap : Heap) (self : Router) : Router :=
  { self with upstreams := self.upstreams.filter heap.isAvailable }.rebuildRing hashKey heap

section withoutUnavailable

variable {hashKey : String → U64} {heap : Heap}

/-- The shorter router has the available upstreams of the router. -/
@[simp] theorem withoutUnavailable_upstreams (self : Router) :
    (self.withoutUnavailable hashKey heap).upstreams = self.upstreams.filter heap.isAvailable :=
  rebuildRing_upstreams hashKey heap _

/-- The shorter router has the strategy of the router. -/
@[simp] theorem withoutUnavailable_strategy (self : Router) :
    (self.withoutUnavailable hashKey heap).strategy = self.strategy :=
  rebuildRing_strategy hashKey heap _

/-- The shorter router has the counter of the router. -/
@[simp] theorem withoutUnavailable_rrCounter (self : Router) :
    (self.withoutUnavailable hashKey heap).rrCounter = self.rrCounter := by
  unfold withoutUnavailable rebuildRing
  split_ifs <;> rfl

/-- The shorter router counts a selection as the router does. -/
theorem withoutUnavailable_bumpCounter (self : Router) :
    self.bumpCounter.withoutUnavailable hashKey heap =
      (self.withoutUnavailable hashKey heap).bumpCounter := by
  unfold withoutUnavailable rebuildRing bumpCounter
  split_ifs <;> rfl

/-- The shorter router rotates through a list as the router does. -/
theorem withoutUnavailable_rotate (self : Router) (list : List UpstreamRef) :
    (self.withoutUnavailable hashKey heap).rotate list =
      ((self.rotate list).1.withoutUnavailable hashKey heap, (self.rotate list).2) := by
  unfold rotate
  rw [withoutUnavailable_rrCounter]
  split_ifs
  · rfl
  · rw [withoutUnavailable_bumpCounter]

/-- The shorter router goes through the health scores as the router does. -/
theorem withoutUnavailable_selectHealthAware (F : Type) [ScoreArith F] (self : Router)
    (upstreams : List UpstreamRef) :
    (self.withoutUnavailable hashKey heap).selectHealthAware F heap upstreams =
      ((self.selectHealthAware F heap upstreams).1.withoutUnavailable hashKey heap,
        (self.selectHealthAware F heap upstreams).2) := by
  unfold selectHealthAware
  rw [withoutUnavailable_rrCounter]
  split_ifs
  · rfl
  · rw [withoutUnavailable_bumpCounter]

variable (F : Type) [ScoreArith F] (search : BinarySearch U64)

/-- An empty list needs no test of its own: each strategy answers `None` for it. -/
theorem selectUpstream_eq (self : Router) (sessionKey : Option String) :
    self.selectUpstream F hashKey search heap sessionKey =
      match self.strategy with
      | .roundRobin => self.selectRoundRobin heap self.upstreams
      | .weightedRoundRobin => self.selectWeightedRoundRobin heap self.upstreams
      | .leastConnections => (self, selectLeastConnections heap self.upstreams)
      | .consistentHashing =>
          match sessionKey with
          | some key =>
              (self, selectConsistentHash hashKey search self.hashRing self.upstreams key)
          | none => self.selectRoundRobin heap self.upstreams
      | .healthAware => self.selectHealthAware F heap self.upstreams := by
  unfold selectUpstream
  split_ifs with hempty
  · have hnil : self.upstreams = [] := List.isEmpty_iff.mp hempty
    rw [hnil]
    cases self.strategy with
    | roundRobin | weightedRoundRobin | leastConnections | healthAware => rfl
    | consistentHashing =>
        cases sessionKey with
        | none => rfl
        | some key =>
            have hnone : selectConsistentHash hashKey search self.hashRing [] key = none := by
              unfold selectConsistentHash
              split <;> rfl
            exact congrArg (Prod.mk self) hnone.symm
  · rfl

/-- **A selection does not see the unavailable upstreams.** -/
theorem selectUpstream_withoutUnavailable {w : World} (h : w.InSync hashKey)
    (sessionKey : Option String) :
    (w.router.withoutUnavailable hashKey w.heap).selectUpstream F hashKey search w.heap sessionKey =
      ((w.router.selectUpstream F hashKey search w.heap sessionKey).1.withoutUnavailable hashKey
          w.heap,
        (w.router.selectUpstream F hashKey search w.heap sessionKey).2) := by
  have hfilter : (w.router.upstreams.filter w.heap.isAvailable).filter w.heap.isAvailable =
      w.router.upstreams.filter w.heap.isAvailable := by simp
  rw [selectUpstream_eq, selectUpstream_eq, withoutUnavailable_strategy,
    withoutUnavailable_upstreams]
  cases hs : w.router.strategy with
  | roundRobin =>
      simp only [selectRoundRobin, hfilter]
      exact withoutUnavailable_rotate _ _
  | weightedRoundRobin =>
      simp only [selectWeightedRoundRobin, hfilter]
      exact withoutUnavailable_rotate _ _
  | leastConnections => simp only [selectLeastConnections, hfilter]
  | consistentHashing =>
      cases sessionKey with
      | none =>
          simp only [selectRoundRobin, hfilter]
          exact withoutUnavailable_rotate _ _
      | some key =>
          have hring : (w.router.withoutUnavailable hashKey w.heap).hashRing =
              w.router.hashRing.update hashKey
                (infos w.heap (w.router.upstreams.filter w.heap.isAvailable)) :=
            rebuildRing_hashRing hashKey w.heap hs
          have hsync : w.router.hashRing =
              w.router.hashRing.update hashKey (infos w.heap w.router.upstreams) :=
            (h hs).trans (ConsistentHashRing.update_congr hashKey
              (h.virtualNodesPerUpstream hs).symm rfl)
          dsimp only
          rw [hring, selectConsistentHash_filter, ← hsync]
  | healthAware =>
      have hcandidates : candidates F w.heap (w.router.upstreams.filter w.heap.isAvailable) =
          candidates F w.heap w.router.upstreams := by
        simp only [candidates, hfilter]
      have hselect : ∀ self : Router, self.selectHealthAware F w.heap
          (w.router.upstreams.filter w.heap.isAvailable) =
            self.selectHealthAware F w.heap w.router.upstreams := by
        intro self
        simp only [selectHealthAware, hcandidates]
      simp only [hselect]
      exact withoutUnavailable_selectHealthAware F _ _

end withoutUnavailable

end Router

/-! ## Traffic -/

/-- The calls that requests make: selections and their outcomes. -/
def Op.isTraffic : Op → Bool
  | .updateUpstreams _ _ | .updateUpstreamHealth _ _ _ => false
  | .selectUpstream _ | .recordSuccess _ _ _ | .recordFailure _ _ | .incrementConnections _
  | .decrementConnections _ => true

namespace World

/-- The world whose router holds the available upstreams only. -/
def withoutUnavailable (hashKey : String → U64) (w : World) : World :=
  ⟨w.router.withoutUnavailable hashKey w.heap, w.heap⟩

/-- Statistics are no part of the list or of its ring. -/
theorem modifyStats_withoutUnavailable (hashKey : String → U64) (w : World) (r : UpstreamRef)
    (f : UpstreamStats → UpstreamStats) :
    (w.withoutUnavailable hashKey).modifyStats r f =
      (w.modifyStats r f).withoutUnavailable hashKey := by
  have hkeeps : ∀ {γ : Type} (π : UpstreamInfo → γ),
      (∀ u : UpstreamInfo, π { u with stats := f u.stats } = π u) →
        ∀ r', π ((w.modifyStats r f).heap.get r') = π (w.heap.get r') :=
    fun π hπ => Heap.get_modify_proj π hπ w.heap r
  have havailable : (w.modifyStats r f).heap.isAvailable = w.heap.isAvailable :=
    funext (hkeeps UpstreamInfo.isAvailable fun _ => rfl)
  have hview : ∀ (self : ConsistentHashRing) (us : List UpstreamRef),
      self.update hashKey (Router.infos (w.modifyStats r f).heap us) =
        self.update hashKey (Router.infos w.heap us) := by
    intro self us
    refine ConsistentHashRing.update_congr hashKey rfl ?_
    simp only [Router.infos, List.map_map]
    exact List.map_congr_left fun r' _ => hkeeps UpstreamInfo.ringView (fun _ => rfl) r'
  simp only [withoutUnavailable, Router.withoutUnavailable, Router.rebuildRing, havailable, hview]
  rfl

section traffic

variable (F : Type) [ScoreArith F] (hashKey : String → U64) (search : BinarySearch U64)

/-- **The smaller world simulates the world**, call by call. -/
theorem apply_withoutUnavailable {w : World} (h : w.InSync hashKey) {op : Op}
    (hop : op.isTraffic = true) :
    (w.withoutUnavailable hashKey).apply F hashKey search op =
      (w.apply F hashKey search op).withoutUnavailable hashKey := by
  cases op with
  | updateUpstreams | updateUpstreamHealth => exact absurd hop Bool.false_ne_true
  | selectUpstream sessionKey =>
      have hselect := Router.selectUpstream_withoutUnavailable F search h sessionKey
      exact congrArg (fun r => World.mk r.1 w.heap) hselect
  | recordSuccess r responseTime now =>
      exact modifyStats_withoutUnavailable hashKey w r fun s => s.recordSuccess responseTime now
  | recordFailure r now =>
      exact modifyStats_withoutUnavailable hashKey w r fun s => s.recordFailure now
  | incrementConnections r =>
      exact modifyStats_withoutUnavailable hashKey w r UpstreamStats.incrementConnections
  | decrementConnections r =>
      exact modifyStats_withoutUnavailable hashKey w r UpstreamStats.decrementConnections

/-- What the selections among some calls answer. -/
def answers (w : World) : List Op → List (Option UpstreamRef)
  | [] => []
  | op :: ops =>
      let rest := answers (w.apply F hashKey search op) ops
      match op with
      | .selectUpstream sessionKey =>
          (w.router.selectUpstream F hashKey search w.heap sessionKey).2 :: rest
      | _ => rest

/-- **Unavailable upstreams might as well not be there.** After any history, with any strategy, no
sequence of selections and reported outcomes tells the router from the one that holds the available
upstreams only: all selections answer alike. -/
theorem answers_withoutUnavailable (strategy : LoadBalancingStrategy) (ops traffic : List Op)
    (htraffic : ∀ op ∈ traffic, op.isTraffic = true) :
    ((history F hashKey search strategy ops).withoutUnavailable hashKey).answers F hashKey search
        traffic =
      (history F hashKey search strategy ops).answers F hashKey search traffic := by
  have hsync := history_inSync F hashKey search strategy ops
  generalize history F hashKey search strategy ops = w at hsync
  induction traffic generalizing w with
  | nil => rfl
  | cons op rest ih =>
      obtain ⟨hop, hrest⟩ := List.forall_mem_cons.mp htraffic
      have hafter := ih hrest _ (hsync.apply F hashKey search op)
      rw [← apply_withoutUnavailable F hashKey search hsync hop] at hafter
      cases op with
      | selectUpstream sessionKey =>
          have hselect := congrArg Prod.snd
            (Router.selectUpstream_withoutUnavailable F search hsync sessionKey)
          exact congrArg₂ List.cons hselect hafter
      | _ => exact hafter

/-- With the first of two upstreams reported down, two keys and a call without one. -/
theorem answers_withoutUnavailable_secondUp :
    let ops : List Op := [.updateUpstreams [⟨"a", "a:80", 1, 0, 5000⟩, ⟨"b", "b:80", 1, 0, 5000⟩] 0,
      .updateUpstreamHealth "a" .unhealthy 0]
    let traffic : List Op := [.selectUpstream (some "k"), .recordFailure 1 5, .selectUpstream none]
    let w := history ℚ (fun _ => 0) (BinarySearch.linear U64) .consistentHashing ops
    w.router.upstreams = [0, 1] ∧ (w.withoutUnavailable fun _ => 0).router.upstreams = [1] ∧
      (w.withoutUnavailable fun _ => 0).answers ℚ (fun _ => 0) (BinarySearch.linear U64) traffic =
        w.answers ℚ (fun _ => 0) (BinarySearch.linear U64) traffic :=
  ⟨by decide +kernel, by decide +kernel,
    answers_withoutUnavailable ℚ (fun _ => 0) (BinarySearch.linear U64) .consistentHashing _ _
      (by decide)⟩

end traffic

end World

end HarbrRouter.Routing
