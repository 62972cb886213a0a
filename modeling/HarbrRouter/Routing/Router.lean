import HarbrRouter.Routing.Ring
import Mathlib.Data.List.MinMax

/-!
# The router and its five selection strategies

`routing.rs`, `Router`: the upstream list, the rotation counter and the hash ring, the selection
functions of the five strategies and the operations that change the list or a health state. Each
function is a function of the heap; those that change something return the new value next to their
result.

`World` puts a router next to the heap of its upstreams, and `World.apply` runs one call to its end:
a history of calls, one at a time, is a list of `Op`. What one call can do is said once
(`World.apply_cases`): it replaces the list by new upstreams, reports a health, counts a selection,
or changes the statistics of one upstream. What is proved of every history goes by cases on that.
-/

set_option autoImplicit false

namespace HarbrRouter.Routing

open PointRing

/-- Source: `routing.rs`, `LoadBalancingStrategy` -/
inductive LoadBalancingStrategy where
  | roundRobin
  | weightedRoundRobin
  | leastConnections
  | consistentHashing
  | healthAware
deriving DecidableEq, Repr

/-- The contents of the router's two locks and of its counter. Source: `routing.rs`, `Router` -/
structure Router where
  upstreams : List UpstreamRef
  strategy : LoadBalancingStrategy
  rrCounter : ℕ
  hashRing : ConsistentHashRing

namespace Router

/-- Source: `routing.rs`, `Router::new` -/
def new (strategy : LoadBalancingStrategy) : Router := ⟨[], strategy, 0, .new 150⟩

/-! ## The calls that change the router -/

/-- The upstreams of a list, read through the heap. -/
def infos (heap : Heap) (upstreams : List UpstreamRef) : List UpstreamInfo :=
  upstreams.map heap.get

/-- The rebuild that ends both calls below; only consistent hashing has a ring to keep.
Source: `routing.rs`, `Router::update_upstreams` and `Router::update_upstream_health` -/
def rebuildRing (hashKey : String → U64) (heap : Heap) (self : Router) : Router :=
  if self.strategy = .consistentHashing then
    { self with hashRing := self.hashRing.update hashKey (infos heap self.upstreams) }
  else self

/-- Source: `routing.rs`, `Router::update_upstreams` -/
def updateUpstreams (hashKey : String → U64) (self : Router) (heap : Heap)
    (configs : List UpstreamConfig) (now : ℕ) : Router × Heap :=
  let (heap, upstreams) := heap.alloc (configs.map fun config => .new config now)
  ({ self with upstreams }.rebuildRing hashKey heap, heap)

/-- Source: `routing.rs`, `Router::get_upstream_by_name` -/
def getUpstreamByName (self : Router) (heap : Heap) (name : String) : Option UpstreamRef :=
  self.upstreams.find? fun r => (heap.get r).config.name = name

/-- Source: `routing.rs`, `Router::update_upstream_health` -/
def updateUpstreamHealth (hashKey : String → U64) (self : Router) (heap : Heap) (name : String)
    (state : HealthState) (now : ℕ) : Router × Heap :=
  match self.getUpstreamByName heap name with
  | some r =>
      let heap := heap.modify r fun u => u.setHealthState state now
      (self.rebuildRing hashKey heap, heap)
  | none => (self, heap)

/-! ## Selection -/

/-- `rr_counter.fetch_add(1)`, once its old value was read. -/
def bumpCounter (self : Router) : Router := { self with rrCounter := wrappingAdd self.rrCounter 1 }

/-- `list[rr_counter.fetch_add(1) % list.len()]`, unless the list is empty.
Source: `routing.rs`, `Router::select_round_robin` and `Router::select_weighted_round_robin` -/
def rotate (self : Router) (list : List UpstreamRef) : Router × Option UpstreamRef :=
  if list.isEmpty then (self, none)
  else (self.bumpCounter, list[self.rrCounter % list.length]?)

/-- Source: `routing.rs`, `Router::select_round_robin` -/
def selectRoundRobin (self : Router) (heap : Heap) (upstreams : List UpstreamRef) :
    Router × Option UpstreamRef :=
  self.rotate (upstreams.filter heap.isAvailable)

/-- Source: `routing.rs`, `Router::select_weighted_round_robin` -/
def selectWeightedRoundRobin (self : Router) (heap : Heap) (upstreams : List UpstreamRef) :
    Router × Option UpstreamRef :=
  self.rotate ((upstreams.filter heap.isAvailable).flatMap fun r =>
    List.replicate (max (heap.get r).config.weight 1) r)

/-- `min_by_key` keeps the first of several least elements.
Source: `routing.rs`, `Router::select_least_connections` -/
def selectLeastConnections (heap : Heap) (upstreams : List UpstreamRef) : Option UpstreamRef :=
  (upstreams.filter heap.isAvailable).argmin fun r => (heap.get r).stats.activeConnections

/-- Source: `routing.rs`, `Router::select_consistent_hash` -/
def selectConsistentHash (hashKey : String → U64) (search : BinarySearch U64)
    (hashRing : ConsistentHashRing) (upstreams : List UpstreamRef) (key : String) :
    Option UpstreamRef :=
  match hashRing.getUpstream hashKey search key with
  | some upstreamIdx => upstreams[upstreamIdx]?
  | none => none

section healthAware

variable (F : Type) [ScoreArith F]

/-- The score that selection compares: health score times weight.
Source: `routing.rs`, `Router::select_health_aware` -/
def combinedScore (heap : Heap) (r : UpstreamRef) : F :=
  (heap.get r).healthScore F * ((heap.get r).config.weight : F)

/-- The available upstreams with a positive score.
Source: `routing.rs`, `Router::select_health_aware` -/
def candidates (heap : Heap) (upstreams : List UpstreamRef) : List (UpstreamRef × F) :=
  ((upstreams.filter heap.isAvailable).map fun r => (r, combinedScore F heap r)).filter
    fun c => (0.0 : F) < c.2

variable {F}

/-- The walk that subtracts scores until nothing is left of the value.
Source: `routing.rs`, `Router::select_health_aware` -/
def walkScores (randomValue : F) : List (UpstreamRef × F) → Option UpstreamRef
  | [] => none
  | (upstream, score) :: rest =>
      if randomValue - score ≤ 0.0 then some upstream else walkScores (randomValue - score) rest

variable (F)

/-- Source: `routing.rs`, `Router::select_health_aware` -/
def selectHealthAware (self : Router) (heap : Heap) (upstreams : List UpstreamRef) :
    Router × Option UpstreamRef :=
  if (candidates F heap upstreams).isEmpty then (self, none)
  else
    let sorted := (candidates F heap upstreams).insertionSort fun a b => b.2 ≤ a.2
    let totalScore := (sorted.map Prod.snd).foldl (· + ·) (0.0 : F)
    let randomValue := (self.rrCounter : F) / ((2 ^ 64 - 1 : ℕ) : F) * totalScore
    (self.bumpCounter, (walkScores randomValue sorted).or (sorted.head?.map Prod.fst))

end healthAware

/-- Source: `routing.rs`, `Router::select_upstream` -/
def selectUpstream (F : Type) [ScoreArith F] (hashKey : String → U64) (search : BinarySearch U64)
    (self : Router) (heap : Heap) (sessionKey : Option String) : Router × Option UpstreamRef :=
  if self.upstreams.isEmpty then (self, none)
  else
    match self.strategy with
    | .roundRobin => self.selectRoundRobin heap self.upstreams
    | .weightedRoundRobin => self.selectWeightedRoundRobin heap self.upstreams
    | .leastConnections => (self, selectLeastConnections heap self.upstreams)
    | .consistentHashing =>
        match sessionKey with
        | some key =>
            (self, selectConsistentHash hashKey search self.hashRing self.upstreams key)
        | none => self.selectRoundRobin heap self.upstreams
    | .healthAware => self.selectHealthAware F heap self.upstreams

/-! ## What the changing calls keep -/

/-- A rebuild touches the ring only. -/
@[simp] theorem rebuildRing_upstreams (hashKey : String → U64) (heap : Heap) (self : Router) :
    (self.rebuildRing hashKey heap).upstreams = self.upstreams := by
  unfold rebuildRing
  split_ifs <;> rfl

/-- A rebuild keeps the strategy. -/
@[simp] theorem rebuildRing_strategy (hashKey : String → U64) (heap : Heap) (self : Router) :
    (self.rebuildRing hashKey heap).strategy = self.strategy := by
  unfold rebuildRing
  split_ifs <;> rfl

/-- A router that hashes has the ring of its list after a rebuild. -/
theorem rebuildRing_hashRing (hashKey : String → U64) (heap : Heap) {self : Router}
    (h : self.strategy = .consistentHashing) :
    (self.rebuildRing hashKey heap).hashRing =
      self.hashRing.update hashKey (infos heap self.upstreams) := by
  rw [rebuildRing, if_pos h]

/-- What `selectUpstream` changes is at most the rotation counter. -/
theorem selectUpstream_fst (F : Type) [ScoreArith F] (hashKey : String → U64)
    (search : BinarySearch U64) (self : Router) (heap : Heap) (sessionKey : Option String) :
    (self.selectUpstream F hashKey search heap sessionKey).1 = self ∨
      (self.selectUpstream F hashKey search heap sessionKey).1 = self.bumpCounter := by
  have hrotate : ∀ l, (self.rotate l).1 = self ∨ (self.rotate l).1 = self.bumpCounter := by
    intro l
    unfold rotate
    split_ifs
    · exact Or.inl rfl
    · exact Or.inr rfl
  unfold selectUpstream
  split_ifs
  · exact Or.inl rfl
  · split
    · exact hrotate _
    · exact hrotate _
    · exact Or.inl rfl
    · split
      · exact Or.inl rfl
      · exact hrotate _
    · unfold selectHealthAware
      split_ifs
      · exact Or.inl rfl
      · exact Or.inr rfl

section selected

variable {F : Type} [ScoreArith F] {hashKey : String → U64} {search : BinarySearch U64}
  {routers : ℕ → Router} {heap : Heap} {sessionKey : Option String} {inst : ℕ} {router : Router}
  {upstream : Option UpstreamRef}

/-- Where the router of an instance is put back after a selection, every router is as it was, or
has counted. -/
theorem update_selected (h : (routers inst).selectUpstream F hashKey search heap sessionKey =
    (router, upstream)) (i : ℕ) :
    Function.update routers inst router i = routers i ∨
      Function.update routers inst router i = (routers i).bumpCounter := by
  by_cases hi : i = inst
  · subst hi
    have hfst := (routers i).selectUpstream_fst F hashKey search heap sessionKey
    rw [h] at hfst
    rwa [Function.update_self]
  · exact Or.inl (Function.update_of_ne hi _ _)

/-- Where the router of an instance is put back after a selection, every router has the list and the
strategy that it had. -/
theorem update_selected_keeps (h : (routers inst).selectUpstream F hashKey search heap sessionKey =
    (router, upstream)) (i : ℕ) :
    (Function.update routers inst router i).upstreams = (routers i).upstreams ∧
      (Function.update routers inst router i).strategy = (routers i).strategy := by
  rcases update_selected h i with hsame | hbump
  · rw [hsame]
    exact ⟨rfl, rfl⟩
  · rw [hbump]
    exact ⟨rfl, rfl⟩

end selected

end Router

/-! ## Histories of calls -/

/-- A router and the heap of its upstreams. -/
structure World where
  router : Router
  heap : Heap

/-- A call on the router or on one of its upstreams. The clock's reading is part of the call. -/
inductive Op where
  | updateUpstreams (configs : List UpstreamConfig) (now : ℕ)
  | updateUpstreamHealth (name : String) (state : HealthState) (now : ℕ)
  | selectUpstream (sessionKey : Option String)
  | recordSuccess (upstream : UpstreamRef) (responseTime now : ℕ)
  | recordFailure (upstream : UpstreamRef) (now : ℕ)
  | incrementConnections (upstream : UpstreamRef)
  | decrementConnections (upstream : UpstreamRef)

namespace World

/-- A change of the statistics of one upstream. -/
def modifyStats (w : World) (r : UpstreamRef) (f : UpstreamStats → UpstreamStats) : World :=
  { w with heap := w.heap.modify r fun u => { u with stats := f u.stats } }

section apply

variable (F : Type) [ScoreArith F] (hashKey : String → U64) (search : BinarySearch U64)

/-- One call, run to its end. -/
def apply (w : World) : Op → World
  | .updateUpstreams configs now =>
      let (router, heap) := w.router.updateUpstreams hashKey w.heap configs now
      ⟨router, heap⟩
  | .updateUpstreamHealth name state now =>
      let (router, heap) := w.router.updateUpstreamHealth hashKey w.heap name state now
      ⟨router, heap⟩
  | .selectUpstream sessionKey =>
      { w with router := (w.router.selectUpstream F hashKey search w.heap sessionKey).1 }
  | .recordSuccess r responseTime now => w.modifyStats r fun s => s.recordSuccess responseTime now
  | .recordFailure r now => w.modifyStats r fun s => s.recordFailure now
  | .incrementConnections r => w.modifyStats r UpstreamStats.incrementConnections
  | .decrementConnections r => w.modifyStats r UpstreamStats.decrementConnections

/-- A history of calls on a new router. -/
def history (strategy : LoadBalancingStrategy) (ops : List Op) : World :=
  ops.foldl (apply F hashKey search) ⟨.new strategy, .empty⟩

end apply

/-- What one call can do to a world: replace the list by new upstreams, report the health of an
upstream of the list, count a selection, or change the statistics of one upstream. -/
theorem apply_cases (F : Type) [ScoreArith F] (hashKey : String → U64) (search : BinarySearch U64)
    (w : World) (op : Op) :
    (∃ configs now, op = .updateUpstreams configs now ∧
        apply F hashKey search w op =
          let heap := (w.heap.alloc (configs.map fun c => .new c now)).1
          let upstreams := (w.heap.alloc (configs.map fun c => .new c now)).2
          ⟨{ w.router with upstreams }.rebuildRing hashKey heap, heap⟩) ∨
      (∃ r state now, apply F hashKey search w op =
          let heap := w.heap.modify r fun u => u.setHealthState state now
          ⟨w.router.rebuildRing hashKey heap, heap⟩) ∨
      (apply F hashKey search w op = w ∨
        apply F hashKey search w op = { w with router := w.router.bumpCounter }) ∨
      ∃ r f, apply F hashKey search w op = w.modifyStats r f := by
  cases op with
  | updateUpstreams configs now => exact Or.inl ⟨configs, now, rfl, rfl⟩
  | updateUpstreamHealth name state now =>
      simp only [apply, Router.updateUpstreamHealth]
      cases w.router.getUpstreamByName w.heap name with
      | some r => exact Or.inr (Or.inl ⟨r, state, now, rfl⟩)
      | none => exact Or.inr (Or.inr (Or.inl (Or.inl rfl)))
  | selectUpstream sessionKey =>
      refine Or.inr (Or.inr (Or.inl ?_))
      simp only [apply]
      rcases w.router.selectUpstream_fst F hashKey search w.heap sessionKey with h | h
      · exact Or.inl (by rw [h])
      · exact Or.inr (by rw [h])
  | recordSuccess r responseTime now =>
      exact Or.inr (Or.inr (Or.inr ⟨r, fun s => s.recordSuccess responseTime now, rfl⟩))
  | recordFailure r now => exact Or.inr (Or.inr (Or.inr ⟨r, fun s => s.recordFailure now, rfl⟩))
  | incrementConnections r =>
      exact Or.inr (Or.inr (Or.inr ⟨r, UpstreamStats.incrementConnections, rfl⟩))
  | decrementConnections r =>
      exact Or.inr (Or.inr (Or.inr ⟨r, UpstreamStats.decrementConnections, rfl⟩))

end World

end HarbrRouter.Routing
