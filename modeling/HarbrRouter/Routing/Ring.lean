import HarbrRouter.Lib.PointRing
import HarbrRouter.Routing.Upstream
import Mathlib.Data.List.Sort
import Mathlib.Order.Fin.Basic

/-!
# The consistent hash ring

`routing.rs`, `ConsistentHashRing`: a map from hashes to upstream indices and a sorted vector of
hashes with repetitions, rebuilt by nested loops of overwriting insertions and read by binary
search with wrap-around. The hash function and the binary search are parameters: any function in
place of `AHash`, any search that meets the documentation of `slice::binary_search`.

Over it, `ringPoints` is what the ring is for: the set of the points `hash(name:i)` of the available
upstreams, each with the index of its upstream. The ring refines it (`getUpstream_update`): a key
goes to the greatest index that owns the first point on the upward walk from the key's hash.
`linearReference` reads that index off the virtual nodes by two scans, without vector, map or
search; the ring computes it (`getUpstream_eq_linearReference`).
-/

set_option autoImplicit false

namespace HarbrRouter.Routing

open PointRing

/-! ## The ring as the code keeps it -/

/-- Source: `routing.rs`, `ConsistentHashRing` -/
structure ConsistentHashRing where
  /-- From hashes to upstream indices. -/
  ring : U64 → Option ℕ
  sortedHashes : List U64
  virtualNodesPerUpstream : ℕ

/-- `format!("{}:{}", name, virtual_node)`. -/
def nodeKey (name : String) (virtualNode : ℕ) : String := name ++ ":" ++ toString virtualNode

namespace ConsistentHashRing

/-- Source: `routing.rs`, `ConsistentHashRing::new` -/
def new (virtualNodesPerUpstream : ℕ) : ConsistentHashRing :=
  ⟨fun _ => none, [], virtualNodesPerUpstream⟩

/-- `ring.clear()` and `sorted_hashes.clear()`.
Source: `routing.rs`, `ConsistentHashRing::update` -/
def clear (self : ConsistentHashRing) : ConsistentHashRing :=
  { self with ring := fun _ => none, sortedHashes := [] }

/-- The body of the inner loop: `ring.insert(hash, upstream_idx)` and `sorted_hashes.push(hash)`.
Source: `routing.rs`, `ConsistentHashRing::update` -/
def insertNode (self : ConsistentHashRing) (hash : U64) (upstreamIdx : ℕ) : ConsistentHashRing :=
  { self with
    ring := Function.update self.ring hash (some upstreamIdx)
    sortedHashes := self.sortedHashes ++ [hash] }

/-- The body of the outer loop, for an upstream that was seen available or not.
Source: `routing.rs`, `ConsistentHashRing::update` -/
def addUpstream (hashKey : String → U64) (self : ConsistentHashRing) (upstreamIdx : ℕ)
    (name : String) (available : Bool) : ConsistentHashRing :=
  if ¬ available then self
  else (List.range self.virtualNodesPerUpstream).foldl
    (fun r virtualNode => r.insertNode (hashKey (nodeKey name virtualNode)) upstreamIdx) self

/-- `sorted_hashes.sort_unstable()`. Source: `routing.rs`, `ConsistentHashRing::update` -/
def sort (self : ConsistentHashRing) : ConsistentHashRing :=
  { self with sortedHashes := self.sortedHashes.insertionSort (· ≤ ·) }

/-- Source: `routing.rs`, `ConsistentHashRing::update` -/
def update (hashKey : String → U64) (self : ConsistentHashRing) (upstreams : List UpstreamInfo) :
    ConsistentHashRing :=
  (upstreams.zipIdx.foldl
    (fun r u => r.addUpstream hashKey u.2 u.1.config.name u.1.isAvailable) self.clear).sort

/-- Source: `routing.rs`, `ConsistentHashRing::get_upstream` -/
def getUpstream (hashKey : String → U64) (search : BinarySearch U64) (self : ConsistentHashRing)
    (key : String) : Option ℕ :=
  if self.sortedHashes.isEmpty then none
  else
    let hash := hashKey key
    let idx :=
      match search.search self.sortedHashes hash with
      | .ok idx => idx
      | .error idx => if idx = self.sortedHashes.length then 0 else idx
    (self.sortedHashes[idx]?).bind self.ring

end ConsistentHashRing

/-! ## The nodes of a ring, in the order of their insertion -/

/-- The nodes of one upstream. -/
def upstreamNodes (hashKey : String → U64) (vn : ℕ) (upstreamIdx : ℕ) (name : String)
    (available : Bool) : List (U64 × ℕ) :=
  if available then (List.range vn).map fun i => (hashKey (nodeKey name i), upstreamIdx) else []

/-- The nodes of an upstream are its virtual nodes, if it is available. -/
theorem mem_upstreamNodes {hashKey : String → U64} {vn upstreamIdx : ℕ} {name : String}
    {available : Bool} {q : U64 × ℕ} :
    q ∈ upstreamNodes hashKey vn upstreamIdx name available ↔
      available = true ∧ ∃ i < vn, q = (hashKey (nodeKey name i), upstreamIdx) := by
  cases available <;> simp [upstreamNodes, eq_comm]

/-- The nodes of a list of upstreams, each seen available or not. -/
def ringNodes (hashKey : String → U64) (vn : ℕ) (upstreams : List UpstreamInfo) :
    List (U64 × ℕ) :=
  upstreams.zipIdx.flatMap fun u =>
    upstreamNodes hashKey vn u.2 u.1.config.name u.1.isAvailable

/-- The nodes of a list with one more upstream are those of the list and those of the upstream. -/
theorem ringNodes_concat (hashKey : String → U64) (vn : ℕ) (us : List UpstreamInfo)
    (u : UpstreamInfo) : ringNodes hashKey vn (us ++ [u]) =
      ringNodes hashKey vn us ++
        upstreamNodes hashKey vn us.length u.config.name u.isAvailable := by
  simp [ringNodes, List.zipIdx_append]

/-- What a rebuild reads of an upstream. -/
def UpstreamInfo.ringView (u : UpstreamInfo) : String × Bool := (u.config.name, u.isAvailable)

/-- The nodes of a list depend on the names and the availability of its upstreams only. -/
theorem ringNodes_congr (hashKey : String → U64) (vn : ℕ) {us vs : List UpstreamInfo}
    (h : us.map UpstreamInfo.ringView = vs.map UpstreamInfo.ringView) :
    ringNodes hashKey vn us = ringNodes hashKey vn vs := by
  have hview : ∀ ws : List UpstreamInfo, ringNodes hashKey vn ws =
      (ws.map UpstreamInfo.ringView).zipIdx.flatMap
        fun v => upstreamNodes hashKey vn v.2 v.1.1 v.1.2 := by
    intro ws
    rw [List.zipIdx_map, List.flatMap_map]
    rfl
  rw [hview us, hview vs, h]

namespace ConsistentHashRing

/-- The ring that a sequence of insertions builds, its vector still unsorted. -/
def ofNodes (vn : ℕ) (nodes : List (U64 × ℕ)) : ConsistentHashRing :=
  ⟨lastWrite nodes, nodes.map Prod.fst, vn⟩

/-- Clearing leaves the ring without nodes. -/
@[simp] theorem clear_eq (self : ConsistentHashRing) :
    self.clear = ofNodes self.virtualNodesPerUpstream [] := rfl

/-- The sorted vector of a built ring is that of the hashes of its nodes. -/
@[simp] theorem sort_ofNodes_sortedHashes (vn : ℕ) (nodes : List (U64 × ℕ)) :
    (ofNodes vn nodes).sort.sortedHashes = (nodes.map Prod.fst).insertionSort (· ≤ ·) := rfl

/-- The map of a built ring has the last owner of each hash. -/
@[simp] theorem sort_ofNodes_ring (vn : ℕ) (nodes : List (U64 × ℕ)) :
    (ofNodes vn nodes).sort.ring = lastWrite nodes := rfl

/-- An empty ring answers `None`. -/
theorem getUpstream_of_nil (hashKey : String → U64) (search : BinarySearch U64)
    {self : ConsistentHashRing} (h : self.sortedHashes = []) (key : String) :
    self.getUpstream hashKey search key = none := by
  rw [getUpstream, if_pos (by simp [h])]

/-- A ring with nodes answers the owner of the hash that the wrapped search finds. -/
theorem getUpstream_of_ne_nil (hashKey : String → U64) (search : BinarySearch U64)
    {self : ConsistentHashRing} (h : self.sortedHashes ≠ []) (key : String) :
    self.getUpstream hashKey search key =
      (self.sortedHashes[search.wrap self.sortedHashes (hashKey key)]?).bind self.ring := by
  rw [getUpstream, if_neg (by simp [h])]
  rfl

/-- Inserting a node appends it to the nodes. -/
theorem insertNode_ofNodes (vn : ℕ) (nodes : List (U64 × ℕ)) (hash : U64) (upstreamIdx : ℕ) :
    (ofNodes vn nodes).insertNode hash upstreamIdx =
      ofNodes vn (nodes ++ [(hash, upstreamIdx)]) := by
  simp [ofNodes, insertNode, lastWrite_concat]

/-- Adding an upstream appends its nodes. -/
theorem addUpstream_ofNodes (hashKey : String → U64) (vn : ℕ) (nodes : List (U64 × ℕ))
    (upstreamIdx : ℕ) (name : String) (available : Bool) :
    (ofNodes vn nodes).addUpstream hashKey upstreamIdx name available =
      ofNodes vn (nodes ++ upstreamNodes hashKey vn upstreamIdx name available) := by
  unfold addUpstream upstreamNodes
  cases available with
  | false => simp
  | true =>
      simp only [not_true_eq_false, ↓reduceIte]
      show List.foldl _ _ (List.range vn) = _
      generalize List.range vn = vs
      induction vs generalizing nodes with
      | nil => simp
      | cons v vs ih => rw [List.foldl_cons, insertNode_ofNodes, ih]; simp

/-- Adding an upstream keeps the number of virtual nodes. -/
@[simp] theorem addUpstream_virtualNodesPerUpstream (hashKey : String → U64)
    (self : ConsistentHashRing) (upstreamIdx : ℕ) (name : String) (available : Bool) :
    (self.addUpstream hashKey upstreamIdx name available).virtualNodesPerUpstream =
      self.virtualNodesPerUpstream := by
  unfold addUpstream
  cases available with
  | false => rfl
  | true =>
      simp only [not_true_eq_false, ↓reduceIte]
      exact List.foldlRecOn (motive := fun r : ConsistentHashRing =>
        r.virtualNodesPerUpstream = self.virtualNodesPerUpstream) _ _ rfl fun _ h _ _ => h

/-- The outer loop appends the nodes of each upstream in turn. -/
theorem foldl_addUpstream_ofNodes (hashKey : String → U64) (vn : ℕ) (nodes : List (U64 × ℕ))
    (us : List (UpstreamInfo × ℕ)) :
    us.foldl (fun r u => r.addUpstream hashKey u.2 u.1.config.name u.1.isAvailable)
        (ofNodes vn nodes) =
      ofNodes vn (nodes ++ us.flatMap fun u =>
        upstreamNodes hashKey vn u.2 u.1.config.name u.1.isAvailable) := by
  induction us generalizing nodes with
  | nil => simp
  | cons u us ih => rw [List.foldl_cons, addUpstream_ofNodes, ih]; simp

/-- **What `update` builds**: the map of the last insertions and the sorted vector of all of
them; nothing of the previous ring is left. -/
theorem update_eq (hashKey : String → U64) (self : ConsistentHashRing)
    (upstreams : List UpstreamInfo) :
    self.update hashKey upstreams =
      (ofNodes self.virtualNodesPerUpstream
        (ringNodes hashKey self.virtualNodesPerUpstream upstreams)).sort := by
  rw [update, clear_eq, foldl_addUpstream_ofNodes, List.nil_append, ringNodes]

/-- A rebuild keeps the number of virtual nodes. -/
@[simp] theorem update_virtualNodesPerUpstream (hashKey : String → U64)
    (self : ConsistentHashRing) (upstreams : List UpstreamInfo) :
    (self.update hashKey upstreams).virtualNodesPerUpstream = self.virtualNodesPerUpstream := by
  rw [update_eq]
  rfl

/-- A rebuild forgets the ring it starts from. -/
theorem update_congr (hashKey : String → U64) {self other : ConsistentHashRing}
    (hvn : self.virtualNodesPerUpstream = other.virtualNodesPerUpstream)
    {us vs : List UpstreamInfo}
    (h : us.map UpstreamInfo.ringView = vs.map UpstreamInfo.ringView) :
    self.update hashKey us = other.update hashKey vs := by
  rw [update_eq, update_eq, hvn, ringNodes_congr hashKey _ h]

end ConsistentHashRing

/-! ## The ring as a set of owned points -/

section points

variable (hashKey : String → U64) (vn : ℕ)

/-- The points of the available upstreams, each owned by an upstream's index. -/
def ringPoints (upstreams : List UpstreamInfo) : Set (U64 × ℕ) :=
  {q | ∃ u, upstreams[q.2]? = some u ∧ u.isAvailable = true ∧
    ∃ i < vn, q.1 = hashKey (nodeKey u.config.name i)}

variable {hashKey vn}

/-- The nodes of a ring are its points. -/
theorem mem_ringNodes {upstreams : List UpstreamInfo} {q : U64 × ℕ} :
    q ∈ ringNodes hashKey vn upstreams ↔ q ∈ ringPoints hashKey vn upstreams := by
  obtain ⟨p, idx⟩ := q
  simp only [ringNodes, List.mem_flatMap, Prod.exists, List.mem_zipIdx_iff_getElem?,
    mem_upstreamNodes, ringPoints, Set.mem_ofPred_eq]
  constructor
  · rintro ⟨u, i, hu, hav, j, hj, heq⟩
    obtain ⟨rfl, rfl⟩ := Prod.mk.inj heq
    exact ⟨u, hu, hav, j, hj, rfl⟩
  · rintro ⟨u, hu, hav, j, hj, rfl⟩
    exact ⟨u, idx, hu, hav, j, hj, rfl⟩

/-- The owners are inserted in ascending order. -/
theorem ringNodes_snd_pairwise (hashKey : String → U64) (vn : ℕ) (upstreams : List UpstreamInfo) :
    ((ringNodes hashKey vn upstreams).map Prod.snd).Pairwise (· ≤ ·) := by
  unfold ringNodes
  suffices h : ∀ (us : List UpstreamInfo) (n : ℕ),
      (((us.zipIdx n).flatMap fun u =>
        upstreamNodes hashKey vn u.2 u.1.config.name u.1.isAvailable).map Prod.snd).Pairwise
          (· ≤ ·) ∧
      ∀ d ∈ ((us.zipIdx n).flatMap fun u =>
        upstreamNodes hashKey vn u.2 u.1.config.name u.1.isAvailable).map Prod.snd, n ≤ d from
    (h upstreams 0).1
  intro us
  induction us with
  | nil => simp
  | cons u us ih =>
      intro n
      obtain ⟨hpair, hlow⟩ := ih (n + 1)
      have hhead : ∀ d ∈ (upstreamNodes hashKey vn n u.config.name u.isAvailable).map Prod.snd,
          d = n := by
        intro d hd
        obtain ⟨q, hq, rfl⟩ := List.mem_map.mp hd
        obtain ⟨-, i, -, rfl⟩ := mem_upstreamNodes.mp hq
        rfl
      rw [List.zipIdx_cons, List.flatMap_cons, List.map_append]
      refine ⟨List.pairwise_append.mpr ⟨?_, hpair, ?_⟩, ?_⟩
      · refine List.pairwise_iff_forall_sublist.mpr fun {a b} hab => ?_
        rw [hhead a (hab.subset (by simp)), hhead b (hab.subset (by simp))]
      · intro a ha b hb
        rw [hhead a ha]
        exact le_trans (Nat.le_succ n) (hlow b hb)
      · intro d hd
        rcases List.mem_append.mp hd with hd | hd
        · exact (hhead d hd).ge
        · exact le_trans (Nat.le_succ n) (hlow d hd)

/-- The points of a ring are finitely many. -/
theorem ringPoints_finite (upstreams : List UpstreamInfo) :
    (ringPoints hashKey vn upstreams).Finite := by
  have : ringPoints hashKey vn upstreams = {q | q ∈ ringNodes hashKey vn upstreams} := by
    ext q
    exact mem_ringNodes.symm
  rw [this]
  exact List.finite_toSet _

/-- With at least one virtual node for each upstream, a ring has points exactly when some upstream
is available. -/
theorem ringPoints_nonempty_iff (hashKey : String → U64) {upstreams : List UpstreamInfo}
    (hvn : 0 < vn) :
    (ringPoints hashKey vn upstreams).Nonempty ↔ ∃ u ∈ upstreams, u.isAvailable = true := by
  constructor
  · rintro ⟨q, u, hu, hav, -⟩
    exact ⟨u, List.mem_of_getElem? hu, hav⟩
  · rintro ⟨u, hu, hav⟩
    obtain ⟨i, hi⟩ := List.getElem?_of_mem hu
    exact ⟨(hashKey (nodeKey u.config.name 0), i), u, hi, hav, 0, hvn, rfl⟩

variable (search : BinarySearch U64)

/-- **The ring refines the set of its points**: after `update`, a key is mapped to an index exactly
when the index is the greatest owner of the first point on the walk from the key's hash. -/
theorem getUpstream_update {self : ConsistentHashRing} {upstreams : List UpstreamInfo}
    {key : String} {idx : ℕ} :
    (self.update hashKey upstreams).getUpstream hashKey search key = some idx ↔
      Assigned (ringPoints hashKey self.virtualNodesPerUpstream upstreams) (hashKey key) idx := by
  rw [ConsistentHashRing.update_eq]
  set vn := self.virtualNodesPerUpstream
  set nodes := ringNodes hashKey vn upstreams with hnodes
  have hpts : points (ringPoints hashKey vn upstreams) =
      {x | x ∈ (nodes.map Prod.fst).insertionSort (· ≤ ·)} := by
    ext p
    simp [points, ← mem_ringNodes, ← hnodes]
  have howner : ∀ p, {b | (p, b) ∈ ringPoints hashKey vn upstreams} = {b | (p, b) ∈ nodes} := by
    intro p
    ext b
    exact mem_ringNodes.symm
  have hlast := fun p d => lastWrite_eq_some_iff
    (ringNodes_snd_pairwise hashKey vn upstreams) (g := p) (d := d)
  set ring := (ConsistentHashRing.ofNodes vn nodes).sort with hring
  have hsorted : ring.sortedHashes = (nodes.map Prod.fst).insertionSort (· ≤ ·) := rfl
  by_cases hempty : ring.sortedHashes = []
  · -- no nodes: the code answers `None`, and no key is assigned
    rw [ConsistentHashRing.getUpstream_of_nil _ _ hempty]
    apply iff_of_false (by simp)
    rintro ⟨p, hp, -⟩
    rw [hpts, ← hsorted, hempty] at hp
    exact List.not_mem_nil hp.1
  · obtain ⟨p, hp, hnext⟩ := search.exists_isNext_wrap
      (hsorted ▸ List.pairwise_insertionSort (· ≤ ·) (nodes.map Prod.fst)) hempty (hashKey key)
    rw [ConsistentHashRing.getUpstream_of_ne_nil _ _ hempty, hp, Option.bind_some, hring,
      ConsistentHashRing.sort_ofNodes_ring, hlast]
    rw [hsorted] at hnext
    constructor
    · intro h
      exact ⟨p, hpts ▸ hnext, howner p ▸ h⟩
    · rintro ⟨p', hp', h⟩
      obtain rfl := (hpts ▸ hp').unique hnext
      exact howner p' ▸ h

/-- An index that the ring answers is the index of an available upstream. -/
theorem available_of_getUpstream {self : ConsistentHashRing} {upstreams : List UpstreamInfo}
    {key : String} {idx : ℕ}
    (h : (self.update hashKey upstreams).getUpstream hashKey search key = some idx) :
    ∃ u, upstreams[idx]? = some u ∧ u.isAvailable = true := by
  obtain ⟨p, -, ⟨u, hu, hav, -⟩, -⟩ := (getUpstream_update search).mp h
  exact ⟨u, hu, hav⟩

/-- The ring answers `None` exactly when no upstream was available. -/
theorem getUpstream_eq_none {self : ConsistentHashRing} {upstreams : List UpstreamInfo}
    (hvn : 0 < self.virtualNodesPerUpstream) {key : String} :
    (self.update hashKey upstreams).getUpstream hashKey search key = none ↔
      ∀ u ∈ upstreams, u.isAvailable = false := by
  rw [Option.eq_none_iff_forall_ne_some]
  constructor
  · intro h u hu
    by_contra hav
    obtain ⟨idx, hidx⟩ := exists_assigned (ringPoints_finite upstreams)
      ((ringPoints_nonempty_iff hashKey hvn).mpr ⟨u, hu, by simpa using hav⟩)
      (hashKey key)
    exact h idx ((getUpstream_update search).mpr hidx)
  · intro h idx hidx
    obtain ⟨u, hu, hav⟩ := available_of_getUpstream search hidx
    rw [h u (List.mem_of_getElem? hu)] at hav
    exact absurd hav (by simp)

end points

/-! ## The ring without a sorted vector and without a map -/

/-- The linear reference: among the virtual nodes of the available upstreams, the smallest hash
from the key's on, or the smallest of all when there is none, and the largest index that owns
it. -/
def linearReference (hashKey : String → U64) (vn : ℕ) (upstreams : List UpstreamInfo)
    (key : String) : Option ℕ :=
  scan (ringNodes hashKey vn upstreams) (hashKey key)

/-- **The ring computes the linear reference**, whatever the hash function, the ring before
`update` and the positions that the search returns for repeated hashes; and it answers `None`
exactly when no upstream is available. -/
theorem getUpstream_eq_linearReference (hashKey : String → U64) (search : BinarySearch U64)
    (self : ConsistentHashRing) (upstreams : List UpstreamInfo) (key : String) :
    (self.update hashKey upstreams).getUpstream hashKey search key =
        linearReference hashKey self.virtualNodesPerUpstream upstreams key ∧
      (0 < self.virtualNodesPerUpstream →
        ((self.update hashKey upstreams).getUpstream hashKey search key = none ↔
          ¬ ∃ u ∈ upstreams, u.isAvailable = true)) := by
  refine ⟨Option.ext fun idx => ?_, fun hvn => ?_⟩
  · have hpts : {q | q ∈ ringNodes hashKey self.virtualNodesPerUpstream upstreams} =
        ringPoints hashKey self.virtualNodesPerUpstream upstreams := Set.ext fun _ => mem_ringNodes
    rw [getUpstream_update, linearReference, scan_eq_some_iff, hpts]
  · rw [getUpstream_eq_none search hvn]
    simp

/-- One available upstream among unavailable ones answers, also where all hashes collide. -/
theorem getUpstream_eq_linearReference_collision :
    ((ConsistentHashRing.new 150).update (fun _ => 7)
        [(UpstreamInfo.new ⟨"a", "10.0.0.1:80", 1, 0, 1⟩ 0).setHealthState .unhealthy 1,
          .new ⟨"b", "10.0.0.2:80", 1, 0, 1⟩ 0]).getUpstream
      (fun _ => 7) (BinarySearch.linear U64) "client" ≠ none := by
  have h := getUpstream_eq_linearReference (fun _ => 7) (BinarySearch.linear U64)
    (ConsistentHashRing.new 150)
    [(UpstreamInfo.new ⟨"a", "10.0.0.1:80", 1, 0, 1⟩ 0).setHealthState .unhealthy 1,
      .new ⟨"b", "10.0.0.2:80", 1, 0, 1⟩ 0] "client"
  rw [Ne, h.2 (by decide), not_not]
  exact ⟨.new ⟨"b", "10.0.0.2:80", 1, 0, 1⟩ 0, by simp, rfl⟩

end HarbrRouter.Routing
