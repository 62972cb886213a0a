import HarbrRouter.Routing.Selection

/-!
# Minimal disruption

How a rebuild of the ring moves session keys between upstreams, for every hash function.

**Theorem** (`consistentHash_minimalDisruption`): when the availability of one upstream changes,
keys leave only that upstream or come only to it; and between two lists a key does not move from one
name to another that are both available on both sides, if the hash has no collisions on the
virtual-node keys.

The change of one health adds points of one owner to the ring or takes them away (`mem_positions`),
so the first part is that of the library (`Assigned.of_remove`, `Assigned.of_add`), under hash
collisions and duplicate names too. For two lists the positions say nothing, and the ring is taken
with the names for owners. The text of a virtual-node key determines the name (`nodeKey_name_inj`),
so without collisions a point has one name (`namedPoints_unique`), and the exchange rule of the
library applies (`Claims.exchange`).
-/

set_option autoImplicit false

namespace HarbrRouter.Routing

open PointRing

/-! ## Virtual-node keys -/

/-- Decimal digits contain no colon. -/
theorem colon_not_mem_toString (n : ℕ) : ':' ∉ (toString n).toList := by
  intro h
  have hmem : ':' ∈ Nat.toDigits 10 n := by simpa using h
  have hdigit : (':').isDigit = true := Nat.isDigit_of_mem_toDigits (by decide) (by decide) hmem
  exact absurd hdigit (by decide)

/-- Two texts split at their last colon are equal only if their parts are. -/
theorem append_colon_inj {s t a b : List Char} (ha : ':' ∉ a) (hb : ':' ∉ b)
    (h : s ++ ':' :: a = t ++ ':' :: b) : s = t ∧ a = b := by
  rcases List.append_eq_append_iff.mp h with ⟨u, rfl, hu⟩ | ⟨u, rfl, hu⟩
  · cases u with
    | nil => exact ⟨by simp, (List.cons.inj hu).2⟩
    | cons c u =>
        obtain ⟨-, hu⟩ := List.cons.inj hu
        exact absurd (hu ▸ List.mem_append_right u List.mem_cons_self) ha
  · cases u with
    | nil => exact ⟨by simp, (List.cons.inj hu).2.symm⟩
    | cons c u =>
        obtain ⟨-, hu⟩ := List.cons.inj hu
        exact absurd (hu ▸ List.mem_append_right u List.mem_cons_self) hb

/-- A virtual-node key determines the name, also when the name has colons itself. -/
theorem nodeKey_name_inj {n m : String} {i j : ℕ} (h : nodeKey n i = nodeKey m j) : n = m := by
  have hlist : n.toList ++ ':' :: (toString i).toList = m.toList ++ ':' :: (toString j).toList := by
    simpa [nodeKey, String.toList_append] using congrArg String.toList h
  obtain ⟨hname, -⟩ :=
    append_colon_inj (colon_not_mem_toString i) (colon_not_mem_toString j) hlist
  exact String.toList_inj.mp hname

/-! ## One health change -/

/-- The positions at which an upstream stands in a list. -/
def positions (upstreams : List UpstreamRef) (x : UpstreamRef) : Set ℕ :=
  {i | upstreams[i]? = some x}

/-- Two healths of one list that differ at most in the availability of `x`. -/
structure AgreesExceptAt (x : UpstreamRef) (upstreams : List UpstreamRef) (heap heap' : Heap) :
    Prop where
  name : ∀ r ∈ upstreams, (heap'.get r).config.name = (heap.get r).config.name
  available : ∀ r ∈ upstreams, r ≠ x → heap'.isAvailable r = heap.isAvailable r

namespace AgreesExceptAt

variable {x : UpstreamRef} {upstreams : List UpstreamRef} {heap heap' : Heap}

/-- Which health is the earlier one does not matter. -/
theorem symm (h : AgreesExceptAt x upstreams heap heap') : AgreesExceptAt x upstreams heap' heap :=
  ⟨fun r hr => (h.name r hr).symm, fun r hr hne => (h.available r hr hne).symm⟩

variable (hashKey : String → U64) (vn : ℕ)

/-- A point of the one ring that is not on the other belongs to `x`, which is available on the one
and not on the other. -/
theorem mem_positions (h : AgreesExceptAt x upstreams heap heap') {q : U64 × ℕ}
    (hq : q ∈ ringPoints hashKey vn (Router.infos heap upstreams))
    (hq' : q ∉ ringPoints hashKey vn (Router.infos heap' upstreams)) :
    q.2 ∈ positions upstreams x ∧ heap.isAvailable x = true ∧ heap'.isAvailable x = false := by
  obtain ⟨u, hu, hav, i, hi, hpoint⟩ := hq
  obtain ⟨r, hr, rfl⟩ : ∃ r, upstreams[q.2]? = some r ∧ heap.get r = u := by
    simpa [Router.infos, List.getElem?_map, Option.map_eq_some_iff] using hu
  have hmem : r ∈ upstreams := List.mem_of_getElem? hr
  have hgone : heap'.isAvailable r = false := by
    by_contra hstill
    refine hq' ⟨heap'.get r, ?_, by simpa [Heap.isAvailable] using hstill, i, hi, ?_⟩
    · simp [Router.infos, List.getElem?_map, hr]
    · rw [h.name r hmem, hpoint]
  have hrx : r = x := by
    by_contra hne
    rw [h.available r hmem hne] at hgone
    exact absurd (hgone.symm.trans hav) (by decide)
  subst hrx
  exact ⟨hr, hav, hgone⟩

end AgreesExceptAt

section healthChange

variable {hashKey : String → U64} {search : BinarySearch U64} {self : ConsistentHashRing}
  {x y : UpstreamRef} {upstreams : List UpstreamRef} {heap heap' : Heap} {key : String}

/-- The session key is mapped to `r` by the ring that is built for a health of the list. -/
def MapsTo (hashKey : String → U64) (search : BinarySearch U64) (self : ConsistentHashRing)
    (heap : Heap) (upstreams : List UpstreamRef) (key : String) (r : UpstreamRef) : Prop :=
  Router.selectConsistentHash hashKey search
    (self.update hashKey (Router.infos heap upstreams)) upstreams key = some r

/-- A key is mapped to the upstream at the position that it is assigned to. -/
theorem mapsTo_iff {r : UpstreamRef} :
    MapsTo hashKey search self heap upstreams key r ↔
      ∃ idx, Assigned (ringPoints hashKey self.virtualNodesPerUpstream
        (Router.infos heap upstreams)) (hashKey key) idx ∧ upstreams[idx]? = some r := by
  unfold MapsTo Router.selectConsistentHash
  constructor
  · intro h
    rcases hget : (self.update hashKey (Router.infos heap upstreams)).getUpstream hashKey search key
      with _ | idx
    · rw [hget] at h
      exact absurd h (by simp)
    · rw [hget] at h
      exact ⟨idx, (getUpstream_update search).mp hget, h⟩
  · rintro ⟨idx, hidx, hr⟩
    rw [(getUpstream_update search).mpr hidx]
    exact hr

/-- When `x` is not available any more, every key of another upstream stays where it was. -/
theorem mapsTo_of_unavailable (h : AgreesExceptAt x upstreams heap heap')
    (hx : heap'.isAvailable x = false) (hy : MapsTo hashKey search self heap upstreams key y)
    (hne : y ≠ x) : MapsTo hashKey search self heap' upstreams key y := by
  obtain ⟨idx, hidx, hr⟩ := mapsTo_iff.mp hy
  refine mapsTo_iff.mpr ⟨idx, hidx.of_remove ?_ ?_ (X := positions upstreams x) ?_, hr⟩
  · -- the new ring has no point that the old one lacks: `x` would have to be available
    intro q hq
    by_contra hq'
    obtain ⟨-, hav, -⟩ := h.symm.mem_positions hashKey _ hq hq'
    rw [hx] at hav
    exact absurd hav (by decide)
  · exact fun q hq hq' => (h.mem_positions hashKey _ hq hq').1
  · intro hmem
    exact hne (Option.some.inj (hr.symm.trans hmem))

/-- When `x` is available again, a key stays where it was or moves to `x`. -/
theorem mapsTo_of_available (h : AgreesExceptAt x upstreams heap heap')
    (hx : heap'.isAvailable x = true) (hy : MapsTo hashKey search self heap upstreams key y) :
    MapsTo hashKey search self heap' upstreams key y ∨
      MapsTo hashKey search self heap' upstreams key x := by
  obtain ⟨idx, hidx, hr⟩ := mapsTo_iff.mp hy
  have hsub : ringPoints hashKey self.virtualNodesPerUpstream (Router.infos heap upstreams) ⊆
      ringPoints hashKey self.virtualNodesPerUpstream (Router.infos heap' upstreams) := by
    intro q hq
    by_contra hq'
    obtain ⟨-, -, hno⟩ := h.mem_positions hashKey _ hq hq'
    rw [hx] at hno
    exact absurd hno (by decide)
  obtain ⟨p, -, hp⟩ := hidx.claims
  obtain ⟨idx', hidx'⟩ := exists_assigned (ringPoints_finite (Router.infos heap' upstreams))
    ⟨_, hsub hp⟩ (hashKey key)
  rcases hidx.of_add hsub (fun q hq hq' => (h.symm.mem_positions hashKey _ hq hq').1) hidx'
    with rfl | hmem
  · exact Or.inl (mapsTo_iff.mpr ⟨idx', hidx', hr⟩)
  · exact Or.inr (mapsTo_iff.mpr ⟨idx', hidx', hmem⟩)

end healthChange

/-! ## Two lists -/

section twoLists

variable (hashKey : String → U64) (vn : ℕ)

/-- The virtual-node keys of the upstreams of a list. -/
def nodeKeys (heap : Heap) (upstreams : List UpstreamRef) : Set String :=
  {k | ∃ r ∈ upstreams, ∃ i < vn, k = nodeKey (heap.get r).config.name i}

/-- The points of the available upstreams, each owned by a name. -/
def namedPoints (heap : Heap) (upstreams : List UpstreamRef) : Set (U64 × String) :=
  {q | ∃ r ∈ upstreams, heap.isAvailable r = true ∧ (heap.get r).config.name = q.2 ∧
    ∃ i < vn, q.1 = hashKey (nodeKey q.2 i)}

/-- Is an upstream of this name available in the list? -/
def NameAvailable (heap : Heap) (upstreams : List UpstreamRef) (name : String) : Prop :=
  ∃ r ∈ upstreams, (heap.get r).config.name = name ∧ heap.isAvailable r = true

variable {hashKey vn} {search : BinarySearch U64} {self : ConsistentHashRing}

/-- The points of a name are on the ring of every list that has it available. -/
theorem mem_namedPoints_of_nameAvailable {heap heap' : Heap} {us vs : List UpstreamRef} {p : U64}
    {name : String} (h : (p, name) ∈ namedPoints hashKey vn heap us)
    (hav : NameAvailable heap' vs name) : (p, name) ∈ namedPoints hashKey vn heap' vs := by
  obtain ⟨-, -, -, -, i, hi, hp⟩ := h
  obtain ⟨r, hr, hname, hr'⟩ := hav
  exact ⟨r, hr, hr', hname, i, hi, hp⟩

/-- The points of the ring, without their owners. -/
theorem points_namedPoints (heap : Heap) (upstreams : List UpstreamRef) :
    points (namedPoints hashKey vn heap upstreams) =
      points (ringPoints hashKey vn (Router.infos heap upstreams)) := by
  ext p
  constructor
  · rintro ⟨name, r, hr, hav, rfl, i, hi, hp⟩
    obtain ⟨idx, hidx⟩ := List.getElem?_of_mem hr
    refine ⟨idx, heap.get r, ?_, hav, i, hi, hp⟩
    simp [Router.infos, List.getElem?_map, hidx]
  · rintro ⟨idx, u, hu, hav, i, hi, hp⟩
    obtain ⟨r, hr, rfl⟩ := List.mem_map.mp (List.mem_of_getElem? hu)
    exact ⟨_, r, hr, hav, rfl, i, hi, hp⟩

/-- The name that a key is mapped to owns its first point. -/
theorem claims_of_mapsTo {heap : Heap} {upstreams : List UpstreamRef} {key : String}
    {r : UpstreamRef} (h : MapsTo hashKey search self heap upstreams key r) :
    Claims (namedPoints hashKey self.virtualNodesPerUpstream heap upstreams) (hashKey key)
      (heap.get r).config.name := by
  obtain ⟨idx, hidx, hr⟩ := mapsTo_iff.mp h
  obtain ⟨p, hp, u, hu, hav, i, hi, hpoint⟩ := hidx.claims
  obtain rfl : heap.get r = u := by
    simpa [Router.infos, List.getElem?_map, hr] using hu
  refine ⟨p, ?_, r, List.mem_of_getElem? hr, hav, rfl, i, hi, hpoint⟩
  rw [points_namedPoints]
  exact hp

/-- Without hash collisions on the virtual-node keys, a point has one name. -/
theorem namedPoints_unique {heap : Heap} {upstreams : List UpstreamRef}
    (hinj : Set.InjOn hashKey (nodeKeys vn heap upstreams)) {p : U64} {n m : String}
    (hn : (p, n) ∈ namedPoints hashKey vn heap upstreams)
    (hm : (p, m) ∈ namedPoints hashKey vn heap upstreams) : n = m := by
  obtain ⟨r, hr, -, rfl, i, hi, hp⟩ := hn
  obtain ⟨r', hr', -, rfl, j, hj, hp'⟩ := hm
  have hkeys : nodeKey (heap.get r).config.name i = nodeKey (heap.get r').config.name j :=
    hinj ⟨r, hr, i, hi, rfl⟩ ⟨r', hr', j, hj, rfl⟩ (hp.symm.trans hp')
  exact nodeKey_name_inj hkeys

/-- Between two lists a key does not move from one name to another that are both available on
both sides. -/
theorem not_nameAvailable_of_mapsTo {heap heap' : Heap} {us vs : List UpstreamRef} {key : String}
    {r r' : UpstreamRef}
    (hinj : Set.InjOn hashKey (nodeKeys self.virtualNodesPerUpstream heap' vs))
    (h : MapsTo hashKey search self heap us key r)
    (h' : MapsTo hashKey search self heap' vs key r')
    (hne : (heap'.get r').config.name ≠ (heap.get r).config.name)
    (hav : NameAvailable heap' vs (heap.get r).config.name) :
    ¬ NameAvailable heap us (heap'.get r').config.name := by
  intro hm
  refine hne ((claims_of_mapsTo h).exchange (claims_of_mapsTo h') ?_ ?_ ?_).symm
  · exact fun p hp => mem_namedPoints_of_nameAvailable hp hav
  · exact fun p hp => mem_namedPoints_of_nameAvailable hp hm
  · exact fun p b b' hb hb' => namedPoints_unique hinj hb hb'

end twoLists

/-! ## The law -/

/-- **Minimal disruption of consistent hashing.** For every hash function and number of virtual
nodes: when the availability of one upstream `x` changes, every key that was on another upstream
stays or moves to `x`, and stays if `x` became unavailable; and between two lists, a key that moves
from a name that the second list still has available moves to a name that the first list did not
have available. -/
theorem consistentHash_minimalDisruption (hashKey : String → U64) (search : BinarySearch U64)
    (self : ConsistentHashRing) (key : String) :
    (∀ (upstreams : List UpstreamRef) (heap heap' : Heap) (x y : UpstreamRef),
      AgreesExceptAt x upstreams heap heap' → y ≠ x →
      MapsTo hashKey search self heap upstreams key y →
        (MapsTo hashKey search self heap' upstreams key y ∨
          MapsTo hashKey search self heap' upstreams key x) ∧
        (heap'.isAvailable x = false → MapsTo hashKey search self heap' upstreams key y)) ∧
    (∀ (us vs : List UpstreamRef) (heap heap' : Heap) (r r' : UpstreamRef),
      (us.map fun u => (heap.get u).config.name).Nodup →
      (vs.map fun u => (heap'.get u).config.name).Nodup →
      Set.InjOn hashKey (nodeKeys self.virtualNodesPerUpstream heap us ∪
        nodeKeys self.virtualNodesPerUpstream heap' vs) →
      MapsTo hashKey search self heap us key r → MapsTo hashKey search self heap' vs key r' →
      (heap'.get r').config.name ≠ (heap.get r).config.name →
      NameAvailable heap' vs (heap.get r).config.name →
        ¬ NameAvailable heap us (heap'.get r').config.name) := by
  constructor
  · intro upstreams heap heap' x y hagree hne hy
    refine ⟨?_, fun hx => mapsTo_of_unavailable hagree hx hy hne⟩
    rcases Bool.eq_false_or_eq_true (heap'.isAvailable x) with hx | hx
    · exact mapsTo_of_available hagree hx hy
    · exact Or.inl (mapsTo_of_unavailable hagree hx hy hne)
  · intro us vs heap heap' r r' _ _ hinj h h' hname hav
    exact not_nameAvailable_of_mapsTo (hinj.mono Set.subset_union_right) h h' hname hav

/-- Two upstreams, `a` with health `s` and `b` with health `t`. -/
def twoUpstreams (s t : HealthState) : Heap :=
  ⟨[⟨⟨"a", "a:80", 1, 0, 5000⟩, s, .new 0, 0, 0⟩, ⟨⟨"bc", "b:80", 1, 0, 5000⟩, t, .new 0, 0, 0⟩]⟩

/-- The law with the length of a text for its hash and one virtual node each: `a:0` is at 3 and
`bc:0` at 4. When `bc` becomes unavailable a key with hash 1 stays on `a`; when `bc` is added a key
with hash 4 moves to it from `a`, where `bc` was not available. -/
theorem consistentHash_minimalDisruption_lengths :
    let hashKey : String → U64 := fun s => Fin.ofNat _ s.length
    let search := BinarySearch.linear U64
    MapsTo hashKey search (.new 1) (twoUpstreams .healthy .unhealthy) [0, 1] "k" 0 ∧
      ¬ NameAvailable (twoUpstreams .healthy .unhealthy) [0] "bc" := by
  intro hashKey search
  obtain ⟨hhealth, -⟩ := consistentHash_minimalDisruption hashKey search (.new 1) "k"
  obtain ⟨-, hlists⟩ := consistentHash_minimalDisruption hashKey search (.new 1) "four"
  constructor
  · refine (hhealth [0, 1] (twoUpstreams .healthy .healthy) (twoUpstreams .healthy .unhealthy) 1 0
      ⟨by decide, by decide⟩ (by decide) ?_).2 (by decide)
    unfold MapsTo
    decide +kernel
  · refine hlists [0] [0, 1] (twoUpstreams .healthy .unhealthy) (twoUpstreams .healthy .healthy) 0 1
      (by decide) (by decide) ?_ ?_ ?_ (by decide) ⟨0, by decide⟩
    · rintro k (⟨r, hr, i, hi, rfl⟩ | ⟨r, hr, i, hi, rfl⟩) k'
        (⟨r', hr', j, hj, rfl⟩ | ⟨r', hr', j, hj, rfl⟩) h
      all_goals
        obtain rfl : i = 0 := by simpa [ConsistentHashRing.new] using hi
        obtain rfl : j = 0 := by simpa [ConsistentHashRing.new] using hj
        simp only [List.mem_cons, List.not_mem_nil, or_false] at hr hr'
        revert h
        rcases hr with rfl | rfl <;> rcases hr' with rfl | rfl <;> decide +kernel
    · unfold MapsTo
      decide +kernel
    · unfold MapsTo
      decide +kernel

end HarbrRouter.Routing
