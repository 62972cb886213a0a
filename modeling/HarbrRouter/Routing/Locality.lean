import HarbrRouter.Routing.Selection

/-!
# A selection reads the upstreams of its router only

`routing.rs`, `select_upstream`: whatever the strategy, the answer depends on the heap at the
upstreams of the router's list alone. Upstreams of other routers may change in between.

**Theorem** (`Router.selectUpstream_congr`): a router selects alike on two heaps that have the same
upstreams of its list (`Heap.AgreeOn`). Each strategy filters the list, or takes the least of it, by
values that it reads at the upstreams of the list, and that is the same on both heaps. Of the
routers of several instances over one heap, that of one instance and its upstreams are then alike
(`Alike`) after the instance selects or records, and whatever the others do.
-/

set_option autoImplicit false

namespace HarbrRouter.Routing

open PointRing

/-- The heaps have the same upstreams of the list. -/
def Heap.AgreeOn (upstreams : List UpstreamRef) (heap heap' : Heap) : Prop :=
  ∀ r ∈ upstreams, heap.get r = heap'.get r

/-- The first of the least elements depends on the values on the list only. -/
theorem argmin_congr {α β : Type} [DecidableEq α] [LinearOrder β] {l : List α} {f g : α → β}
    (h : ∀ a ∈ l, f a = g a) : l.argmin f = l.argmin g := by
  have hle : ∀ f g : α → β, (∀ a ∈ l, f a = g a) → ∀ m, m ∈ l.argmin f → m ∈ l.argmin g := by
    intro f g h m hm
    obtain ⟨hmem, hleast, hfirst⟩ := List.mem_argmin_iff.mp hm
    refine List.mem_argmin_iff.mpr ⟨hmem, fun a ha => ?_, fun a ha hga => ?_⟩
    · rw [← h m hmem, ← h a ha]
      exact hleast a ha
    · rw [← h m hmem, ← h a ha] at hga
      exact hfirst a ha hga
  exact Option.ext fun m => ⟨hle f g h m, hle g f (fun a ha => (h a ha).symm) m⟩

namespace Router

section agree

variable {upstreams : List UpstreamRef} {heap heap' : Heap}

/-- The same upstreams are available where heaps agree on a list. -/
theorem filter_isAvailable_congr (h : heap.AgreeOn upstreams heap') :
    upstreams.filter heap.isAvailable = upstreams.filter heap'.isAvailable := by
  refine List.filter_congr fun r hr => ?_
  rw [Heap.isAvailable, Heap.isAvailable, h r hr]

/-- The available upstreams of a list are alike where heaps agree on the list. -/
theorem get_of_available (h : heap.AgreeOn upstreams heap') {r : UpstreamRef}
    (hr : r ∈ upstreams.filter heap'.isAvailable) : heap.get r = heap'.get r :=
  h r (List.mem_of_mem_filter hr)

/-- A weighted rotation answers alike where heaps agree on its list. -/
theorem selectWeightedRoundRobin_congr (h : heap.AgreeOn upstreams heap') (self : Router) :
    self.selectWeightedRoundRobin heap upstreams =
      self.selectWeightedRoundRobin heap' upstreams := by
  unfold selectWeightedRoundRobin
  rw [filter_isAvailable_congr h]
  congr 1
  refine List.flatMap_congr fun r hr => ?_
  rw [get_of_available h hr]

/-- The upstream with the fewest connections is the same where heaps agree on the list. -/
theorem selectLeastConnections_congr (h : heap.AgreeOn upstreams heap') :
    selectLeastConnections heap upstreams = selectLeastConnections heap' upstreams := by
  unfold selectLeastConnections
  rw [filter_isAvailable_congr h]
  refine argmin_congr fun r hr => ?_
  rw [get_of_available h hr]

/-- The candidates and their scores are the same where heaps agree on the list. -/
theorem candidates_congr (F : Type) [ScoreArith F] (h : heap.AgreeOn upstreams heap') :
    candidates F heap upstreams = candidates F heap' upstreams := by
  unfold candidates
  rw [filter_isAvailable_congr h]
  congr 1
  refine List.map_congr_left fun r hr => ?_
  rw [combinedScore, combinedScore, get_of_available h hr]

end agree

/-- **A router selects alike** when the upstreams of its list are alike. -/
theorem selectUpstream_congr (F : Type) [ScoreArith F] (hashKey : String → U64)
    (search : BinarySearch U64) {self : Router} {heap heap' : Heap}
    (h : heap.AgreeOn self.upstreams heap') (sessionKey : Option String) :
    self.selectUpstream F hashKey search heap sessionKey =
      self.selectUpstream F hashKey search heap' sessionKey := by
  have hrotate : self.selectRoundRobin heap self.upstreams =
      self.selectRoundRobin heap' self.upstreams := by
    rw [selectRoundRobin, filter_isAvailable_congr h, selectRoundRobin]
  have haware : self.selectHealthAware F heap self.upstreams =
      self.selectHealthAware F heap' self.upstreams := by
    simp only [selectHealthAware, candidates_congr F h]
  simp only [selectUpstream, hrotate, haware, selectWeightedRoundRobin_congr h,
    selectLeastConnections_congr h]

end Router

/-! ## The router of one instance -/

/-- The instance has the same router, and its upstreams are the same. -/
structure Alike (inst : ℕ) (heap heap₀ : Heap) (routers routers₀ : ℕ → Router) : Prop where
  router : routers₀ inst = routers inst
  length : heap₀.cells.length = heap.cells.length
  upstreams : heap₀.AgreeOn (routers inst).upstreams heap

namespace Alike

variable {inst : ℕ} {heap heap' heap₀ : Heap} {routers routers' routers₀ : ℕ → Router}

/-- The routers of an instance select alike where they are alike. -/
theorem selectUpstream (h : Alike inst heap heap₀ routers routers₀) (F : Type) [ScoreArith F]
    (hashKey : String → U64) (search : BinarySearch U64) (sessionKey : Option String) :
    (routers₀ inst).selectUpstream F hashKey search heap₀ sessionKey =
      (routers inst).selectUpstream F hashKey search heap sessionKey := by
  rw [h.router]
  exact Router.selectUpstream_congr F hashKey search h.upstreams sessionKey

/-- The routers of an instance are alike after both have selected. -/
theorem select (h : Alike inst heap heap₀ routers routers₀) {F : Type} [ScoreArith F]
    {hashKey : String → U64} {search : BinarySearch U64} {sessionKey : Option String}
    {router : Router} {upstream : Option UpstreamRef}
    (hselect : (routers inst).selectUpstream F hashKey search heap sessionKey =
      (router, upstream)) :
    Alike inst heap heap₀ (Function.update routers inst router)
      (Function.update routers₀ inst router) := by
  refine ⟨by rw [Function.update_self, Function.update_self], h.length, ?_⟩
  rw [(Router.update_selected_keeps hselect inst).1]
  exact h.upstreams

/-- Routers and upstreams are alike after the same change of an upstream. -/
theorem modify (h : Alike inst heap heap₀ routers routers₀) (u : UpstreamRef)
    (f : UpstreamInfo → UpstreamInfo) :
    Alike inst (heap.modify u f) (heap₀.modify u f) routers routers₀ := by
  refine ⟨h.router, ?_, fun r hr => ?_⟩
  · rw [Heap.modify, Heap.modify, List.length_modify, List.length_modify]
    exact h.length
  · have hsame := h.upstreams r hr
    by_cases hur : u = r
    · subst hur
      by_cases hlt : u < heap.cells.length
      · rw [Heap.get_modify_self hlt, Heap.get_modify_self (h.length.symm ▸ hlt), hsame]
      · have hge := not_lt.mp hlt
        rw [Heap.modify, Heap.modify, List.modify_eq_self hge,
          List.modify_eq_self (h.length.symm ▸ hge)]
        exact hsame
    · rw [Heap.get_modify_of_ne hur, Heap.get_modify_of_ne hur, hsame]

/-- A change that leaves the router of an instance and its upstreams alone leaves them alike. -/
theorem unseen (h : Alike inst heap heap₀ routers routers₀)
    (hrouter : routers' inst = routers inst) (hlength : heap'.cells.length = heap.cells.length)
    (hget : ∀ r ∈ (routers inst).upstreams, heap'.get r = heap.get r) :
    Alike inst heap' heap₀ routers' routers₀ := by
  refine ⟨h.router.trans hrouter.symm, h.length.trans hlength.symm, fun r hr => ?_⟩
  rw [hrouter] at hr
  rw [h.upstreams r hr, hget r hr]

end Alike

end HarbrRouter.Routing
