import HarbrRouter.Lib.Linearization
import HarbrRouter.Routing.Selection

/-!
# The registry of a router

What a router is for, as far as its upstreams go: a registry of named upstreams, each with its
configuration and its reported health, of which one list is current. Two updates change it: the list
is replaced by new upstreams of unknown health, or the health of the upstream with a name is
reported. Failure counts, check times, statistics and the hash ring are no part of it.

The router of `routing.rs` refines the registry, call by call (`World.registry_apply`) and in every
history of updates (`World.registry_history`), and the ring of a router that hashes is determined by
its registry (`Registry.update_eq_of_registry`).

**Theorem** (`Registry.after_insert_report`): a report takes effect in the same way anywhere before
the list that its upstream is in is replaced. A report about another upstream commutes with it
(`Registry.apply_setHealth`), one about the same upstream comes behind both, and a list that is
replaced in between is not its own.
-/

set_option autoImplicit false

namespace HarbrRouter.Routing

open PointRing Linearization

/-! ## The abstract registry -/

/-- What the registry has of an upstream. -/
abbrev Entry := UpstreamConfig × HealthState

/-- The entry of an upstream. -/
def UpstreamInfo.entry (u : UpstreamInfo) : Entry := (u.config, u.healthState)

/-- The current list, and the entries of all upstreams there ever were. -/
structure Registry where
  upstreams : List UpstreamRef
  entries : List Entry

/-- An update of the registry. The clock's reading is part of the call. -/
inductive Update where
  | updateUpstreams (configs : List UpstreamConfig) (now : ℕ)
  | updateUpstreamHealth (name : String) (state : HealthState) (now : ℕ)
deriving DecidableEq

namespace Registry

/-- A registry without upstreams. -/
def empty : Registry := ⟨[], []⟩

/-- The entry of an upstream. -/
def entry (reg : Registry) (r : UpstreamRef) : Entry :=
  reg.entries.getD r (UpstreamInfo.entry default)

/-- The first upstream of the list with a name. -/
def find (reg : Registry) (name : String) : Option UpstreamRef :=
  reg.upstreams.find? fun r => (reg.entry r).1.name = name

/-- Report the health of an upstream. -/
def setHealth (r : UpstreamRef) (state : HealthState) (reg : Registry) : Registry :=
  { reg with entries := reg.entries.modify r fun e => (e.1, state) }

/-- One update. -/
def apply (reg : Registry) : Update → Registry
  | .updateUpstreams configs _ =>
      ⟨List.range' reg.entries.length configs.length,
        reg.entries ++ configs.map fun config => (config, .unknown)⟩
  | .updateUpstreamHealth name state _ =>
      match reg.find name with
      | some r => reg.setHealth r state
      | none => reg

/-- A report changes no configuration. -/
@[simp] theorem entry_setHealth_fst (reg : Registry) (r : UpstreamRef) (state : HealthState)
    (r' : UpstreamRef) : ((reg.setHealth r state).entry r').1 = (reg.entry r').1 := by
  simp only [entry, setHealth, List.getD_eq_getElem?_getD, List.getElem?_modify]
  cases reg.entries[r']? with
  | none => rfl
  | some e => split_ifs <;> rfl

/-- A report is not seen by who looks for a name. -/
@[simp] theorem find_setHealth (reg : Registry) (r : UpstreamRef) (state : HealthState)
    (name : String) : (reg.setHealth r state).find name = reg.find name := by
  unfold find
  congr 1
  funext r'
  rw [entry_setHealth_fst]

section report

variable {reg : Registry} {name : String} (state : HealthState) (now : ℕ)

/-- A report about a name in the list sets the health of the first upstream with that name. -/
theorem apply_report {r : UpstreamRef} (h : reg.find name = some r) :
    reg.apply (.updateUpstreamHealth name state now) = reg.setHealth r state := by
  simp only [apply, h]

/-- A report about a name that is not in the list changes nothing. -/
theorem apply_report_of_none (h : reg.find name = none) :
    reg.apply (.updateUpstreamHealth name state now) = reg := by
  simp only [apply, h]

end report

/-- The list after a report is the list before. -/
theorem upstreams_report (reg : Registry) (name : String) (state : HealthState) (now : ℕ) :
    (reg.apply (.updateUpstreamHealth name state now)).upstreams = reg.upstreams := by
  cases h : reg.find name with
  | some r => rw [apply_report state now h, setHealth]
  | none => rw [apply_report_of_none state now h]

/-- Who looks for a name after a report finds what it found before. -/
theorem find_report (reg : Registry) (name : String) (state : HealthState) (now : ℕ)
    (name' : String) :
    (reg.apply (.updateUpstreamHealth name state now)).find name' = reg.find name' := by
  cases h : reg.find name with
  | some r => rw [apply_report state now h, find_setHealth]
  | none => rw [apply_report_of_none state now h]

/-- Whoever is found is in the list. -/
theorem mem_of_find {reg : Registry} {name : String} {r : UpstreamRef}
    (h : reg.find name = some r) : r ∈ reg.upstreams :=
  List.mem_of_find?_eq_some h

/-- No update loses an entry. -/
theorem length_le_apply (reg : Registry) (u : Update) :
    reg.entries.length ≤ (reg.apply u).entries.length := by
  cases u with
  | updateUpstreams configs now => simp [apply]
  | updateUpstreamHealth name state now =>
      cases h : reg.find name with
      | some r => simp [apply_report state now h, setHealth]
      | none => rw [apply_report_of_none state now h]

/-- The upstreams of the list have entries. -/
def Valid (reg : Registry) : Prop := ∀ r ∈ reg.upstreams, r < reg.entries.length

/-- Every update keeps the list valid. -/
theorem Valid.apply {reg : Registry} (h : reg.Valid) (u : Update) : (reg.apply u).Valid := by
  cases u with
  | updateUpstreams configs now =>
      intro r hr
      have hlt := (List.mem_range'_1.mp hr).2
      simpa [Registry.apply] using hlt
  | updateUpstreamHealth name state now =>
      intro r hr
      rw [upstreams_report] at hr
      exact (h r hr).trans_le (length_le_apply reg _)

/-- A report commutes with an update that does not report about the same upstream. -/
theorem apply_setHealth {reg : Registry} {r : UpstreamRef} (hr : r < reg.entries.length)
    (state : HealthState) {u : Update}
    (hu : ∀ name state' now, u = .updateUpstreamHealth name state' now → reg.find name ≠ some r) :
    (reg.setHealth r state).apply u = (reg.apply u).setHealth r state := by
  cases u with
  | updateUpstreams configs now =>
      have happend : ∀ new : List Entry, (reg.entries.modify r fun e => (e.1, state)) ++ new =
          (reg.entries ++ new).modify r fun e => (e.1, state) := by
        intro new
        apply List.ext_getElem?
        intro n
        simp only [List.getElem?_append, List.length_modify, List.getElem?_modify]
        by_cases hn : n < reg.entries.length
        · rw [if_pos hn, if_pos hn]
        · have hne : r ≠ n := fun heq => hn (heq ▸ hr)
          rw [if_neg hn, if_neg hn]
          cases new[n - reg.entries.length]? with
          | none => rfl
          | some e => simp [hne]
      simp only [apply, setHealth, List.length_modify, happend]
  | updateUpstreamHealth name state' now =>
      have hne := hu name state' now rfl
      cases h : reg.find name with
      | none =>
          rw [apply_report_of_none state' now h,
            apply_report_of_none state' now ((find_setHealth reg r state name).trans h)]
      | some r' =>
          have hne' : r ≠ r' := by
            rintro rfl
            exact hne h
          rw [apply_report state' now h,
            apply_report state' now ((find_setHealth reg r state name).trans h)]
          simp only [setHealth]
          rw [List.modify_modify_ne _ _ _ hne']

/-! ## Histories -/

section histories

variable {ι : Type}

/-- The registry after a history of updates, each with a label. -/
def after (order : List (ι × Update)) : Registry :=
  Linearization.after (fun reg x => reg.apply x.2) empty order

/-- The registry after some updates and one more is the registry after them, with that one
applied. -/
@[simp] theorem after_concat (order : List (ι × Update)) (x : ι × Update) :
    after (order ++ [x]) = (after order).apply x.2 :=
  Linearization.after_concat _ _ order x

/-- The list is valid after every history. -/
theorem valid_after (order : List (ι × Update)) : (after order).Valid := by
  induction order using List.reverseRecOn with
  | nil => exact fun r hr => absurd hr List.not_mem_nil
  | append_singleton order x ih =>
      rw [after_concat]
      exact ih.apply x.2

/-- No entry is ever lost. -/
theorem length_le_after (order rest : List (ι × Update)) :
    (after order).entries.length ≤ (after (order ++ rest)).entries.length := by
  induction rest using List.reverseRecOn with
  | nil => rw [List.append_nil]
  | append_singleton rest x ih =>
      rw [← List.append_assoc, after_concat]
      exact ih.trans (length_le_apply _ _)

variable {name : String} {r : UpstreamRef} {order before rest : List (ι × Update)}
  {x : ι × Update}

/-- A report about the name that found the upstream belongs between the two parts of the history:
there the list has the upstream under the name, and from the next update on it has not. -/
structure Placed (name : String) (r : UpstreamRef) (before rest : List (ι × Update)) : Prop where
  found : (after before).find name = some r
  gone : ∀ ys, ys ≠ [] → ys <+: rest → r ∉ (after (before ++ ys)).upstreams

/-- The upstream of a placed report has an entry from there on. -/
theorem Placed.lt (h : Placed name r before rest) (ys : List (ι × Update)) :
    r < (after (before ++ ys)).entries.length :=
  (valid_after before r (mem_of_find h.found)).trans_le (length_le_after before ys)

/-- **A report takes effect in the same way where it is placed and at the end.** -/
theorem after_insert_report (h : Placed name r before rest) (i : ι) (state : HealthState)
    (now : ℕ) : after (before ++ (i, .updateUpstreamHealth name state now) :: rest) =
      (after (before ++ rest)).setHealth r state := by
  have hfound : (after before).apply (.updateUpstreamHealth name state now) =
      setHealth r state (after before) := apply_report state now h.found
  refine Linearization.after_insert hfound fun ys y hys => ?_
  refine apply_setHealth (h.lt ys) state fun name' state' now' hy hfind => ?_
  -- a report keeps the list, so that the upstream is not in it
  have hgone := h.gone (ys ++ [y]) (by simp) hys
  rw [← List.append_assoc, after_concat, hy, upstreams_report] at hgone
  exact hgone (mem_of_find hfind)

/-- An update that changes neither a list nor what is found there, where it is inserted. -/
def Silent (x : ι × Update) (before rest : List (ι × Update)) : Prop :=
  ∀ ys, ys <+: rest →
    (after (before ++ x :: ys)).upstreams = (after (before ++ ys)).upstreams ∧
      ∀ name, (after (before ++ x :: ys)).find name = (after (before ++ ys)).find name

/-- A placed report is silent. -/
theorem Placed.silent (h : Placed name r before rest) (i : ι) (state : HealthState) (now : ℕ) :
    Silent (i, .updateUpstreamHealth name state now) before rest := by
  intro ys hys
  have hplaced : Placed name r before ys :=
    ⟨h.found, fun zs hzs hpre => h.gone zs hzs (hpre.trans hys)⟩
  rw [after_insert_report hplaced i state now]
  exact ⟨rfl, fun name' => find_setHealth _ r state name'⟩

/-- A report at the end is silent. -/
theorem silent_at_end (order : List (ι × Update)) (i : ι) (name : String) (state : HealthState)
    (now : ℕ) : Silent (i, .updateUpstreamHealth name state now) order [] := by
  intro ys hys
  rw [List.prefix_nil.mp hys, after_concat, List.append_nil]
  exact ⟨upstreams_report _ name state now, find_report _ name state now⟩

/-- A placed report keeps its place when something silent is inserted. -/
theorem Placed.shift {left right : List (ι × Update)} (h : Placed name r left right)
    (heq : left ++ right = before ++ rest) (hsilent : Silent x before rest) :
    ∃ left' right', before ++ x :: rest = left' ++ right' ∧ Placed name r left' right' ∧
      ∀ y ∈ right', y = x ∨ y ∈ right := by
  rcases List.append_eq_append_iff.mp heq with ⟨mid, rfl, rfl⟩ | ⟨mid, rfl, rfl⟩
  · by_cases hmid : mid = []
    · -- at the same place, the new one goes first
      subst hmid
      rw [List.append_nil] at hsilent ⊢
      obtain ⟨-, hfind⟩ := hsilent [] List.nil_prefix
      rw [List.append_nil] at hfind
      refine ⟨left ++ [x], rest, by simp, ⟨(hfind name).trans h.found, ?_⟩, fun y => Or.inr⟩
      intro ys hne hys
      rw [List.append_assoc, List.singleton_append, (hsilent ys hys).1]
      exact h.gone ys hne hys
    · refine ⟨left, mid ++ x :: rest, by simp, ⟨h.found, fun ys hne hys => ?_⟩, fun y hy => ?_⟩
      · obtain ⟨zs, hzs⟩ := hys
        rcases List.append_eq_append_iff.mp hzs with ⟨ws, rfl, -⟩ | ⟨ws, rfl, hws⟩
        · exact h.gone ys hne ((List.prefix_append ys ws).trans (List.prefix_append _ rest))
        · cases ws with
          | nil => exact h.gone _ hne (by simp)
          | cons w ws =>
              obtain ⟨rfl, rfl⟩ := List.cons.inj hws
              rw [← List.append_assoc, (hsilent ws (List.prefix_append ws zs)).1, List.append_assoc]
              refine h.gone (mid ++ ws) (by simp [hmid]) ?_
              rw [List.prefix_append_right_inj]
              exact List.prefix_append ws zs
      · rcases List.mem_append.mp hy with hy | hy
        · exact Or.inr (List.mem_append_left rest hy)
        · rcases List.mem_cons.mp hy with rfl | hy
          · exact Or.inl rfl
          · exact Or.inr (List.mem_append_right mid hy)
  · refine ⟨before ++ x :: mid, right, by simp, ⟨?_, fun ys hne hys => ?_⟩, fun y => Or.inr⟩
    · rw [(hsilent mid (List.prefix_append mid right)).2]
      exact h.found
    · have hlist := (hsilent (mid ++ ys) ((List.prefix_append_right_inj mid).mpr hys)).1
      rw [List.append_assoc, List.cons_append, hlist, ← List.append_assoc]
      exact h.gone ys hne hys

/-- A placed report keeps its place when the list is replaced. -/
theorem Placed.replace (h : Placed name r before rest) (i : ι) (configs : List UpstreamConfig)
    (now : ℕ) : Placed name r before (rest ++ [(i, .updateUpstreams configs now)]) := by
  refine ⟨h.found, fun ys hne hys => ?_⟩
  rcases List.prefix_concat_iff.mp hys with rfl | hys
  · rw [← List.append_assoc, after_concat]
    intro hmem
    have hnew := (List.mem_range'_1.mp hmem).1
    exact absurd (h.lt rest) (not_lt.mpr hnew)
  · exact h.gone ys hne hys

end histories

/-! ## The registry of a heap and a list -/

section refinement

/-- What the registry has of the upstreams of a heap, with a list of them. -/
def of (heap : Heap) (upstreams : List UpstreamRef) : Registry :=
  ⟨upstreams, heap.cells.map UpstreamInfo.entry⟩

variable {heap heap' : Heap} {upstreams upstreams' : List UpstreamRef}

/-- The entry of an upstream, read through the heap. -/
theorem entry_of (upstreams : List UpstreamRef) (r : UpstreamRef) :
    (of heap upstreams).entry r = (heap.get r).entry := by
  rw [entry, of, Heap.get, List.getD_eq_getElem?_getD, List.getElem?_map,
    List.getD_eq_getElem?_getD]
  cases heap.cells[r]? <;> rfl

/-- The search by name in the registry of a heap is the search through the heap. -/
theorem find_of (name : String) : (of heap upstreams).find name =
    upstreams.find? fun r => (heap.get r).config.name = name := by
  unfold find
  congr 1
  funext r
  rw [entry_of, UpstreamInfo.entry]

/-- A new list refines an update of the registry. -/
theorem of_alloc (heap : Heap) (upstreams : List UpstreamRef) (configs : List UpstreamConfig)
    (now : ℕ) :
    of (heap.alloc (configs.map fun c => .new c now)).1
        (heap.alloc (configs.map fun c => .new c now)).2 =
      (of heap upstreams).apply (.updateUpstreams configs now) := by
  simp [of, Heap.alloc, apply, UpstreamInfo.entry, UpstreamInfo.new, Function.comp_def]

/-- What the registry does not have of an upstream can change. -/
theorem of_modify {f : UpstreamInfo → UpstreamInfo} (hf : ∀ u, (f u).entry = u.entry)
    (heap : Heap) (r : UpstreamRef) (upstreams : List UpstreamRef) :
    of (heap.modify r f) upstreams = of heap upstreams := by
  simp only [of, Heap.modify, mk.injEq, true_and]
  apply List.ext_getElem?
  intro n
  rw [List.getElem?_map, List.getElem?_map, List.getElem?_modify]
  cases heap.cells[n]? with
  | none => rfl
  | some u => by_cases hn : r = n <;> simp [hn, hf]

/-- A new health refines a report. -/
theorem of_setHealth {f : UpstreamInfo → UpstreamInfo} {state : HealthState}
    (hf : ∀ u, (f u).entry = (u.config, state)) (heap : Heap) (r : UpstreamRef)
    (upstreams : List UpstreamRef) :
    of (heap.modify r f) upstreams = (of heap upstreams).setHealth r state := by
  simp only [of, Heap.modify, setHealth, mk.injEq, true_and]
  apply List.ext_getElem?
  intro n
  rw [List.getElem?_map, List.getElem?_modify, List.getElem?_modify, List.getElem?_map]
  cases heap.cells[n]? with
  | none => rfl
  | some u =>
      by_cases hn : r = n
      · simp only [if_pos hn, Option.map_eq_map, Option.map_some, hf]
        rfl
      · simp [hn]

/-- **The registry determines the ring.** -/
theorem update_eq_of_registry (hashKey : String → U64)
    (h : of heap upstreams = of heap' upstreams') (vn : ℕ) :
    (ConsistentHashRing.new vn).update hashKey (Router.infos heap upstreams) =
      (ConsistentHashRing.new vn).update hashKey (Router.infos heap' upstreams') := by
  apply ConsistentHashRing.update_congr hashKey rfl
  have hupstreams : upstreams = upstreams' := congrArg Registry.upstreams h
  rw [Router.infos, Router.infos, List.map_map, List.map_map, hupstreams]
  refine List.map_congr_left fun r _ => ?_
  have hentry : (heap.get r).entry = (heap'.get r).entry := by
    rw [← entry_of upstreams, ← entry_of upstreams', h]
  obtain ⟨hconfig, hhealth⟩ := Prod.mk.inj hentry
  simp only [Function.comp_apply, UpstreamInfo.ringView, UpstreamInfo.isAvailable, hconfig, hhealth]

end refinement

end Registry

/-! ## The sequential router refines the registry -/

/-- An update as a call on the router. -/
def Update.op : Update → Op
  | .updateUpstreams configs now => .updateUpstreams configs now
  | .updateUpstreamHealth name state now => .updateUpstreamHealth name state now

namespace World

variable (F : Type) [ScoreArith F] (hashKey : String → U64) (search : BinarySearch U64)

/-- The registry of a router and its heap. -/
def registry (w : World) : Registry := .of w.heap w.router.upstreams

/-- **A call on the router is an update of the registry.** -/
theorem registry_apply (w : World) (u : Update) :
    (w.apply F hashKey search u.op).registry = w.registry.apply u := by
  cases u with
  | updateUpstreams configs now =>
      rw [registry, registry, ← Registry.of_alloc]
      simp only [Update.op, apply, Router.updateUpstreams, Router.rebuildRing_upstreams]
  | updateUpstreamHealth name state now =>
      have hfind : w.registry.find name = w.router.getUpstreamByName w.heap name :=
        Registry.find_of name
      simp only [Update.op, apply, Router.updateUpstreamHealth]
      cases hname : w.router.getUpstreamByName w.heap name with
      | some r =>
          rw [Registry.apply_report state now (hfind.trans hname), registry]
          simp only [Router.rebuildRing_upstreams]
          refine Registry.of_setHealth (fun u => ?_) w.heap r w.router.upstreams
          cases state <;> rfl
      | none => rw [Registry.apply_report_of_none state now (hfind.trans hname)]

/-- A history of updates of the router is one of the registry. -/
theorem registry_history {ι : Type} (strategy : LoadBalancingStrategy)
    (order : List (ι × Update)) :
    (history F hashKey search strategy (order.map fun x => x.2.op)).registry =
      Registry.after order := by
  induction order using List.reverseRecOn with
  | nil => rfl
  | append_singleton order x ih =>
      rw [Registry.after_concat, ← ih, ← registry_apply F hashKey search, history, List.map_append,
        List.foldl_append]
      rfl

end World

end HarbrRouter.Routing
