import HarbrRouter.Routing.Concurrent
import HarbrRouter.Routing.Registry

/-!
# One order for all updates

`routing.rs`, concurrent `update_upstreams` and `update_upstream_health` calls on a router that
hashes. A health report finds its upstream in the list of one moment and writes the health at
another; in between the list may be replaced and other reports may be written.

**Theorem** (`updates_linearizable`): once all calls have returned, there is one order of all of
them, with a call before another whenever it had returned before the other came in (`Precedes`),
such that the sequential router has the same list, ring, configurations and healths after the calls
in this order.

The invariant is that the registry is the one after the updates made so far, in an order that
respects the real time, and that a report on its way has a place in it (`Linearized`). A new list
takes effect at once, at the end; a report that has found its upstream gets its place there and
then, in front of the list that may replace it, and keeps it, since what is inserted before it does
not change what is found (`Registry.after_insert_report`). So every step is one of two kinds, one
that makes an update (`Linearized.commit`) and one that does not (`Linearized.quiet`).
-/

set_option autoImplicit false

namespace HarbrRouter.Routing.Concurrent

open Transition TaskPool PointRing Linearization

/-! ## Calls, updates and real time -/

/-- The registry of the router. -/
def Shared.registry (sh : Shared) : Registry := .of sh.heap sh.upstreams

/-- The update that a call is; a selection is none. -/
def Call.update : Call → Option Update
  | .updateUpstreams configs now => some (.updateUpstreams configs now)
  | .updateUpstreamHealth name state now => some (.updateUpstreamHealth name state now)
  | .selectUpstream _ => none

/-- The update that a call has not made yet. -/
def Task.owes (sh : Shared) : Task → Option Update
  | .storeList configs now => some (.updateUpstreams configs now)
  | .findUpstream name state now => some (.updateUpstreamHealth name state now)
  | .storeHealth r state now => some (.updateUpstreamHealth (sh.heap.get r).config.name state now)
  | _ => none

/-- The calls of a run, as they came in. -/
def calls (es : List (Sched Event)) : List Call :=
  es.filterMap fun
    | .env (.call c) => some c
    | _ => none

/-- The update that the call with a number is. -/
def updateAt (es : List (Sched Event)) (i : ℕ) : Option Update := (calls es)[i]?.bind Call.update

/-- A step of a call brings no new call. -/
@[simp] theorem calls_concat_task (es : List (Sched Event)) (i : ℕ) :
    calls (es ++ [.task i .step]) = calls es := by
  simp [calls]

/-- A call that comes in is the last one. -/
@[simp] theorem calls_concat_call (es : List (Sched Event)) (c : Call) :
    calls (es ++ [.env (.call c)]) = calls es ++ [c] := by
  simp [calls]

/-- A step of a call changes no update. -/
@[simp] theorem updateAt_concat_task (es : List (Sched Event)) (i : ℕ) :
    updateAt (es ++ [.task i .step]) = updateAt es := by
  funext k
  rw [updateAt, calls_concat_task, updateAt]

/-- A call owes its update when it comes in. -/
theorem Call.owes_start (sh : Shared) (c : Call) : c.start.owes sh = c.update := by
  cases c <;> rfl

/-- Whoever has returned owes nothing. -/
theorem Task.owes_of_returned {t : Task} (h : t.returned = true) (sh : Shared) :
    t.owes sh = none := by
  cases t with
  | updated => rfl
  | selected answer => rfl
  | _ => exact absurd h (by simp [Task.returned])

/-- With the registry every configuration is as it was. -/
theorem Shared.config_of_registry {sh sh' : Shared} (h : sh'.registry = sh.registry)
    (r : UpstreamRef) : (sh'.heap.get r).config = (sh.heap.get r).config := by
  have hentry : (sh'.heap.get r).entry = (sh.heap.get r).entry := by
    rw [← Registry.entry_of sh'.upstreams, ← Registry.entry_of sh.upstreams]
    exact congrArg (fun reg : Registry => reg.entry r) h
  exact (Prod.mk.inj hentry).1

/-- Who owes no update leaves the registry alone. -/
theorem Task.registry_of_step {hashKey : String → U64} {search : BinarySearch U64}
    {tasks : List Task} {sh sh' : Shared} {t t' : Task}
    (h : t.step hashKey search tasks sh = some (sh', t')) (howes : t.owes sh = none) :
    sh'.registry = sh.registry ∧ t'.owes sh' = none := by
  cases t with
  | storeList configs now => exact absurd howes (by simp [Task.owes])
  | findUpstream name state now => exact absurd howes (by simp [Task.owes])
  | storeHealth r state now => exact absurd howes (by simp [Task.owes])
  | storeCheckTime r state now =>
      obtain ⟨rfl, rfl⟩ := Prod.mk.inj (Option.some.inj h)
      exact ⟨Registry.of_modify (f := fun u => { u with lastHealthCheck := now }) (fun _ => rfl)
        sh.heap r sh.upstreams, rfl⟩
  | countFailure r state =>
      obtain ⟨rfl, rfl⟩ := Prod.mk.inj (Option.some.inj h)
      refine ⟨Registry.of_modify (fun u => ?_) sh.heap r sh.upstreams, rfl⟩
      cases state <;> rfl
  | readList =>
      obtain ⟨rfl, rfl⟩ := Prod.mk.inj (Option.some.inj h)
      exact ⟨rfl, rfl⟩
  | lockRing =>
      simp only [Task.step] at h
      split_ifs at h
      obtain ⟨rfl, rfl⟩ := Prod.mk.inj (Option.some.inj h)
      exact ⟨rfl, rfl⟩
  | rebuilding idx =>
      simp only [Task.step] at h
      split at h
      all_goals
        obtain ⟨rfl, rfl⟩ := Prod.mk.inj (Option.some.inj h)
        exact ⟨rfl, rfl⟩
  | readSelection key =>
      simp only [Task.step] at h
      split_ifs at h
      all_goals
        obtain ⟨rfl, rfl⟩ := Prod.mk.inj (Option.some.inj h)
        exact ⟨rfl, rfl⟩
  | lookup key =>
      simp only [Task.step] at h
      split_ifs at h
      obtain ⟨rfl, rfl⟩ := Prod.mk.inj (Option.some.inj h)
      exact ⟨rfl, rfl⟩
  | updated => exact absurd h (by simp [Task.step])
  | selected answer => exact absurd h (by simp [Task.step])

section order

variable (hashKey : String → U64) (search : BinarySearch U64)

/-- The call `i` had returned before the call `j` came in. -/
def Precedes (es : List (Sched Event)) (i j : ℕ) : Prop :=
  ∃ n q t, (machine hashKey search).run initial (es.take n) = some q ∧ q.tasks[i]? = some t ∧
    t.returned = true ∧ q.tasks.length ≤ j

variable {hashKey search} {es : List (Sched Event)} {p p' : Pool Shared Task} {i j : ℕ}

/-- A step of a run decides nothing about the calls that have come in. -/
theorem Precedes.of_concat {e : Sched Event}
    (hrun : (machine hashKey search).run initial (es ++ [e]) = some p') (hj : j < p'.tasks.length)
    (h : Precedes hashKey search (es ++ [e]) i j) : Precedes hashKey search es i j := by
  obtain ⟨n, q, t, hq, ht, hreturned, hlen⟩ := h
  rcases Nat.lt_or_ge es.length n with hn | hn
  · have hall : (es ++ [e]).length ≤ n := by
      rw [List.length_append, List.length_singleton]
      exact hn
    rw [List.take_of_length_le hall] at hq
    obtain rfl : q = p' := Option.some.inj (hq.symm.trans hrun)
    exact absurd hj (not_lt.mpr hlen)
  · rw [List.take_append_of_le_length hn] at hq
    exact ⟨n, q, t, hq, ht, hreturned, hlen⟩

/-- A step of a call decides nothing about the calls that have come in. -/
theorem Precedes.of_task {k : ℕ} {sh : Shared} {tasks : List Task} {t' : Task}
    (h : Precedes hashKey search (es ++ [.task k .step]) i j)
    (hrun : (machine hashKey search).run initial (es ++ [.task k .step]) =
      some ⟨sh, tasks.set k t'⟩) (hj : j < tasks.length) : Precedes hashKey search es i j :=
  h.of_concat hrun (by rwa [List.length_set])

/-- A call that has returned stays as it is. -/
theorem returned_of_step {t : Task} {a : Sched Event} (h : p.tasks[i]? = some t)
    (hreturned : t.returned = true) (hstep : (machine hashKey search).step p a = some p') :
    p'.tasks[i]? = some t := by
  rcases machine_step hstep with ⟨k, t₀, sh, t', rfl, ht₀, hmove, rfl⟩ | ⟨c, rfl, rfl⟩
  · have hne : k ≠ i := by
      rintro rfl
      obtain rfl : t = t₀ := Option.some.inj (h.symm.trans ht₀)
      cases t with
      | updated => exact absurd hmove (by simp [Task.step])
      | selected answer => exact absurd hmove (by simp [Task.step])
      | _ => exact absurd hreturned (by simp [Task.returned])
    rw [List.append_nil, List.getElem?_set_ne hne, h]
  · exact getElem?_append_of_some h _

/-- Whoever precedes another has returned. -/
theorem Precedes.returned (hrun : (machine hashKey search).run initial es = some p)
    (h : Precedes hashKey search es i j) : ∃ t, p.tasks[i]? = some t ∧ t.returned = true := by
  obtain ⟨n, q, t, hq, ht, hreturned, -⟩ := h
  rw [← List.take_append_drop n es] at hrun
  obtain ⟨q', hq', hrest⟩ := (machine hashKey search).run_append_eq_some.mp hrun
  obtain rfl : q = q' := Option.some.inj (hq.symm.trans hq')
  exact ⟨t, (machine hashKey search).run_preserves (I := fun s => s.tasks[i]? = some t)
    (fun s a s' hs hstep => returned_of_step hs hreturned hstep) ht hrest, hreturned⟩

/-- Who owes an update precedes nobody. -/
theorem not_precedes_of_owes {t : Task} {u : Update}
    (hrun : (machine hashKey search).run initial es = some p) (ht : p.tasks[i]? = some t)
    (howes : t.owes p.shared = some u) : ¬ Precedes hashKey search es i j := by
  intro h
  obtain ⟨t₀, ht₀, hreturned⟩ := h.returned hrun
  obtain rfl : t = t₀ := Option.some.inj (ht.symm.trans ht₀)
  rw [Task.owes_of_returned hreturned] at howes
  exact absurd howes (by simp)

/-! ## The order of the updates made so far -/

/-- A report that has found its upstream has a place in the order, with nobody after it who had
returned before it came in. -/
def Waits (hashKey : String → U64) (search : BinarySearch U64) (es : List (Sched Event))
    (order : List (ℕ × Update)) (name : String) (r : UpstreamRef) (i : ℕ) : Prop :=
  ∃ before rest, order = before ++ rest ∧ Registry.Placed name r before rest ∧
    ∀ y ∈ rest, ¬ Precedes hashKey search es y.1 i

/-- A report keeps its place while nobody precedes it who did not before. -/
theorem Waits.mono {es' : List (Sched Event)} {order : List (ℕ × Update)} {name : String}
    {r : UpstreamRef} (h : Waits hashKey search es order name r i)
    (hle : ∀ j, Precedes hashKey search es' j i → Precedes hashKey search es j i) :
    Waits hashKey search es' order name r i := by
  obtain ⟨before, rest, horder, hplaced, hrest⟩ := h
  exact ⟨before, rest, horder, hplaced, fun y hy hprec => hrest y hy (hle y.1 hprec)⟩

/-- The order has the updates that the calls have made so far, each once; it explains the registry
and respects the real time. -/
structure Linearized (hashKey : String → U64) (search : BinarySearch U64) (es : List (Sched Event))
    (p : Pool Shared Task) (order : List (ℕ × Update)) : Prop where
  registry : p.shared.registry = Registry.after order
  nodup : order.Nodup
  length : p.tasks.length = (calls es).length
  owed : ∀ i t u, p.tasks[i]? = some t → t.owes p.shared = some u → updateAt es i = some u
  mem_iff : ∀ i u, (i, u) ∈ order ↔ updateAt es i = some u ∧
    ∃ t, p.tasks[i]? = some t ∧ t.owes p.shared = none
  waits : ∀ i r state now, p.tasks[i]? = some (.storeHealth r state now) →
    Waits hashKey search es order (p.shared.heap.get r).config.name r i
  respects : Respects (fun x y => Precedes hashKey search es x.1 y.1) order

namespace Linearized

variable {order before rest : List (ℕ × Update)} {sh : Shared} {t t' : Task} {u : Update}

/-- The upstream of a report that waits is in the heap. -/
theorem lt_of_waits (h : Linearized hashKey search es p order) {name : String} {r : UpstreamRef}
    (hwaits : Waits hashKey search es order name r i) : r < p.shared.heap.cells.length := by
  obtain ⟨before, rest, rfl, hplaced, -⟩ := hwaits
  have hlt := hplaced.lt rest
  rw [← h.registry] at hlt
  simpa [Shared.registry, Registry.of] using hlt

/-- Whoever does not move owes what it owed, when no upstream gets another configuration. -/
theorem owes_congr (h : Linearized hashKey search es p order) (ht : p.tasks[i]? = some t)
    (hconfig : ∀ r < p.shared.heap.cells.length,
      (sh.heap.get r).config = (p.shared.heap.get r).config) : t.owes sh = t.owes p.shared := by
  cases t with
  | storeHealth r state now =>
      rw [Task.owes, Task.owes, hconfig r (h.lt_of_waits (h.waits i r state now ht))]
  | _ => rfl

/-- Only calls that have made their updates are in the order. -/
theorem not_mem_of_owes (h : Linearized hashKey search es p order) (ht : p.tasks[i]? = some t)
    (howes : t.owes p.shared = some u) (v : Update) : (i, v) ∉ order := by
  intro hmem
  obtain ⟨-, t₀, ht₀, hnone⟩ := (h.mem_iff i v).mp hmem
  obtain rfl : t = t₀ := Option.some.inj (ht.symm.trans ht₀)
  rw [hnone] at howes
  exact absurd howes (by simp)

/-- The calls of the order have come in. -/
theorem lt_of_mem (h : Linearized hashKey search es p order) {x : ℕ × Update} (hx : x ∈ order) :
    x.1 < p.tasks.length := by
  obtain ⟨-, t, ht, -⟩ := (h.mem_iff x.1 x.2).mp hx
  exact (List.getElem?_eq_some_iff.mp ht).1

/-- A step brings no call that owes an update it did not come in with. -/
theorem owed_of_set (h : Linearized hashKey search es p order) (ht : p.tasks[i]? = some t)
    (hconfig : ∀ r < p.shared.heap.cells.length,
      (sh.heap.get r).config = (p.shared.heap.get r).config)
    (howes : ∀ v, t'.owes sh = some v → t.owes p.shared = some v) :
    ∀ k t₁ v, (p.tasks.set i t')[k]? = some t₁ → t₁.owes sh = some v → updateAt es k = some v := by
  intro k t₁ v hk hv
  rcases getElem?_set_cases hk with ⟨rfl, rfl⟩ | ⟨-, hk⟩
  · exact h.owed k t v ht (howes v hv)
  · rw [h.owes_congr hk hconfig] at hv
    exact h.owed k t₁ v hk hv

/-- After a step that makes an update, the order with it has just the updates that were made. -/
theorem mem_iff_of_commit (h : Linearized hashKey search es p order) (ht : p.tasks[i]? = some t)
    (howes : t.owes p.shared = some u) (howes' : t'.owes sh = none)
    (hconfig : ∀ r < p.shared.heap.cells.length,
      (sh.heap.get r).config = (p.shared.heap.get r).config) (k : ℕ) (v : Update) :
    (k, v) = (i, u) ∨ (k, v) ∈ order ↔ updateAt es k = some v ∧
      ∃ t₁, (p.tasks.set i t')[k]? = some t₁ ∧ t₁.owes sh = none := by
  constructor
  · rintro (heq | hold)
    · obtain ⟨rfl, rfl⟩ := Prod.mk.inj heq
      have hlt := (List.getElem?_eq_some_iff.mp ht).1
      exact ⟨h.owed k t v ht howes, t', List.getElem?_set_self hlt, howes'⟩
    · obtain ⟨hv, t₁, ht₁, hnone⟩ := (h.mem_iff k v).mp hold
      have hne : i ≠ k := by
        rintro rfl
        exact h.not_mem_of_owes ht howes v hold
      refine ⟨hv, t₁, ?_, (h.owes_congr ht₁ hconfig).trans hnone⟩
      rw [List.getElem?_set_ne hne, ht₁]
  · rintro ⟨hv, t₁, hk, hnone⟩
    rcases getElem?_set_cases hk with ⟨rfl, rfl⟩ | ⟨-, hk⟩
    · rw [h.owed k t u ht howes] at hv
      exact Or.inl (by rw [Option.some.inj hv])
    · rw [h.owes_congr hk hconfig] at hnone
      exact Or.inr ((h.mem_iff k v).mpr ⟨hv, t₁, hk, hnone⟩)

/-- **A step that makes an update.** It takes its place in the order, where nobody after it had
returned before it came in. -/
theorem commit (h : Linearized hashKey search es p order)
    (hrun : (machine hashKey search).run initial es = some p)
    (hrun' : (machine hashKey search).run initial (es ++ [.task i .step]) =
      some ⟨sh, p.tasks.set i t'⟩)
    (ht : p.tasks[i]? = some t) (howes : t.owes p.shared = some u) (howes' : t'.owes sh = none)
    (hconfig : ∀ r < p.shared.heap.cells.length,
      (sh.heap.get r).config = (p.shared.heap.get r).config)
    (horder : order = before ++ rest) (hrest : ∀ y ∈ rest, ¬ Precedes hashKey search es y.1 i)
    (hregistry : sh.registry = Registry.after (before ++ (i, u) :: rest))
    (hshift : ∀ {name : String} {r : UpstreamRef} {left right : List (ℕ × Update)},
      left ++ right = order → Registry.Placed name r left right →
      ∃ left' right', before ++ (i, u) :: rest = left' ++ right' ∧
        Registry.Placed name r left' right' ∧ ∀ y ∈ right', y = (i, u) ∨ y ∈ right) :
    Linearized hashKey search (es ++ [.task i .step]) ⟨sh, p.tasks.set i t'⟩
      (before ++ (i, u) :: rest) := by
  have hmem : ∀ x, x ∈ before ++ (i, u) :: rest ↔ x = (i, u) ∨ x ∈ order := by
    intro x
    rw [horder, List.mem_append, List.mem_cons, List.mem_append]
    tauto
  have hfirst : ∀ l, ¬ Precedes hashKey search es i l := fun l =>
    not_precedes_of_owes hrun ht howes
  have hlt : i < p.tasks.length := (List.getElem?_eq_some_iff.mp ht).1
  refine ⟨hregistry, ?_, ?_, ?_, ?_, ?_, ?_⟩
  · rw [List.nodup_middle, ← horder]
    exact List.nodup_cons.mpr ⟨h.not_mem_of_owes ht howes u, h.nodup⟩
  · rw [List.length_set, calls_concat_task, h.length]
  · rw [updateAt_concat_task]
    exact h.owed_of_set ht hconfig fun v hv => absurd (howes'.symm.trans hv) (by simp)
  · intro k v
    rw [hmem, updateAt_concat_task]
    exact h.mem_iff_of_commit ht howes howes' hconfig k v
  · intro k r state now hk
    rcases getElem?_set_cases hk with ⟨rfl, rfl⟩ | ⟨-, hk⟩
    · exact absurd howes' (by simp [Task.owes])
    · have hwaits := h.waits k r state now hk
      rw [hconfig r (h.lt_of_waits hwaits)]
      obtain ⟨left, right, hsplit, hplaced, hright⟩ := hwaits
      obtain ⟨left', right', hsplit', hplaced', hright'⟩ := hshift hsplit.symm hplaced
      refine ⟨left', right', hsplit', hplaced', fun y hy hprec => ?_⟩
      have hprec := hprec.of_task hrun' (List.getElem?_eq_some_iff.mp hk).1
      rcases hright' y hy with rfl | hold
      · exact hfirst k hprec
      · exact hright y hold hprec
  · have hold := h.respects
    rw [horder] at hold
    have hinsert := hold.insert (x := (i, u)) (fun a _ => hfirst a.1) hrest
    refine hinsert.mono fun a _ b hb hprec => hprec.of_task hrun' ?_
    rcases (hmem b).mp hb with rfl | hb
    · exact hlt
    · exact h.lt_of_mem hb

/-- **A step that makes no update** and leaves the registry alone. A report that finds its upstream
there has its place at the end. -/
theorem quiet (h : Linearized hashKey search es p order)
    (hrun' : (machine hashKey search).run initial (es ++ [.task i .step]) =
      some ⟨sh, p.tasks.set i t'⟩)
    (ht : p.tasks[i]? = some t) (howes : t'.owes sh = t.owes p.shared)
    (hconfig : ∀ r < p.shared.heap.cells.length,
      (sh.heap.get r).config = (p.shared.heap.get r).config)
    (hregistry : sh.registry = p.shared.registry)
    (hfinds : ∀ r state now, t' = .storeHealth r state now →
      p.shared.registry.find (sh.heap.get r).config.name = some r) :
    Linearized hashKey search (es ++ [.task i .step]) ⟨sh, p.tasks.set i t'⟩ order := by
  have hlt : i < p.tasks.length := (List.getElem?_eq_some_iff.mp ht).1
  refine ⟨hregistry.trans h.registry, h.nodup, ?_, ?_, ?_, ?_, ?_⟩
  · rw [List.length_set, calls_concat_task, h.length]
  · rw [updateAt_concat_task]
    exact h.owed_of_set ht hconfig fun v hv => howes.symm.trans hv
  · intro k v
    rw [h.mem_iff, updateAt_concat_task]
    refine and_congr_right fun _ => ⟨?_, ?_⟩
    · rintro ⟨t₁, ht₁, hnone⟩
      by_cases hki : i = k
      · subst hki
        obtain rfl : t = t₁ := Option.some.inj (ht.symm.trans ht₁)
        exact ⟨t', List.getElem?_set_self hlt, howes.trans hnone⟩
      · refine ⟨t₁, ?_, (h.owes_congr ht₁ hconfig).trans hnone⟩
        rw [List.getElem?_set_ne hki, ht₁]
    · rintro ⟨t₁, hk, hnone⟩
      rcases getElem?_set_cases hk with ⟨rfl, rfl⟩ | ⟨-, hk⟩
      · exact ⟨t, ht, howes.symm.trans hnone⟩
      · exact ⟨t₁, hk, (h.owes_congr hk hconfig).symm.trans hnone⟩
  · intro k r state now hk
    rcases getElem?_set_cases hk with ⟨rfl, rfl⟩ | ⟨-, hk⟩
    · have hfound := hfinds r state now rfl
      rw [h.registry] at hfound
      refine ⟨order, [], by simp, ⟨hfound, fun ys hne hys => ?_⟩, by simp⟩
      exact absurd (List.prefix_nil.mp hys) hne
    · have hwaits := h.waits k r state now hk
      rw [hconfig r (h.lt_of_waits hwaits)]
      exact hwaits.mono fun j hprec => hprec.of_task hrun' (List.getElem?_eq_some_iff.mp hk).1
  · exact h.respects.mono fun a _ b hb hprec => hprec.of_task hrun' (h.lt_of_mem hb)

/-- **A call that comes in** owes its update. -/
theorem call (h : Linearized hashKey search es p order) (c : Call)
    (hrun' : (machine hashKey search).run initial (es ++ [.env (.call c)]) =
      some ⟨p.shared, p.tasks ++ [c.start]⟩) :
    Linearized hashKey search (es ++ [.env (.call c)]) ⟨p.shared, p.tasks ++ [c.start]⟩ order := by
  have hearlier : ∀ {k l : ℕ}, l < p.tasks.length →
      Precedes hashKey search (es ++ [.env (.call c)]) k l → Precedes hashKey search es k l := by
    intro k l hl
    refine Precedes.of_concat hrun' ?_
    rw [List.length_append]
    exact Nat.lt_add_right _ hl
  have hold : ∀ k < p.tasks.length,
      updateAt (es ++ [.env (.call c)]) k = updateAt es k := by
    intro k hk
    rw [updateAt, calls_concat_call, List.getElem?_append_left (h.length ▸ hk), updateAt]
  have hnew : updateAt (es ++ [.env (.call c)]) p.tasks.length = c.update := by
    rw [updateAt, calls_concat_call, h.length, List.getElem?_concat_length, Option.bind_some]
  refine ⟨h.registry, h.nodup, ?_, ?_, ?_, ?_, ?_⟩
  · rw [List.length_append, calls_concat_call, List.length_append, h.length]
    rfl
  · intro k t₁ v hk hv
    rcases getElem?_concat_cases hk with hk | ⟨rfl, rfl⟩
    · rw [hold k (List.getElem?_eq_some_iff.mp hk).1]
      exact h.owed k t₁ v hk hv
    · rw [hnew, ← Call.owes_start p.shared, hv]
  · intro k v
    rw [h.mem_iff]
    constructor
    · rintro ⟨hv, t₁, hk, hnone⟩
      have hlt := (List.getElem?_eq_some_iff.mp hk).1
      exact ⟨(hold k hlt).trans hv, t₁, getElem?_append_of_some hk _, hnone⟩
    · rintro ⟨hv, t₁, hk, hnone⟩
      rcases getElem?_concat_cases hk with hk | ⟨rfl, rfl⟩
      · have hlt := (List.getElem?_eq_some_iff.mp hk).1
        exact ⟨(hold k hlt).symm.trans hv, t₁, hk, hnone⟩
      · rw [hnew, ← Call.owes_start p.shared, hnone] at hv
        exact absurd hv (by simp)
  · intro k r state now hk
    rcases getElem?_concat_cases hk with hk | ⟨rfl, heq⟩
    · have hlt := (List.getElem?_eq_some_iff.mp hk).1
      exact (h.waits k r state now hk).mono fun j => hearlier hlt
    · cases c <;> exact absurd heq (by simp [Call.start])
  · exact h.respects.mono fun a _ b hb => hearlier (h.lt_of_mem hb)

/-- The list is replaced at once, at the end of the order. -/
theorem storeList (h : Linearized hashKey search es p order)
    (hrun : (machine hashKey search).run initial es = some p) {configs : List UpstreamConfig}
    {now : ℕ} (ht : p.tasks[i]? = some (.storeList configs now))
    (hmove : (Task.storeList configs now).step hashKey search p.tasks p.shared = some (sh, t'))
    (hrun' : (machine hashKey search).run initial (es ++ [.task i .step]) =
      some ⟨sh, p.tasks.set i t'⟩) :
    ∃ order', Linearized hashKey search (es ++ [.task i .step]) ⟨sh, p.tasks.set i t'⟩ order' := by
  simp only [Task.step] at hmove
  split_ifs at hmove
  obtain ⟨rfl, rfl⟩ := Prod.mk.inj (Option.some.inj hmove)
  refine ⟨_, h.commit hrun hrun' ht rfl rfl (fun r hr => congrArg _ (Heap.get_alloc hr))
    (List.append_nil order).symm (by simp) ?_ ?_⟩
  · rw [Registry.after_concat, ← h.registry]
    exact Registry.of_alloc p.shared.heap p.shared.upstreams configs now
  · intro name r left right hsplit hplaced
    refine ⟨left, right ++ [(i, .updateUpstreams configs now)], ?_,
      hplaced.replace i configs now, fun y hy => ?_⟩
    · rw [← List.append_assoc, hsplit]
    · rcases List.mem_append.mp hy with hy | hy
      · exact Or.inr hy
      · exact Or.inl (List.mem_singleton.mp hy)

/-- A report that finds no upstream takes effect at once; one that finds an upstream waits. -/
theorem findUpstream (h : Linearized hashKey search es p order)
    (hrun : (machine hashKey search).run initial es = some p) {name : String}
    {state : HealthState} {now : ℕ} (ht : p.tasks[i]? = some (.findUpstream name state now))
    (hmove : (Task.findUpstream name state now).step hashKey search p.tasks p.shared =
      some (sh, t'))
    (hrun' : (machine hashKey search).run initial (es ++ [.task i .step]) =
      some ⟨sh, p.tasks.set i t'⟩) :
    ∃ order', Linearized hashKey search (es ++ [.task i .step]) ⟨sh, p.tasks.set i t'⟩ order' := by
  have hfind : p.shared.registry.find name =
      p.shared.upstreams.find? fun r => (p.shared.heap.get r).config.name = name :=
    Registry.find_of name
  simp only [Task.step] at hmove
  split at hmove
  · next r hr =>
      obtain ⟨rfl, rfl⟩ := Prod.mk.inj (Option.some.inj hmove)
      have hname : (p.shared.heap.get r).config.name = name := by simpa using List.find?_some hr
      refine ⟨order, h.quiet hrun' ht ?_ (fun _ _ => rfl) rfl ?_⟩
      · rw [Task.owes, Task.owes, hname]
      · intro r' state' now' heq
        obtain ⟨rfl, rfl, rfl⟩ := Task.storeHealth.inj heq
        rw [hname, hfind, hr]
  · next hr =>
      obtain ⟨rfl, rfl⟩ := Prod.mk.inj (Option.some.inj hmove)
      have hnone : (Registry.after order).find name = none := by rw [← h.registry, hfind, hr]
      refine ⟨_, h.commit hrun hrun' ht rfl rfl (fun _ _ => rfl) (List.append_nil order).symm
        (by simp) ?_ fun hsplit hplaced => hplaced.shift (hsplit.trans (List.append_nil order).symm)
          (Registry.silent_at_end order i name state now)⟩
      rw [Registry.after_concat, Registry.apply_report_of_none state now hnone]
      exact h.registry

/-- A report that was waiting takes effect at its place. -/
theorem storeHealth (h : Linearized hashKey search es p order)
    (hrun : (machine hashKey search).run initial es = some p) {r : UpstreamRef}
    {state : HealthState} {now : ℕ} (ht : p.tasks[i]? = some (.storeHealth r state now))
    (hmove : (Task.storeHealth r state now).step hashKey search p.tasks p.shared =
      some (sh, t'))
    (hrun' : (machine hashKey search).run initial (es ++ [.task i .step]) =
      some ⟨sh, p.tasks.set i t'⟩) :
    ∃ order', Linearized hashKey search (es ++ [.task i .step]) ⟨sh, p.tasks.set i t'⟩ order' := by
  obtain ⟨rfl, rfl⟩ := Prod.mk.inj (Option.some.inj hmove)
  obtain ⟨before, rest, rfl, hplaced, hrest⟩ := h.waits i r state now ht
  refine ⟨_, h.commit hrun hrun' ht rfl rfl (fun r' _ => ?_) rfl hrest ?_
    fun hsplit hother => hother.shift hsplit (hplaced.silent i state now)⟩
  · exact Heap.get_modify_proj UpstreamInfo.config (f := fun u => { u with healthState := state })
      (fun _ => rfl) p.shared.heap r r'
  · rw [Registry.after_insert_report hplaced i state now, ← h.registry]
    exact Registry.of_setHealth (fun _ => rfl) _ r _

/-- **Every step keeps the updates linearized.** -/
theorem step {a : Sched Event} (h : Linearized hashKey search es p order)
    (hrun : (machine hashKey search).run initial es = some p)
    (hstep : (machine hashKey search).step p a = some p') :
    ∃ order', Linearized hashKey search (es ++ [a]) p' order' := by
  have hrun' : (machine hashKey search).run initial (es ++ [a]) = some p' :=
    (machine hashKey search).run_append_eq_some.mpr ⟨p, hrun, by simpa using hstep⟩
  rcases machine_step hstep with ⟨i, t, sh, t', rfl, ht, hmove, rfl⟩ | ⟨c, rfl, rfl⟩
  · rw [List.append_nil] at hrun' ⊢
    by_cases howes : t.owes p.shared = none
    · obtain ⟨hregistry, howes'⟩ := Task.registry_of_step hmove howes
      refine ⟨order, h.quiet hrun' ht (howes'.trans howes.symm)
        (fun r _ => Shared.config_of_registry hregistry r) hregistry ?_⟩
      rintro r state now rfl
      exact absurd howes' (by simp [Task.owes])
    · cases t with
      | storeList configs now => exact h.storeList hrun ht hmove hrun'
      | findUpstream name state now => exact h.findUpstream hrun ht hmove hrun'
      | storeHealth r state now => exact h.storeHealth hrun ht hmove hrun'
      | _ => exact absurd rfl howes
  · exact ⟨order, h.call c hrun'⟩

end Linearized

/-- In every state that a run reaches, the updates made so far are linearized. -/
theorem linearized_of_run (hrun : (machine hashKey search).run initial es = some p) :
    ∃ order, Linearized hashKey search es p order := by
  have hboth : (machine hashKey search).run initial es = some p ∧
      ∃ order, Linearized hashKey search es p order := by
    refine (machine hashKey search).run_induction (Q := fun es q =>
      (machine hashKey search).run initial es = some q ∧
        ∃ order, Linearized hashKey search es q order) ?_ ?_ hrun
    · refine ⟨rfl, [], rfl, List.nodup_nil, rfl, by simp [initial], ?_, by simp [initial],
        List.Pairwise.nil⟩
      simp [initial]
    · rintro es a q q' hq ⟨-, order, h⟩ hstep
      exact ⟨(machine hashKey search).run_append_eq_some.mpr ⟨q, hq, by simpa using hstep⟩,
        h.step hq hstep⟩
  exact hboth.2

/-- **Concurrent updates are linearizable.** When all calls have returned, there is one order of all
calls of `update_upstreams` and `update_upstream_health`, each exactly once and none after a call
that came in when it had returned, such that the router has the list and the ring, and every
upstream the configuration and the health, that the sequential router has after the calls in this
order. -/
theorem updates_linearizable (F : Type) [ScoreArith F]
    (hrun : (machine hashKey search).run initial es = some p)
    (hreturned : ∀ t ∈ p.tasks, t.returned = true) :
    ∃ order : List (ℕ × Update), order.Nodup ∧ (∀ i u, (i, u) ∈ order ↔ updateAt es i = some u) ∧
      Respects (fun x y => Precedes hashKey search es x.1 y.1) order ∧
      let w := World.history F hashKey search .consistentHashing (order.map fun x => x.2.op)
      p.shared.upstreams = w.router.upstreams ∧ p.shared.hashRing = w.router.hashRing ∧
        ∀ r, (p.shared.heap.get r).config = (w.heap.get r).config ∧
          (p.shared.heap.get r).healthState = (w.heap.get r).healthState := by
  obtain ⟨order, h⟩ := linearized_of_run hrun
  refine ⟨order, h.nodup, fun i u => ?_, h.respects, ?_⟩
  · rw [h.mem_iff]
    refine ⟨fun hmem => hmem.1, fun hu => ⟨hu, ?_⟩⟩
    have hlt : i < p.tasks.length := by
      rw [h.length]
      obtain ⟨c, hc, -⟩ := Option.bind_eq_some_iff.mp hu
      exact (List.getElem?_eq_some_iff.mp hc).1
    exact ⟨p.tasks[i], List.getElem?_eq_getElem hlt,
      Task.owes_of_returned (hreturned _ (List.getElem_mem hlt)) _⟩
  · intro w
    have hregistry : Registry.of p.shared.heap p.shared.upstreams =
        Registry.of w.heap w.router.upstreams :=
      h.registry.trans (World.registry_history F hashKey search .consistentHashing order).symm
    have hstrategy : w.router.strategy = .consistentHashing :=
      World.history_strategy F hashKey search .consistentHashing _
    refine ⟨congrArg Registry.upstreams hregistry, ?_, fun r => ?_⟩
    · rw [ring_eq_update_of_returned hrun hreturned,
        World.history_inSync F hashKey search .consistentHashing _ hstrategy]
      exact Registry.update_eq_of_registry hashKey hregistry 150
    · have hentry : (p.shared.heap.get r).entry = (w.heap.get r).entry := by
        rw [← Registry.entry_of p.shared.upstreams, hregistry, Registry.entry_of]
      exact Prod.mk.inj hentry

end order

/-- A report finds its upstream, the list is replaced and both rebuilds end, and only then is the
health written. -/
def lateReport : List (Sched Event) :=
  .env (.call (.updateUpstreams [upstreamA] 0)) :: List.replicate 5 (.task 0 .step) ++
    [.env (.call (.updateUpstreamHealth "a" .unhealthy 1)), .task 1 .step,
      .env (.call (.updateUpstreams [upstreamA] 2))] ++ List.replicate 5 (.task 2 .step) ++
    List.replicate 7 (.task 1 .step)

/-- The report that was late had found the upstream that the second list replaced. -/
theorem updates_linearizable_lateReport :
    ∃ p, (machine (fun _ => 0) (BinarySearch.linear U64)).run initial lateReport = some p ∧
      p.tasks.length = 3 ∧ ∃ order : List (ℕ × Update),
        (∀ i u, (i, u) ∈ order ↔ updateAt lateReport i = some u) ∧
        p.shared.hashRing = (World.history ℚ (fun _ => 0) (BinarySearch.linear U64)
          .consistentHashing (order.map fun x => x.2.op)).router.hashRing := by
  have hend : ((machine (fun _ => 0) (BinarySearch.linear U64)).run initial lateReport).map
      Pool.tasks = some [.updated, .updated, .updated] := by decide +kernel
  obtain ⟨p, hp, htasks⟩ := Option.map_eq_some_iff.mp hend
  have hreturned : ∀ t ∈ p.tasks, t.returned = true := by
    intro t ht
    rw [htasks] at ht
    revert t
    decide
  obtain ⟨order, -, hmem, -, hworld⟩ := updates_linearizable ℚ hp hreturned
  exact ⟨p, hp, by rw [htasks]; rfl, order, hmem, hworld.2.1⟩

end HarbrRouter.Routing.Concurrent
