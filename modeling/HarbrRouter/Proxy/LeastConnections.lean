import HarbrRouter.Proxy.TcpConnection

/-!
# The balance of least connections

`Router::select_least_connections` reads `active_connections`, and a handler increments it only when
its connection to the upstream stands. Between the two, other handlers select by the same numbers.

**Theorem** (`leastConnections_balanced`): with at most `k` other handlers between selection and
increment at each selection, the active connections of two upstreams differ by at most `k + 1` once
all handlers are streaming.

The load of an upstream is its active connections with the selections of it that are not counted
yet. `Balanced` says that no load is ahead of another one by more than the overlap and one, unless a
connection is over. A step that moves no load keeps that (`Balanced.of_same`), and a selection
raises the load of an upstream that was behind every other one up to the overlap
(`load_le_of_select`, `Balanced.of_select`), as it has the fewest active connections. When all
handlers are streaming the overlap is none, and the loads are the active connections.
-/

set_option autoImplicit false

namespace HarbrRouter.Proxy.Tcp.Connection

open Transition TaskPool PointRing Routing

/-! ## Selecting the least -/

section select

variable {F : Type} [ScoreArith F] {hashKey : String → U64} {search : BinarySearch U64}
variable {router : Router} {heap : Heap} {sessionKey : Option String} {u : UpstreamRef}

/-- The answer of least connections has no more active connections than any available upstream. -/
theorem le_of_selectUpstream (hstrategy : router.strategy = .leastConnections)
    (h : (router.selectUpstream F hashKey search heap sessionKey).2 = some u) {v : UpstreamRef}
    (hv : v ∈ router.upstreams) (havailable : heap.isAvailable v = true) :
    (heap.get u).stats.activeConnections ≤ (heap.get v).stats.activeConnections := by
  unfold Router.selectUpstream at h
  split_ifs at h
  rw [hstrategy] at h
  have hmem : v ∈ router.upstreams.filter heap.isAvailable := List.mem_filter.mpr ⟨hv, havailable⟩
  exact List.le_of_mem_argmin (f := fun r => (heap.get r).stats.activeConnections) hmem h

end select

/-! ## Overlap and load -/

/-- Is the upstream selected and the connection not counted yet? -/
def Phase.isChosen : Phase → Bool
  | .chosen _ => true
  | _ => false

/-- The number of handlers of an instance between their selection and their increment. -/
def overlap (inst : ℕ) (ts : List Handler) : ℕ :=
  ts.countP fun t => decide (t.inst = inst) && t.pc.phase.isChosen

/-- When a handler of the instance selects, at most `k` others are between selection and increment.
-/
def OverlapAtMost (inst k : ℕ) (p : Pool ProxyState Handler) : Sched Event → Prop
  | .task i _ => ∀ t, p.tasks[i]? = some t → t.inst = inst → t.pc = .selecting →
      overlap inst p.tasks ≤ k
  | .env _ => True

/-- The number of handlers that have selected the upstream and are not over. -/
def load (u : UpstreamRef) (ts : List Handler) : ℕ :=
  inPhase (.chosen u) ts + inPhase (.counted u) ts

/-- What a handler in a phase adds to the load of an upstream. -/
def Phase.onto (u : UpstreamRef) (φ : Phase) : ℕ :=
  if φ = .chosen u ∨ φ = .counted u then 1 else 0

/-- The load changes by the handler that moves. -/
theorem load_set (u : UpstreamRef) {ts : List Handler} {i : ℕ} {t : Handler} (ht : ts[i]? = some t)
    (t' : Handler) :
    load u (ts.set i t') + t.pc.phase.onto u = load u ts + t'.pc.phase.onto u := by
  have hsplit : ∀ φ : Phase, φ.onto u =
      (if φ = .chosen u then 1 else 0) + if φ = .counted u then 1 else 0 := by
    intro φ
    unfold Phase.onto
    cases φ <;> simp
  have hchosen := inPhase_set (.chosen u) ht t'
  have hcounted := inPhase_set (.counted u) ht t'
  unfold load
  rw [hsplit, hsplit]
  omega

/-! ## Own upstreams -/

/-- An instance whose upstreams are its own, available and with equally many active connections at
the start. An instance has its upstreams for itself because `update_upstreams` allocates them. -/
structure EqualStart (heap : Heap) (routers : ℕ → Router) (inst start : ℕ) : Prop where
  strategy : (routers inst).strategy = .leastConnections
  inHeap : ∀ u ∈ (routers inst).upstreams, u < heap.cells.length
  available : ∀ u ∈ (routers inst).upstreams, heap.isAvailable u = true
  active : ∀ u ∈ (routers inst).upstreams, (heap.get u).stats.activeConnections = start
  own : ∀ j, j ≠ inst → ∀ u ∈ (routers j).upstreams, u ∉ (routers inst).upstreams

section run

variable {F : Type} [ScoreArith F] {D : Deployment} {heap : Heap} {routers : ℕ → Router}
variable {es : List (Sched Event)} {p : Pool ProxyState Handler} {inst start k : ℕ}

/-- A step keeps the list and the strategy of every router. -/
theorem Effect.keeps_router {sh sh' : ProxyState} {t t' : Handler} (h : Effect F D sh sh' t t')
    (j : ℕ) :
    (sh'.routers j).upstreams = (sh.routers j).upstreams ∧
      (sh'.routers j).strategy = (sh.routers j).strategy := by
  cases h with
  | quiet _ hrouters => rw [hrouters]; exact ⟨rfl, rfl⟩
  | @select answer hpc hanswer hheap hrouters =>
      rw [hrouters]
      exact Router.update_selected_keeps hanswer j
  | fail _ _ hrouters => rw [hrouters]; exact ⟨rfl, rfl⟩
  | increment _ hstate | decrement _ hstate => rw [hstate]; exact ⟨rfl, rfl⟩
  | record _ hstate => rw [hstate]; exact ⟨rfl, rfl⟩

/-- A step keeps the health of every upstream. -/
theorem Effect.isAvailable {sh sh' : ProxyState} {t t' : Handler} (h : Effect F D sh sh' t t')
    (u : UpstreamRef) : sh'.heap.isAvailable u = sh.heap.isAvailable u := by
  have hstats : ∀ v g, (sh.modifyStats v g).heap.isAvailable u = sh.heap.isAvailable u := by
    intro v g
    exact Heap.get_modify_proj UpstreamInfo.isAvailable
      (f := fun info => { info with stats := g info.stats }) (fun _ => rfl) sh.heap v u
  cases h with
  | quiet hheap | fail _ hheap => rw [Heap.isAvailable, hheap, Heap.isAvailable]
  | select _ _ hheap => rw [Heap.isAvailable, hheap, Heap.isAvailable]
  | increment _ hstate | decrement _ hstate => rw [hstate, hstats]
  | record _ hstate => rw [hstate, hstats]

/-- Routers keep their lists and strategies, and upstreams their health. -/
theorem same_of_run (hrun : (machine F D).run (initial heap routers) es = some p) :
    (∀ j, (p.shared.routers j).upstreams = (routers j).upstreams ∧
        (p.shared.routers j).strategy = (routers j).strategy) ∧
      ∀ u, p.shared.heap.isAvailable u = heap.isAvailable u := by
  refine (machine F D).run_preserves (I := fun q =>
    (∀ j, (q.shared.routers j).upstreams = (routers j).upstreams ∧
      (q.shared.routers j).strategy = (routers j).strategy) ∧
    ∀ u, q.shared.heap.isAvailable u = heap.isAvailable u) ?_
    ⟨fun _ => ⟨rfl, rfl⟩, fun _ => rfl⟩ hrun
  intro q a q' hq hstep
  obtain ⟨hrouters, havailable⟩ := hq
  rcases step_cases hstep with ⟨i, e, t, t', -, -, -, heffect, -⟩ | ⟨hheap, hsame, -⟩
  · refine ⟨fun j => ?_, fun u => (heffect.isAvailable u).trans (havailable u)⟩
    obtain ⟨hups, hstrategy⟩ := heffect.keeps_router j
    exact ⟨hups.trans (hrouters j).1, hstrategy.trans (hrouters j).2⟩
  · rw [hheap, hsame]
    exact ⟨hrouters, havailable⟩

/-- Whoever is on its way with an upstream has it from its own instance's list. -/
theorem mem_of_run (hrun : (machine F D).run (initial heap routers) es = some p) :
    ∀ t ∈ p.tasks, ∀ u, t.pc.phase.onto u = 1 → u ∈ (routers t.inst).upstreams := by
  refine (machine F D).run_induction (Q := fun _ q =>
    ∀ t ∈ q.tasks, ∀ u, t.pc.phase.onto u = 1 → u ∈ (routers t.inst).upstreams) ?_ ?_ hrun
  · exact fun t ht => absurd ht List.not_mem_nil
  · intro es a q q' hq ih hstep v hv u hu
    rcases step_cases hstep with ⟨i, e, t, t', -, ht, hinst, heffect, htasks⟩ |
      ⟨-, -, new, htasks, hnew⟩
    · rw [htasks] at hv
      rcases List.mem_or_eq_of_mem_set hv with hv | rfl
      · exact ih v hv u hu
      · rw [hinst]
        have hold : t.pc.phase.onto u = 1 → u ∈ (routers t.inst).upstreams :=
          ih t (List.mem_of_getElem? ht) u
        cases heffect with
        | quiet hheap hrouters hphase => exact hold (hphase ▸ hu)
        | @select answer hpc hanswer hheap hrouters hphase =>
            rw [hphase] at hu
            cases hup : answer.2 with
            | none => rw [hup] at hu; simp [Phase.onto] at hu
            | some w =>
                obtain rfl : w = u := by simpa [hup, Phase.onto] using hu
                rw [← ((same_of_run hq).1 t.inst).1]
                exact Router.mem_of_selectUpstream (by rw [hanswer, hup])
        | fail hchosen hheap hrouters hphase => simp [hphase, Phase.onto] at hu
        | increment hchosen hstate hphase =>
            apply hold
            simpa [hphase, hchosen, Phase.onto] using hu
        | decrement hcounted hstate hphase => simp [hphase, Phase.onto] at hu
        | record hover hstate hactive hphase => simp [hphase, Phase.onto] at hu
    · rw [htasks] at hv
      rcases List.mem_append.mp hv with hv | hv
      · exact ih v hv u hu
      · rw [hnew v hv] at hu
        simp [Phase.onto] at hu

/-- The selections of an upstream that are not counted yet are part of its instance's overlap. -/
theorem inPhase_chosen_le (hstart : EqualStart heap routers inst start)
    (hrun : (machine F D).run (initial heap routers) es = some p) {u : UpstreamRef}
    (hu : u ∈ (routers inst).upstreams) : inPhase (.chosen u) p.tasks ≤ overlap inst p.tasks := by
  apply List.countP_mono_left
  intro t ht hchosen
  have hphase : t.pc.phase = .chosen u := by simpa using hchosen
  have hmem := mem_of_run hrun t ht u (by simp [hphase, Phase.onto])
  have hinst : t.inst = inst := by
    by_contra hne
    exact hstart.own t.inst hne u hmem hu
  simp [hinst, hphase, Phase.isChosen]

/-! ## The balance -/

/-- A connection of the instance is over, or none of its upstreams is ahead of another one by more
than the overlap and one. -/
def Balanced (routers : ℕ → Router) (inst k : ℕ) (ts : List Handler) : Prop :=
  (∃ t ∈ ts, t.inst = inst ∧ t.pc.phase = .over) ∨
    ∀ u ∈ (routers inst).upstreams, ∀ v ∈ (routers inst).upstreams, load u ts ≤ load v ts + k + 1

/-- At a selection by the numbers of active connections, the selected upstream is behind every other
one up to the overlap. -/
theorem load_le_of_select (hstart : EqualStart heap routers inst start)
    (hrun : (machine F D).run (initial heap routers) es = some p)
    (hbound : start + p.tasks.length < 2 ^ 64) (hoverlap : overlap inst p.tasks ≤ k)
    {client : String} {u v : UpstreamRef}
    (hselect : ((p.shared.routers inst).selectUpstream F D.hashKey D.search p.shared.heap
      (some client)).2 = some u)
    (hu : u ∈ (routers inst).upstreams) (hv : v ∈ (routers inst).upstreams) :
    load u p.tasks ≤ load v p.tasks + k := by
  obtain ⟨hrouters, havailable⟩ := same_of_run hrun
  have hle := le_of_selectUpstream ((hrouters inst).2.trans hstart.strategy) hselect
    (show v ∈ (p.shared.routers inst).upstreams by rwa [(hrouters inst).1])
    ((havailable v).trans (hstart.available v hv))
  rw [active_of_run hrun (hstart.inHeap u hu) (by rwa [hstart.active u hu]), hstart.active u hu,
    active_of_run hrun (hstart.inHeap v hv) (by rwa [hstart.active v hv]),
    hstart.active v hv] at hle
  have hchosen := inPhase_chosen_le hstart hrun hu
  unfold load
  omega

/-- A new handler is on no upstream yet. -/
theorem Balanced.append {ts new : List Handler} (h : Balanced routers inst k ts)
    (hnew : ∀ t ∈ new, t.pc.phase = .unrouted) : Balanced routers inst k (ts ++ new) := by
  rcases h with ⟨v, hv, hvover⟩ | h
  · exact Or.inl ⟨v, List.mem_append_left new hv, hvover⟩
  · right
    intro u hu v hv
    unfold load
    rw [inPhase_append (by simp) hnew, inPhase_append (by simp) hnew,
      inPhase_append (by simp) hnew, inPhase_append (by simp) hnew]
    exact h u hu v hv

/-- A handler that is over stays so, whoever moves. -/
theorem over_set {ts : List Handler} {i : ℕ} {t t' : Handler} (ht : ts[i]? = some t)
    (hinst : t'.inst = t.inst) (hover : t.pc.phase = .over → t'.pc.phase = .over)
    (h : ∃ v ∈ ts, v.inst = inst ∧ v.pc.phase = .over) :
    ∃ v ∈ ts.set i t', v.inst = inst ∧ v.pc.phase = .over := by
  obtain ⟨v, hv, hvinst, hvover⟩ := h
  by_cases hvt : v = t
  · subst hvt
    exact ⟨t', List.mem_set (List.getElem?_eq_some_iff.mp ht).1 t', hinst.trans hvinst,
      hover hvover⟩
  · refine ⟨v, ?_, hvinst, hvover⟩
    rw [← List.append_nil (ts.set i t')]
    exact mem_set_append_of_ne ht hv hvt t' []

/-- A step that moves no load of the instance keeps the balance. -/
theorem Balanced.of_same {ts : List Handler} {i : ℕ} {t t' : Handler} (ht : ts[i]? = some t)
    (hinst : t'.inst = t.inst) (hover : t.pc.phase = .over → t'.pc.phase = .over)
    (hsame : ∀ u ∈ (routers inst).upstreams, t'.pc.phase.onto u = t.pc.phase.onto u)
    (h : Balanced routers inst k ts) : Balanced routers inst k (ts.set i t') := by
  rcases h with h | h
  · exact Or.inl (over_set ht hinst hover h)
  · right
    intro u hu v hv
    have hold := h u hu v hv
    have hloadu := load_set u ht t'
    have hloadv := load_set v ht t'
    rw [hsame u hu] at hloadu
    rw [hsame v hv] at hloadv
    omega

/-- A selection of an upstream that is behind the others up to the overlap keeps the balance. -/
theorem Balanced.of_select {ts : List Handler} {i : ℕ} {t t' : Handler} (ht : ts[i]? = some t)
    (hinst : t'.inst = t.inst) (hbefore : t.pc.phase = .unrouted) {w : UpstreamRef}
    (hphase : t'.pc.phase = .chosen w)
    (hleast : ∀ v ∈ (routers inst).upstreams, load w ts ≤ load v ts + k)
    (h : Balanced routers inst k ts) : Balanced routers inst k (ts.set i t') := by
  rcases h with h | h
  · exact Or.inl (over_set ht hinst (by simp [hbefore]) h)
  · right
    intro u hu v hv
    have hold := h u hu v hv
    have hloadu := load_set u ht t'
    have hloadv := load_set v ht t'
    simp only [hbefore, hphase, Phase.onto, Phase.chosen.injEq, reduceCtorEq, or_false, or_self,
      if_false, add_zero] at hloadu hloadv
    by_cases hwu : w = u
    · subst hwu
      have hbehind := hleast v hv
      rw [if_pos rfl] at hloadu
      omega
    · rw [if_neg hwu] at hloadu
      omega

/-- A handler of another instance is on none of the instance's upstreams. -/
theorem onto_eq_zero (hstart : EqualStart heap routers inst start)
    (hrun : (machine F D).run (initial heap routers) es = some p) {t : Handler} (ht : t ∈ p.tasks)
    (hother : t.inst ≠ inst) {u : UpstreamRef} (hu : u ∈ (routers inst).upstreams) :
    t.pc.phase.onto u = 0 := by
  by_contra hne
  have hone : t.pc.phase.onto u = 1 := by
    unfold Phase.onto at hne ⊢
    split_ifs at hne ⊢
    · rfl
    · exact absurd rfl hne
  exact hstart.own t.inst hother u (mem_of_run hrun t ht u hone) hu

/-- Every step keeps the balance. -/
theorem Balanced.step (hstart : EqualStart heap routers inst start)
    (hrun : (machine F D).run (initial heap routers) es = some p)
    (hbound : start + p.tasks.length < 2 ^ 64) {a : Sched Event} {p' : Pool ProxyState Handler}
    (hoverlap : OverlapAtMost inst k p a) (hstep : (machine F D).step p a = some p')
    (h : Balanced routers inst k p.tasks) : Balanced routers inst k p'.tasks := by
  have hrun' : (machine F D).run (initial heap routers) (es ++ [a]) = some p' := by
    rw [Machine.run_append, hrun]
    simpa using hstep
  rcases step_cases hstep with ⟨i, e, t, t', rfl, ht, hinst, heffect, htasks⟩ |
    ⟨-, -, new, htasks, hnew⟩
  · have ht' : t' ∈ p'.tasks := by
      rw [htasks]
      exact List.mem_set (List.getElem?_eq_some_iff.mp ht).1 t'
    by_cases hown : t.inst = inst
    · have hover : t'.pc.phase = .over → Balanced routers inst k p'.tasks := fun hover =>
        Or.inl ⟨t', ht', hinst.trans hown, hover⟩
      cases heffect with
      | quiet hheap hrouters hphase =>
          rw [htasks]
          exact h.of_same ht hinst (fun hover => hphase.trans hover) fun u _ => by rw [hphase]
      | @select answer hpc hanswer hheap hrouters hphase =>
          cases hup : answer.2 with
          | none => exact hover (by rw [hphase, hup]; rfl)
          | some w =>
              have hphase' : t'.pc.phase = .chosen w := by rw [hphase, hup]; rfl
              have hw : w ∈ (routers inst).upstreams := by
                rw [← hown, ← hinst]
                exact mem_of_run hrun' t' ht' w (by simp [hphase', Phase.onto])
              rw [htasks]
              apply h.of_select ht hinst (by rw [hpc]; rfl) hphase'
              intro v hv
              exact load_le_of_select hstart hrun hbound (hoverlap t ht hown hpc)
                (by rw [← hown, hanswer, hup]) hw hv
      | fail hchosen hheap hrouters hphase => exact hover hphase
      | increment hchosen hstate hphase =>
          rw [htasks]
          exact h.of_same ht hinst (by simp [hchosen]) fun u _ => by
            simp [hphase, hchosen, Phase.onto]
      | decrement hcounted hstate hphase => exact hover hphase
      | record hover' hstate hactive hphase => exact hover hphase
    · -- a handler of another instance has an upstream of its own
      rw [htasks]
      apply h.of_same ht hinst heffect.over
      intro u hu
      rw [onto_eq_zero hstart hrun (List.mem_of_getElem? ht) hown hu,
        onto_eq_zero hstart hrun' ht' (by rwa [hinst]) hu]
  · rw [htasks]
    exact h.append hnew

/-- **The balance of least connections.** Take an instance with the least-connections strategy whose
upstreams are available and start with equally many active connections, and any interleaving of
any number of handlers, in which at most `k` other handlers of the instance are between their
selection and their increment when one selects. Once all its handlers are streaming, the active
connections of any two of its upstreams differ by at most `k + 1`. -/
theorem leastConnections_balanced (F : Type) [ScoreArith F] (D : Deployment) (heap : Heap)
    (routers : ℕ → Router) (inst start k : ℕ) (hstart : EqualStart heap routers inst start)
    (es : List (Sched Event)) (p : Pool ProxyState Handler)
    (hoverlap : (machine F D).Along (OverlapAtMost inst k) (initial heap routers) es)
    (hrun : (machine F D).run (initial heap routers) es = some p)
    (hbound : start + p.tasks.length < 2 ^ 64)
    (hstreaming : ∀ t ∈ p.tasks, t.inst = inst →
      ∃ u stream since copy, t.pc = .streaming u stream since copy) :
    ∀ u ∈ (routers inst).upstreams, ∀ v ∈ (routers inst).upstreams,
      (p.shared.heap.get u).stats.activeConnections ≤
        (p.shared.heap.get v).stats.activeConnections + (k + 1) := by
  have hbalanced : Balanced routers inst k p.tasks := by
    refine (machine F D).run_induction (Q := fun es q =>
      (machine F D).Along (OverlapAtMost inst k) (initial heap routers) es →
      start + q.tasks.length < 2 ^ 64 → Balanced routers inst k q.tasks) ?_ ?_ hrun hoverlap hbound
    · intro _ _
      right
      intro u _ v _
      exact Nat.zero_le _
    · intro es a q q' hq ih hstep hoverlap hbound
      rw [(machine F D).along_concat hq] at hoverlap
      have hlength : q.tasks.length ≤ q'.tasks.length := by
        rcases step_cases hstep with ⟨i, e, t, t', -, -, -, -, htasks⟩ | ⟨-, -, new, htasks, -⟩
        · rw [htasks, List.length_set]
        · rw [htasks, List.length_append]
          omega
      have hboundq : start + q.tasks.length < 2 ^ 64 := by omega
      exact (ih hoverlap.1 hboundq).step hstart hq hboundq hoverlap.2 hstep
  have hnone : overlap inst p.tasks = 0 := by
    unfold overlap
    rw [List.countP_eq_zero]
    intro t ht hcounted
    obtain ⟨hinst, hchosen⟩ : t.inst = inst ∧ _ := by simpa using hcounted
    obtain ⟨u, stream, since, copy, hpc⟩ := hstreaming t ht hinst
    rw [hpc] at hchosen
    exact absurd hchosen (by simp [HandlerPc.phase, Phase.isChosen])
  rcases hbalanced with ⟨t, ht, hinst, hover⟩ | hbalanced
  · obtain ⟨u, stream, since, copy, hpc⟩ := hstreaming t ht hinst
    rw [hpc] at hover
    exact absurd hover (by simp [HandlerPc.phase])
  · intro u hu v hv
    have hle := hbalanced u hu v hv
    have hchosen := inPhase_chosen_le hstart hrun hu
    unfold load at hle
    rw [active_of_run hrun (hstart.inHeap u hu) (by rwa [hstart.active u hu]), hstart.active u hu,
      active_of_run hrun (hstart.inHeap v hv) (by rwa [hstart.active v hv]), hstart.active v hv]
    have hchosenv := inPhase_chosen_le hstart hrun hv
    omega

end run

/-! ## Two handlers and two upstreams -/

/-- One instance, with an upstream to which every connect goes. -/
def exampleDeployment : Deployment where
  config := fun _ => dbInstance "orders" 8000 "10.0.0.1:5432"
  parse := parseTwo
  hashKey := fun key => key.hash.toFin
  search := .linear U64

/-- Two upstreams, behind the router of the instance. -/
def exampleUpstreams : Router × Heap :=
  (Router.new .leastConnections).updateUpstreams exampleDeployment.hashKey .empty
    [⟨"a", "10.0.0.1:5432", 1, 0, 1000⟩, ⟨"b", "10.0.0.2:5432", 1, 0, 1000⟩] 0

/-- The routers: there is no other instance. -/
def exampleRouters (inst : ℕ) : Router :=
  if inst = 0 then exampleUpstreams.1 else .new .leastConnections

/-- The upstreams of the example start equal. -/
theorem exampleRouters_equalStart : EqualStart exampleUpstreams.2 exampleRouters 0 0 where
  strategy := rfl
  inHeap := by decide
  available := by decide
  active := by decide
  own := by
    intro j hj u hu
    rw [exampleRouters, if_neg hj] at hu
    exact absurd hu List.not_mem_nil

/-- The steps of a handler up to its selection. -/
def untilSelected (i : ℕ) : List (Sched Event) :=
  [.env (.accept 0 (.v4 ⟨127, 0, 0, 1⟩ 40000)), .task i .step, .task i .step, .task i .step]

/-- The steps of a handler from its selection up to its streaming. -/
def untilStreaming (i : ℕ) : List (Sched Event) :=
  [.task i (.get .step), .task i (.get .step), .task i (.get .connected), .task i (.get .step),
    .task i (.streamStart fun _ => [])]

/-- Is the handler streaming? -/
def HandlerPc.isStreaming : HandlerPc → Bool
  | .streaming .. => true
  | _ => false

/-- Whoever is streaming has an upstream. -/
theorem HandlerPc.isStreaming_iff {pc : HandlerPc} :
    pc.isStreaming = true ↔ ∃ u stream since copy, pc = .streaming u stream since copy := by
  cases pc <;> simp [isStreaming]

/-- Two handlers one after the other get an upstream each. -/
theorem leastConnections_balanced_oneByOne :
    ∃ p, (machine ℚ exampleDeployment).run (initial exampleUpstreams.2 exampleRouters)
        (untilSelected 0 ++ untilStreaming 0 ++ untilSelected 1 ++ untilStreaming 1) = some p ∧
      p.tasks.length = 2 ∧ ∀ u ∈ [0, 1], ∀ v ∈ [0, 1],
        (p.shared.heap.get u).stats.activeConnections ≤
          (p.shared.heap.get v).stats.activeConnections + (0 + 1) := by
  obtain ⟨p, hp, hlength, hstreaming⟩ : ∃ p, (machine ℚ exampleDeployment).run
      (initial exampleUpstreams.2 exampleRouters)
        (untilSelected 0 ++ untilStreaming 0 ++ untilSelected 1 ++ untilStreaming 1) = some p ∧
      p.tasks.length = 2 ∧ p.tasks.all (fun t => t.pc.isStreaming) = true := ⟨_, rfl, rfl, rfl⟩
  refine ⟨p, hp, hlength, ?_⟩
  apply leastConnections_balanced ℚ exampleDeployment _ _ 0 0 0 exampleRouters_equalStart _ p ?_ hp
    (by omega) fun t ht _ => HandlerPc.isStreaming_iff.mp (List.all_eq_true.mp hstreaming t ht)
  have hcheck : ∀ n ≤ 18, (((machine ℚ exampleDeployment).run
      (initial exampleUpstreams.2 exampleRouters)
        ((untilSelected 0 ++ untilStreaming 0 ++ untilSelected 1 ++ untilStreaming 1).take n)).all
      fun q => q.tasks.all fun t =>
        match t.pc with
        | .selecting => overlap 0 q.tasks == 0
        | _ => true) = true := by decide +kernel
  refine (machine ℚ exampleDeployment).along_of_take fun n hn q hq e => ?_
  have hq' := hcheck n hn
  rw [hq] at hq'
  cases e with
  | env e => trivial
  | task i e =>
      intro t ht _ hpc
      have hall := List.all_eq_true.mp hq' t (List.mem_of_getElem? ht)
      rw [hpc] at hall
      exact Nat.le_of_eq (by simpa using hall)

/-- Two handlers that both select before either has connected get the same one: both are streaming,
and the upstreams have two active connections and none. -/
theorem leastConnections_imbalanced :
    EqualStart exampleUpstreams.2 exampleRouters 0 0 ∧
    ∃ p, (machine ℚ exampleDeployment).run (initial exampleUpstreams.2 exampleRouters)
        (untilSelected 0 ++ untilSelected 1 ++ untilStreaming 0 ++ untilStreaming 1) = some p ∧
      p.tasks.length = 2 ∧
      (∀ t ∈ p.tasks, ∃ u stream since copy, t.pc = .streaming u stream since copy) ∧
      ¬ ∀ u ∈ (exampleRouters 0).upstreams, ∀ v ∈ (exampleRouters 0).upstreams,
        (p.shared.heap.get u).stats.activeConnections ≤
          (p.shared.heap.get v).stats.activeConnections + 1 := by
  obtain ⟨p, hp, hlength, hstreaming, hfirst, hsecond⟩ : ∃ p, (machine ℚ exampleDeployment).run
      (initial exampleUpstreams.2 exampleRouters)
        (untilSelected 0 ++ untilSelected 1 ++ untilStreaming 0 ++ untilStreaming 1) = some p ∧
      p.tasks.length = 2 ∧ p.tasks.all (fun t => t.pc.isStreaming) = true ∧
      (p.shared.heap.get 0).stats.activeConnections = 2 ∧
      (p.shared.heap.get 1).stats.activeConnections = 0 := ⟨_, rfl, rfl, rfl, rfl, rfl⟩
  refine ⟨exampleRouters_equalStart, p, hp, hlength, fun t ht => ?_, fun hall => ?_⟩
  · exact HandlerPc.isStreaming_iff.mp (List.all_eq_true.mp hstreaming t ht)
  · have hle := hall 0 (by decide) 1 (by decide)
    rw [hfirst, hsecond] at hle
    omega

end HarbrRouter.Proxy.Tcp.Connection
