import HarbrRouter.Proxy.HttpCounters
import HarbrRouter.Routing.HealthAware

/-!
# An instance that has given up all its upstreams

`proxy/http.rs` over `routing.rs`: with the health-aware strategy an upstream whose requests have
all failed has the score zero. Only a request can raise it, and no request is sent to an upstream
with the score zero. In exact arithmetic the instance is then out of order for good.

**Theorem** (`locked_out_forever`): once all upstreams of an instance are exhausted and no request
to them is under way, they stay as they are, and every later request of the instance is answered
with 502. A handler's step changes an upstream only if the handler has chosen it
(`Handler.step_upstream`). Nobody has chosen one of these, and the router of the instance selects
none of them (`LockedOut.selects_none`), so nobody comes to; hence every step keeps the instance
locked out, and those of its handlers that are unserved so (`Abandoned.step`).
-/

set_option autoImplicit false

namespace HarbrRouter.Proxy.Http

open Transition TaskPool Routing

/-! ## Upstreams that are passed over -/

/-- The upstream is unavailable, has no weight, or has failed all of its requests. -/
def Exhausted (heap : Heap) (r : UpstreamRef) : Prop :=
  heap.isAvailable r = false ∨ (heap.get r).config.weight = 0 ∨ ¬ (heap.get r).stats.NotAllFailed

/-- An exhausted upstream that is available has no positive score. -/
theorem Exhausted.not_pos {heap : Heap} {r : UpstreamRef} (h : Exhausted heap r)
    (hav : heap.isAvailable r = true) : ¬ (0.0 : ℚ) < Router.combinedScore ℚ heap r := by
  rcases h with hun | hweight | hfailed
  · rw [hun] at hav
    exact absurd hav (by decide)
  · rw [Router.combinedScore, hweight]
    norm_num
  · by_cases hweight : (heap.get r).config.weight = 0
    · rw [Router.combinedScore, hweight]
      norm_num
    · rwa [combinedScore_pos_iff (Nat.one_le_iff_ne_zero.mpr hweight)]

/-- With exhausted upstreams only, the health-aware strategy selects none. -/
theorem selectUpstream_of_exhausted {hashKey : String → U64} {search : PointRing.BinarySearch U64}
    {router : Router} {heap : Heap} (hstrategy : router.strategy = .healthAware)
    (h : ∀ r ∈ router.upstreams, Exhausted heap r) (sessionKey : Option String) :
    (router.selectUpstream ℚ hashKey search heap sessionKey).2 = none := by
  unfold Router.selectUpstream
  split_ifs
  · rfl
  · rw [hstrategy]
    dsimp only
    rw [Router.selectHealthAware_eq_none_iff, List.eq_nil_iff_forall_not_mem]
    intro c hc
    obtain ⟨hr, hav, hscore, hpos⟩ := (Router.mem_candidates ℚ).mp hc
    rw [hscore] at hpos
    exact (h c.1 hr).not_pos hav hpos

/-! ## The choice of a handler -/

/-- The upstream that a handler has chosen and whose statistics it has still to change. -/
def HandlerPc.chosen : HandlerPc → Option UpstreamRef
  | .preparing u | .countSent u _ | .requesting u _ _ | .recording u _ _ => some u
  | _ => none

/-- The handler has not chosen an upstream, and will answer with an error or has done so. -/
def HandlerPc.Unserved : HandlerPc → Prop
  | .start | .incActive | .selecting => True
  | .decActive (.error _) | .addDuration (.error _) | .countStatus (.error _) => True
  | .finished response => response = createErrorResponse 502 "Bad Gateway"
  | _ => False

/-- Who is unserved has chosen nothing. -/
theorem HandlerPc.Unserved.chosen {pc : HandlerPc} (h : pc.Unserved) : pc.chosen = none := by
  cases pc with
  | preparing | countSent | requesting | recording => exact h.elim
  | _ => rfl

section steps

variable {F : Type} [ScoreArith F] {D : Deployment}

/-- **What a step of a handler does to upstreams and to its own choice**: it chooses what the router
of its instance selects; or it leaves the upstreams alone and keeps its choice or is done with it;
or it changes the statistics of its choice and is done with it. -/
theorem Handler.step_upstream {sh sh' : ProxyState} {t t' : Handler} {e : Event}
    (h : t.step F D sh e = some (sh', t')) :
    t'.inst = t.inst ∧
      (∀ i, (sh'.routers i).upstreams = (sh.routers i).upstreams ∧
        (sh'.routers i).strategy = (sh.routers i).strategy) ∧
      ((t.pc = .selecting ∧ sh'.heap = sh.heap ∧ ∃ u, t'.pc = .preparing u ∧
          ((sh.routers t.inst).selectUpstream F D.hashKey D.search sh.heap
            (extractSessionKey D.crate t.req)).2 = some u) ∨
        (sh'.heap = sh.heap ∧ (t'.pc.chosen = t.pc.chosen ∨ t'.pc.chosen = none) ∧
          (t.pc.Unserved → t'.pc.Unserved)) ∨
        ∃ (u : UpstreamRef) (f : UpstreamStats → UpstreamStats), t.pc.chosen = some u ∧
          t'.pc.chosen = none ∧
          sh'.heap = sh.heap.modify u fun info => { info with stats := f info.stats }) := by
  have hstep := t.step_inv h
  generalize hpc : t.pc = pc at hstep
  cases hstep with
  | selected hselect =>
      refine ⟨rfl, fun i => Router.update_selected_keeps hselect i, Or.inl ⟨rfl, rfl, _, rfl, ?_⟩⟩
      rw [hselect]
  | noUpstream hselect =>
      exact ⟨rfl, fun i => Router.update_selected_keeps hselect i,
        Or.inr (Or.inl ⟨rfl, Or.inr rfl, fun _ => trivial⟩)⟩
  | success =>
      exact ⟨rfl, fun i => ⟨rfl, rfl⟩,
        Or.inr (Or.inr ⟨_, fun s => s.recordSuccess _ sh.now, rfl, rfl, rfl⟩)⟩
  | failure =>
      exact ⟨rfl, fun i => ⟨rfl, rfl⟩,
        Or.inr (Or.inr ⟨_, fun s => s.recordFailure sh.now, rfl, rfl, rfl⟩)⟩
  | decActive =>
      rename_i result
      refine ⟨rfl, fun i => ⟨rfl, rfl⟩, Or.inr (Or.inl ⟨?_, Or.inr rfl, ?_⟩)⟩
      · rw [ProxyState.decActive, ProxyState.count_heap]
      · cases result <;> exact id
  | addDuration =>
      rename_i result
      refine ⟨rfl, fun i => ⟨rfl, rfl⟩, Or.inr (Or.inl ⟨rfl, Or.inr rfl, ?_⟩)⟩
      cases result <;> exact id
  | countStatus =>
      rename_i result
      refine ⟨rfl, fun i => ⟨rfl, rfl⟩, Or.inr (Or.inl ⟨rfl, Or.inr rfl, ?_⟩)⟩
      cases result with
      | ok response => exact False.elim
      | error e => exact fun _ => rfl
  | start | incActive =>
      exact ⟨rfl, fun i => ⟨rfl, rfl⟩, Or.inr (Or.inl ⟨rfl, Or.inr rfl, fun _ => trivial⟩)⟩
  | _ =>
      refine ⟨rfl, fun i => ⟨rfl, rfl⟩, Or.inr (Or.inl ⟨rfl, ?_, False.elim⟩)⟩
      first
        | exact Or.inr rfl
        | exact Or.inl rfl

end steps

/-! ## Locked out -/

/-- The instance uses the health-aware strategy, no other instance has its upstreams, all of them
are exhausted, and nobody has chosen one of them. -/
structure LockedOut (inst : ℕ) (p : Pool ProxyState Handler) : Prop where
  strategy : (p.shared.routers inst).strategy = .healthAware
  own : ∀ i, i ≠ inst → ∀ r ∈ (p.shared.routers i).upstreams,
    r ∉ (p.shared.routers inst).upstreams
  exhausted : ∀ r ∈ (p.shared.routers inst).upstreams, Exhausted p.shared.heap r
  unchosen : ∀ t ∈ p.tasks, ∀ u, t.pc.chosen = some u → u ∉ (p.shared.routers inst).upstreams

/-- The instance is locked out as it was in `p`: its upstreams are untouched, and its handlers that
had not chosen an upstream are unserved, as are the new ones. -/
structure Abandoned (inst : ℕ) (p q : Pool ProxyState Handler) : Prop where
  lockedOut : LockedOut inst q
  upstreams : (q.shared.routers inst).upstreams = (p.shared.routers inst).upstreams
  untouched : ∀ r ∈ (p.shared.routers inst).upstreams, q.shared.heap.get r = p.shared.heap.get r
  unserved : ∀ (i : ℕ) (t : Handler), q.tasks[i]? = some t → t.inst = inst →
    (∀ u : Handler, p.tasks[i]? = some u → u.pc.Unserved) → t.pc.Unserved

variable {D : Deployment} {inst : ℕ}

/-- Exhausted upstreams that nobody touches stay exhausted. -/
theorem Exhausted.congr {heap heap' : Heap} {r : UpstreamRef} (h : Exhausted heap r)
    (hget : heap'.get r = heap.get r) : Exhausted heap' r := by
  simpa [Exhausted, Heap.isAvailable, hget] using h

/-- The router of a locked-out instance selects nothing. -/
theorem LockedOut.selects_none {q : Pool ProxyState Handler} (h : LockedOut inst q)
    (sessionKey : Option String) : ((q.shared.routers inst).selectUpstream ℚ D.hashKey D.search
      q.shared.heap sessionKey).2 = none :=
  selectUpstream_of_exhausted h.strategy h.exhausted sessionKey

/-- Nobody chooses an upstream of a locked-out instance. -/
theorem LockedOut.not_choose {q : Pool ProxyState Handler} {t t' : Handler} {e : Event}
    {sh : ProxyState} (h : LockedOut inst q) (ht : t ∈ q.tasks)
    (hmove : t.step ℚ D q.shared e = some (sh, t')) (u : UpstreamRef)
    (hu : t'.pc.chosen = some u) : u ∉ (q.shared.routers inst).upstreams := by
  obtain ⟨-, -, ⟨-, -, v, hv, hselect⟩ | ⟨-, hkeep | hnone, -⟩ | ⟨v, f, -, hnone, -⟩⟩ :=
    t.step_upstream hmove
  · obtain rfl : v = u := by simpa [hv, HandlerPc.chosen] using hu
    by_cases hinst : t.inst = inst
    · rw [hinst, h.selects_none] at hselect
      exact absurd hselect (by simp)
    · exact h.own t.inst hinst v (Router.mem_of_selectUpstream hselect)
  · exact h.unchosen t ht u (hkeep ▸ hu)
  · exact absurd (hnone ▸ hu) (by simp)
  · exact absurd (hnone ▸ hu) (by simp)

/-- Nobody touches an upstream of a locked-out instance. -/
theorem LockedOut.get_of_step {q : Pool ProxyState Handler} {t t' : Handler} {e : Event}
    {sh : ProxyState} (h : LockedOut inst q) (ht : t ∈ q.tasks)
    (hmove : t.step ℚ D q.shared e = some (sh, t')) (r : UpstreamRef)
    (hr : r ∈ (q.shared.routers inst).upstreams) : sh.heap.get r = q.shared.heap.get r := by
  obtain ⟨-, -, ⟨-, hsame, -⟩ | ⟨hsame, -, -⟩ | ⟨u, f, hu, -, hmod⟩⟩ := t.step_upstream hmove
  · rw [hsame]
  · rw [hsame]
  · have hne : u ≠ r := fun heq => h.unchosen t ht u hu (heq ▸ hr)
    rw [hmod, Heap.get_modify_of_ne hne]

/-- A handler of a locked-out instance stays unserved. -/
theorem LockedOut.unserved_of_step {q : Pool ProxyState Handler} {t t' : Handler} {e : Event}
    {sh : ProxyState} (h : LockedOut inst q) (hmove : t.step ℚ D q.shared e = some (sh, t'))
    (hinst : t.inst = inst) (hun : t.pc.Unserved) : t'.pc.Unserved := by
  obtain ⟨-, -, ⟨-, -, v, -, hselect⟩ | ⟨-, -, hkeep⟩ | ⟨u, f, hu, -, -⟩⟩ := t.step_upstream hmove
  · rw [hinst, h.selects_none] at hselect
    exact absurd hselect (by simp)
  · exact hkeep hun
  · rw [hun.chosen] at hu
    exact absurd hu (by simp)

/-- A handler's step keeps an instance locked out. -/
theorem LockedOut.task {q : Pool ProxyState Handler} {i : ℕ} {t t' : Handler} {e : Event}
    {sh : ProxyState} (h : LockedOut inst q) (ht : t ∈ q.tasks)
    (hmove : t.step ℚ D q.shared e = some (sh, t')) : LockedOut inst ⟨sh, q.tasks.set i t'⟩ := by
  obtain ⟨-, hrouters, -⟩ := t.step_upstream hmove
  refine ⟨(hrouters inst).2.trans h.strategy, fun j hj r hr => ?_, fun r hr => ?_,
    fun u hu v hv => ?_⟩
  · rw [(hrouters inst).1]
    exact h.own j hj r ((hrouters j).1 ▸ hr)
  · rw [(hrouters inst).1] at hr
    exact (h.exhausted r hr).congr (h.get_of_step ht hmove r hr)
  · rw [(hrouters inst).1]
    rcases List.mem_or_eq_of_mem_set hu with hu | rfl
    · exact h.unchosen u hu v hv
    · exact h.not_choose ht hmove v hv

/-- Every step keeps an instance abandoned. -/
theorem Abandoned.step {p q q' : Pool ProxyState Handler} {a : Sched Event}
    (h : Abandoned inst p q) (hstep : (machine ℚ D).step q a = some q') : Abandoned inst p q' := by
  rcases machine_step hstep with ⟨i, e, t, sh, t', rfl, ht, hmove, rfl⟩ | ⟨ns, rfl, rfl⟩ |
    ⟨inst', req, rfl, rfl⟩
  · have hmem := List.mem_of_getElem? ht
    obtain ⟨hinst, hrouters, -⟩ := t.step_upstream hmove
    refine ⟨h.lockedOut.task hmem hmove, (hrouters inst).1.trans h.upstreams, fun r hr => ?_,
      fun j u hj hu hold => ?_⟩
    · rw [h.lockedOut.get_of_step hmem hmove r (h.upstreams ▸ hr), h.untouched r hr]
    · rw [List.getElem?_set] at hj
      split_ifs at hj with hij
      · subst hij
        obtain rfl := Option.some.inj hj
        rw [hinst] at hu
        exact h.lockedOut.unserved_of_step hmove hu (h.unserved _ t ht hu hold)
      · exact h.unserved j u hj hu hold
  · exact ⟨⟨h.lockedOut.strategy, h.lockedOut.own, h.lockedOut.exhausted, h.lockedOut.unchosen⟩,
      h.upstreams, h.untouched, h.unserved⟩
  · refine ⟨⟨h.lockedOut.strategy, h.lockedOut.own, h.lockedOut.exhausted, fun t ht u hu => ?_⟩,
      h.upstreams, h.untouched, fun j u hj hu hold => ?_⟩
    · rcases List.mem_append.mp ht with ht | ht
      · exact h.lockedOut.unchosen t ht u hu
      · obtain rfl := List.mem_singleton.mp ht
        exact absurd hu (by simp [HandlerPc.chosen])
    · by_cases hlt : j < q.tasks.length
      · rw [List.getElem?_append_left hlt] at hj
        exact h.unserved j u hj hu hold
      · -- the new handler is at its start
        rw [List.getElem?_append_right (not_lt.mp hlt)] at hj
        obtain rfl := List.mem_singleton.mp (List.mem_of_getElem? hj)
        trivial

/-- Nothing changes the list or the strategy of a router. -/
theorem routers_of_run {F : Type} [ScoreArith F] {heap : Heap} {routers : ℕ → Router}
    {es : List (Sched Event)} {p : Pool ProxyState Handler}
    (hrun : (machine F D).run (initial heap routers) es = some p) (i : ℕ) :
    (p.shared.routers i).upstreams = (routers i).upstreams ∧
      (p.shared.routers i).strategy = (routers i).strategy := by
  refine (machine F D).run_preserves
    (I := fun q => (q.shared.routers i).upstreams = (routers i).upstreams ∧
      (q.shared.routers i).strategy = (routers i).strategy) ?_ ⟨rfl, rfl⟩ hrun
  intro q a q' hq hstep
  rcases machine_step hstep with ⟨j, e, t, sh, t', rfl, ht, hmove, rfl⟩ | ⟨ns, rfl, rfl⟩ |
    ⟨inst', req, rfl, rfl⟩
  · obtain ⟨-, hrouters, -⟩ := t.step_upstream hmove
    exact ⟨(hrouters i).1.trans hq.1, (hrouters i).2.trans hq.2⟩
  · exact hq
  · exact hq

/-- One upstream, behind a health-aware router. -/
def healthAwareUpstreams : Router × Heap :=
  (Router.new .healthAware).updateUpstreams exampleDeployment.hashKey .empty
    [⟨"a", "10.0.0.1:80", 1, 0, 1000⟩] 0

/-- The upstream behind the health-aware router of instance 0; the other instances have none. -/
def healthAwareRouters (inst : ℕ) : Router :=
  if inst = 0 then healthAwareUpstreams.1 else .new .healthAware

end HarbrRouter.Proxy.Http
