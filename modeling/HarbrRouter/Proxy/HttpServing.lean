import HarbrRouter.Proxy.HttpLockout

/-!
# An instance that stays in order

The other side of an instance that has given up its upstreams: an available upstream with a weight
that has answered one request has a positive score from then on, however many of its requests fail
later, since only the share of the answers counts and answers are not forgotten. So the instance
finds an upstream for every request as long as the count of the answers does not wrap around.

**Theorem** (`answered_serves`): in every later state no handler of the instance is refused an
upstream. Only the step that records an answer counts one (`Handler.step_answers`), so the count
stays positive while it has counted no more answers than a word can hold (`Serving.step`), and with
a positive count the upstream is a candidate (`selectUpstream_of_answered`).
-/

set_option autoImplicit false

namespace HarbrRouter.Proxy.Http

open Transition TaskPool Routing

/-- The upstream is available, has a weight and has answered. -/
structure Answered (heap : Heap) (r : UpstreamRef) : Prop where
  available : heap.isAvailable r = true
  weight : 1 ≤ (heap.get r).config.weight
  answers : 1 ≤ (heap.get r).stats.responsesReceived

/-- With an upstream that has answered the health-aware strategy selects one. -/
theorem selectUpstream_of_answered {hashKey : String → U64} {search : PointRing.BinarySearch U64}
    {router : Router} {heap : Heap} {r : UpstreamRef} (hstrategy : router.strategy = .healthAware)
    (hr : r ∈ router.upstreams) (h : Answered heap r) (sessionKey : Option String) :
    (router.selectUpstream ℚ hashKey search heap sessionKey).2 ≠ none := by
  have hcandidate : (r, Router.combinedScore ℚ heap r) ∈
      Router.candidates ℚ heap router.upstreams := by
    refine (Router.mem_candidates ℚ).mpr ⟨hr, h.available, rfl, ?_⟩
    exact (combinedScore_pos_iff h.weight).mpr (Or.inr (Nat.one_le_iff_ne_zero.mp h.answers))
  unfold Router.selectUpstream
  rw [if_neg (by simp [List.ne_nil_of_mem hr]), hstrategy]
  dsimp only
  rw [Ne, Router.selectHealthAware_eq_none_iff]
  exact List.ne_nil_of_mem hcandidate

section steps

variable {F : Type} [ScoreArith F] {D : Deployment}

/-- What happens to the answers of an upstream: they stay, or, where an answer of it is recorded,
one is counted. -/
def CountsAnswer (recorded : Prop) (heap heap' : Heap) (r : UpstreamRef) : Prop :=
  (heap'.get r).config = (heap.get r).config ∧ heap'.isAvailable r = heap.isAvailable r ∧
    ((heap'.get r).stats.responsesReceived = (heap.get r).stats.responsesReceived ∨
      recorded ∧ (heap'.get r).stats.responsesReceived =
        wrappingAdd (heap.get r).stats.responsesReceived 1)

/-- Nothing happens to the answers of an upstream that is as it was. -/
theorem CountsAnswer.of_get {recorded : Prop} {heap heap' : Heap} {r : UpstreamRef}
    (h : heap'.get r = heap.get r) : CountsAnswer recorded heap heap' r := by
  unfold CountsAnswer Heap.isAvailable
  rw [h]
  exact ⟨rfl, rfl, Or.inl rfl⟩

/-- A change of the statistics of one upstream that counts at most one answer does so for every
upstream. -/
theorem CountsAnswer.of_modifyStats {recorded : Prop} (sh : ProxyState) (u r : UpstreamRef)
    {f : UpstreamStats → UpstreamStats}
    (hf : ∀ s, (f s).responsesReceived = s.responsesReceived ∨
      (u = r → recorded) ∧ (f s).responsesReceived = wrappingAdd s.responsesReceived 1) :
    CountsAnswer recorded sh.heap (sh.modifyStats u f).heap r := by
  rw [ProxyState.modifyStats]
  by_cases hur : u = r
  · subst hur
    by_cases hlt : u < sh.heap.cells.length
    · unfold CountsAnswer Heap.isAvailable
      rw [Heap.get_modify_self hlt]
      exact ⟨rfl, rfl, (hf _).imp id fun hmore => ⟨hmore.1 rfl, hmore.2⟩⟩
    · refine .of_get ?_
      rw [Heap.modify, List.modify_eq_self (not_lt.mp hlt)]
  · refine .of_get ?_
    rw [Heap.get_modify_of_ne hur]

/-- The handler's next step records an answer of the upstream. -/
def HandlerPc.RecordsAnswer (r : UpstreamRef) : HandlerPc → Prop
  | .recording upstream _ (.ok _) => upstream = r
  | _ => False

instance (r : UpstreamRef) (pc : HandlerPc) : Decidable (pc.RecordsAnswer r) := by
  unfold HandlerPc.RecordsAnswer
  split
  all_goals infer_instance

/-- **What a step of a handler does to the answers of an upstream.** -/
theorem Handler.step_answers {sh sh' : ProxyState} {t t' : Handler} {e : Event}
    (h : t.step F D sh e = some (sh', t')) (r : UpstreamRef) :
    CountsAnswer (t.pc.RecordsAnswer r) sh.heap sh'.heap r := by
  have hstep := t.step_inv h
  generalize t.pc = pc at hstep
  cases hstep with
  | success =>
      exact .of_modifyStats _ _ r (f := fun s => s.recordSuccess _ sh.now) fun _ =>
        Or.inr ⟨id, rfl⟩
  | failure =>
      exact .of_modifyStats _ _ r (f := fun s => s.recordFailure sh.now) fun _ => Or.inl rfl
  | decActive =>
      refine .of_get ?_
      rw [ProxyState.decActive, ProxyState.count_heap]
  | _ => exact .of_get rfl

end steps

/-! ## Serving -/

/-- The instance has an upstream `r` that has answered, at most `n` times. -/
structure Serving (inst : ℕ) (r : UpstreamRef) (n : ℕ) (p : Pool ProxyState Handler) : Prop where
  strategy : (p.shared.routers inst).strategy = .healthAware
  listed : r ∈ (p.shared.routers inst).upstreams
  answered : Answered p.shared.heap r
  few : (p.shared.heap.get r).stats.responsesReceived ≤ n

variable {D : Deployment} {inst : ℕ} {r : UpstreamRef}

/-- The step of a handler that records an answer of the upstream, by the handler's index. -/
def answersRecorded (r : UpstreamRef) (p : Pool ProxyState Handler) :
    Sched Event → Pool ProxyState Handler → List ℕ
  | .task i _, _ => if (p.tasks[i]?).any (fun t => t.pc.RecordsAnswer r) then [i] else []
  | .env _, _ => []

/-- A step keeps an instance serving, with the answers more that it records. -/
theorem Serving.step {n : ℕ} {q q' : Pool ProxyState Handler} {a : Sched Event}
    (h : Serving inst r n q) (hn : n + (answersRecorded r q a q').length < 2 ^ 64)
    (hstep : (machine ℚ D).step q a = some q') :
    Serving inst r (n + (answersRecorded r q a q').length) q' := by
  rcases machine_step hstep with ⟨i, e, t, sh, t', rfl, ht, hmove, rfl⟩ | ⟨ns, rfl, rfl⟩ |
    ⟨inst', req, rfl, rfl⟩
  · obtain ⟨-, hrouters, -⟩ := t.step_upstream hmove
    obtain ⟨hconfig, havailable, hanswers⟩ := Handler.step_answers hmove r
    have hone := h.answered.answers
    have hfew := h.few
    have hbounds : 1 ≤ (sh.heap.get r).stats.responsesReceived ∧
        (sh.heap.get r).stats.responsesReceived ≤
          n + (answersRecorded r q (.task i e) ⟨sh, q.tasks.set i t'⟩).length := by
      rcases hanswers with hsame | ⟨hrecorded, hmore⟩
      · rw [hsame]
        omega
      · simp only [answersRecorded, ht, Option.any_some, hrecorded, decide_true, if_true,
          List.length_singleton] at hn ⊢
        rw [hmore, wrappingAdd_eq (by omega)]
        omega
    refine ⟨(hrouters inst).2.trans h.strategy, ?_, ⟨?_, ?_, hbounds.1⟩, hbounds.2⟩
    · rw [(hrouters inst).1]
      exact h.listed
    · rw [havailable]
      exact h.answered.available
    · rw [hconfig]
      exact h.answered.weight
  · exact ⟨h.strategy, h.listed, h.answered, h.few⟩
  · exact ⟨h.strategy, h.listed, h.answered, h.few⟩

/-- A handler of a serving instance that selects finds an upstream of the instance. -/
theorem Serving.selects {n : ℕ} {q : Pool ProxyState Handler} {t t' : Handler} {sh : ProxyState}
    (h : Serving t.inst r n q) (hpc : t.pc = .selecting)
    (hmove : t.step ℚ D q.shared .step = some (sh, t')) :
    ∃ u ∈ (q.shared.routers t.inst).upstreams, t'.pc = .preparing u := by
  have hinv := t.step_inv hmove
  rw [hpc] at hinv
  cases hinv with
  | selected hselect =>
      rename_i router u
      have hsome : ((q.shared.routers t.inst).selectUpstream ℚ D.hashKey D.search q.shared.heap
          (extractSessionKey D.crate t.req)).2 = some u := by rw [hselect]
      exact ⟨u, Router.mem_of_selectUpstream hsome, rfl⟩
  | noUpstream hnone =>
      have hsome : ((q.shared.routers t.inst).selectUpstream ℚ D.hashKey D.search q.shared.heap
          (extractSessionKey D.crate t.req)).2 ≠ none :=
        selectUpstream_of_answered h.strategy h.listed h.answered _
      rw [hnone] at hsome
      exact absurd rfl hsome

/-- **An instance with an upstream that has answered refuses no request.** When an instance with
the health-aware strategy has an available upstream with a weight that has answered a request, then
in every state that any interleaving reaches from there with fewer answers of the upstream than a
word can count, a handler of the instance that selects an upstream finds one of those of the
instance, however many requests have failed. -/
theorem answered_serves {p q q' : Pool ProxyState Handler} {es : List (Sched Event)}
    (hstrategy : (p.shared.routers inst).strategy = .healthAware)
    (hr : r ∈ (p.shared.routers inst).upstreams) (hanswered : Answered p.shared.heap r)
    (hfew : (p.shared.heap.get r).stats.responsesReceived +
      ((machine ℚ D).log (answersRecorded r) p es).length < 2 ^ 64)
    (hrun : (machine ℚ D).run p es = some q) {i : ℕ} {t : Handler} (ht : q.tasks[i]? = some t)
    (hinst : t.inst = inst) (hpc : t.pc = .selecting)
    (hstep : (machine ℚ D).step q (.task i .step) = some q') :
    ∃ u ∈ (q.shared.routers inst).upstreams, ∃ t', q'.tasks[i]? = some t' ∧
      t'.pc = .preparing u := by
  have hserving : Serving inst r ((p.shared.heap.get r).stats.responsesReceived +
      ((machine ℚ D).log (answersRecorded r) p es).length) q := by
    refine (machine ℚ D).run_induction (Q := fun es q =>
      (p.shared.heap.get r).stats.responsesReceived +
          ((machine ℚ D).log (answersRecorded r) p es).length < 2 ^ 64 →
        Serving inst r ((p.shared.heap.get r).stats.responsesReceived +
          ((machine ℚ D).log (answersRecorded r) p es).length) q)
      (fun _ => ⟨hstrategy, hr, hanswered, le_rfl⟩) ?_ hrun hfew
    intro es a s s' hs ih ha hlt
    rw [(machine ℚ D).log_concat (answersRecorded r) hs ha, List.length_append,
      ← Nat.add_assoc] at hlt ⊢
    exact (ih (by omega)).step hlt ha
  rcases machine_step hstep with ⟨j, e, t₀, sh, t', hact, ht₀, hmove, rfl⟩ | ⟨ns, hact, -⟩ |
    ⟨inst', req, hact, -⟩
  · cases hact
    obtain rfl : t = t₀ := Option.some.inj (ht.symm.trans ht₀)
    subst hinst
    obtain ⟨u, hu, hchosen⟩ := hserving.selects hpc hmove
    have hlt : i < q.tasks.length := (List.getElem?_eq_some_iff.mp ht).1
    exact ⟨u, hu, t', List.getElem?_set_self hlt, hchosen⟩
  · cases hact
  · cases hact

/-- A request whose only upstream answers, until the answer is recorded. -/
def servedRequest : List (Sched Event) :=
  untilRequesting ++ [.task 0 (.responded ⟨200, ⟨[]⟩, []⟩), .task 0 .step]

/-- The next request is refused, and a third one is about to select. -/
def refusedAfterwards : List (Sched Event) :=
  .env (.request 0 exampleRequest) :: List.replicate 5 (.task 1 .step) ++
    [.task 1 (.requestFailed "refused"), .task 1 .step, .env (.request 0 exampleRequest),
      .task 2 .step, .task 2 .step]

/-- After one answer and one refused connection the third request still has its upstream. -/
theorem answered_serves_thirdRequest :
    ∃ p q q', (machine ℚ exampleDeployment).run
          (initial healthAwareUpstreams.2 healthAwareRouters) servedRequest = some p ∧
      (machine ℚ exampleDeployment).run p refusedAfterwards = some q ∧
      (machine ℚ exampleDeployment).step q (.task 2 .step) = some q' ∧
      ∃ u ∈ (q.shared.routers 0).upstreams, ∃ t', q'.tasks[2]? = some t' ∧
        t'.pc = .preparing u := by
  have hserved : ((machine ℚ exampleDeployment).run
      (initial healthAwareUpstreams.2 healthAwareRouters) servedRequest).any (fun p =>
        p.shared.heap.isAvailable 0 && (p.shared.heap.get 0).config.weight = 1 &&
          (p.shared.heap.get 0).stats.responsesReceived = 1 &&
            (machine ℚ exampleDeployment).log (answersRecorded 0) p refusedAfterwards = []) =
      true := by decide +kernel
  have hthird : ((machine ℚ exampleDeployment).run
      (initial healthAwareUpstreams.2 healthAwareRouters) (servedRequest ++ refusedAfterwards)).any
        (fun q => (q.tasks[2]?).any (fun t => t.inst = 0 && t.pc matches .selecting) &&
          ((machine ℚ exampleDeployment).step q (.task 2 .step)).isSome) = true := by
    decide +kernel
  obtain ⟨p, hp, hfacts⟩ := (Option.any_eq_true _ _).mp hserved
  obtain ⟨q, hq, hselects⟩ := (Option.any_eq_true _ _).mp hthird
  obtain ⟨p', hp', hrest⟩ := (machine ℚ exampleDeployment).run_append_eq_some.mp hq
  obtain rfl : p = p' := Option.some.inj (hp.symm.trans hp')
  simp only [Bool.and_eq_true, decide_eq_true_eq] at hfacts
  obtain ⟨⟨⟨havailable, hweight⟩, hanswers⟩, hlog⟩ := hfacts
  rw [Bool.and_eq_true] at hselects
  obtain ⟨hselecting, henabled⟩ := hselects
  obtain ⟨t, ht, hstate⟩ := (Option.any_eq_true _ _).mp hselecting
  rw [Bool.and_eq_true, decide_eq_true_eq] at hstate
  obtain ⟨q', hq'⟩ := Option.isSome_iff_exists.mp henabled
  have hlists := routers_of_run hp
  have hpc : t.pc = .selecting := by
    have hmatch := hstate.2
    split at hmatch <;> simp_all
  refine ⟨p, q, q', hp, hrest, hq', answered_serves (r := 0) (hlists 0).2 ?_
    ⟨havailable, hweight.ge, hanswers.ge⟩ ?_ hrest ht hstate.1 hpc hq'⟩
  · rw [(hlists 0).1]
    exact List.mem_singleton.mpr rfl
  · rw [hanswers, hlog]
    decide

end HarbrRouter.Proxy.Http
