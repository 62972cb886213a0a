import HarbrRouter.Lib.TaskPool
import HarbrRouter.Routing.Upstream

/-!
# The books of an upstream

What the handlers of requests and connections record in the statistics of the upstream that they
have chosen, compared with what happened to them. `Phase` is where a handler is, as far as its
upstream is concerned, and `Moves` what one of its steps may do to the phase and to the upstreams.
`Mark` is what a step leaves behind for the comparison: an upstream was chosen, a request for it has
ended in an error, or has ended with no outcome recorded.

**Theorem** (`KeepsBooks.books_of_run`): in a system whose steps are moves, what is chosen is
recorded, unrecorded or on its way, in every run. A move keeps the books of each upstream
(`Books.step`), by cases on the move: it is about this upstream, or leaves it alone
(`Books.of_same`). Two systems over the same upstreams keep the books side by side
(`KeepsBooks.sum`), since a step of one of them leaves the other's tasks alone.
-/

set_option autoImplicit false

namespace HarbrRouter.Proxy

open Transition TaskPool Routing

/-! ## Phases and marks -/

/-- Where a handler is, as far as its upstream is concerned. -/
inductive Phase where
  /-- No upstream is selected yet. -/
  | unrouted
  /-- The upstream is selected. -/
  | chosen (upstream : UpstreamRef)
  /-- Between the increment and the decrement of `active_connections`, where there are such. -/
  | counted (upstream : UpstreamRef)
  /-- The outcome is clear and not recorded yet. -/
  | leaving (upstream : UpstreamRef) (ok : Bool)
  /-- The upstream has no more part in it. -/
  | over
deriving DecidableEq

/-- What is noted of a request or connection and its upstream. -/
inductive Mark where
  | chosen (upstream : UpstreamRef)
  /-- It ended in an error after the upstream was chosen. -/
  | failed (upstream : UpstreamRef)
  /-- It ended with no outcome recorded for the upstream. -/
  | unrecorded (upstream : UpstreamRef) (ok : Bool)
deriving DecidableEq

/-- The marks of a step from one phase to another. -/
def Phase.marks : Phase → Phase → List Mark
  | .unrouted, .chosen u => [.chosen u]
  | .chosen u, .over => [.failed u, .unrecorded u false]
  | .leaving u false, .over => [.failed u]
  | _, _ => []

/-- Whoever stays where it is leaves no mark. -/
@[simp] theorem Phase.marks_self (φ : Phase) : φ.marks φ = [] := by
  cases φ with
  | leaving u ok => cases ok <;> rfl
  | _ => rfl

/-- How many are on their way with the upstream in a phase: one or none. -/
def Phase.inFlight (u : UpstreamRef) : Phase → ℕ
  | .chosen v | .counted v | .leaving v _ => if v = u then 1 else 0
  | _ => 0

/-- In a phase at most one request is on its way with an upstream. -/
theorem Phase.inFlight_le_one (u : UpstreamRef) (φ : Phase) : φ.inFlight u ≤ 1 := by
  unfold Phase.inFlight
  split
  · split_ifs
    · exact le_refl 1
    · exact Nat.zero_le 1
  · split_ifs
    · exact le_refl 1
    · exact Nat.zero_le 1
  · split_ifs
    · exact le_refl 1
    · exact Nat.zero_le 1
  · exact Nat.zero_le 1

/-- Nothing is left unrecorded but where there is no connection or request after the choice. -/
theorem Phase.unrecorded_mem_marks {φ φ' : Phase} {u : UpstreamRef} {ok : Bool} :
    .unrecorded u ok ∈ φ.marks φ' ↔ ok = false ∧ φ = .chosen u ∧ φ' = .over := by
  unfold Phase.marks
  split
  · simp
  · simp only [List.mem_cons, Mark.unrecorded.injEq, List.not_mem_nil, or_false, reduceCtorEq,
      false_or, Phase.chosen.injEq, and_true]
    constructor
    · rintro ⟨rfl, rfl⟩
      exact ⟨rfl, rfl⟩
    · rintro ⟨rfl, rfl⟩
      exact ⟨rfl, rfl⟩
  · simp
  · next hfail _ =>
      simp only [List.not_mem_nil, false_iff]
      rintro ⟨-, hφ, hφ'⟩
      exact hfail u hφ hφ'

/-- The steps that record nothing. -/
inductive Phase.Passes : Phase → Phase → Prop
  | stay (φ : Phase) : Passes φ φ
  | choose (u : UpstreamRef) : Passes .unrouted (.chosen u)
  | refuse : Passes .unrouted .over
  | fail (u : UpstreamRef) : Passes (.chosen u) .over
  | count (u : UpstreamRef) : Passes (.chosen u) (.counted u)
  | leave (u : UpstreamRef) (ok : Bool) : Passes (.chosen u) (.leaving u ok)
  | uncount (u : UpstreamRef) (ok : Bool) : Passes (.counted u) (.leaving u ok)

/-- The numbers of the statistics that the books are about. -/
def recorded (heap : Heap) (u : UpstreamRef) : ℕ × ℕ × ℕ :=
  let stats := (heap.get u).stats
  (stats.requestsSent, stats.responsesReceived, stats.failures)

/-- What a step may do to the upstreams and to the phase of its handler, with the marks that it
leaves. -/
inductive Moves : Heap → Heap → Phase → Phase → List Mark → Prop
  /-- Nothing is recorded. -/
  | pass {heap heap' : Heap} {φ φ' : Phase} (hpass : φ.Passes φ')
      (hlength : heap'.cells.length = heap.cells.length)
      (hsame : ∀ u, recorded heap' u = recorded heap u) : Moves heap heap' φ φ' (φ.marks φ')
  /-- All went well, and nobody says so. -/
  | forget {heap : Heap} (u : UpstreamRef) : Moves heap heap (.chosen u) .over [.unrecorded u true]
  | success {heap : Heap} (u : UpstreamRef) (responseTime now : ℕ) :
      Moves heap (heap.modify u fun info =>
        { info with stats := info.stats.recordSuccess responseTime now }) (.leaving u true) .over []
  | failure {heap : Heap} (u : UpstreamRef) (now : ℕ) :
      Moves heap (heap.modify u fun info =>
        { info with stats := info.stats.recordFailure now }) (.leaving u false) .over [.failed u]
  /-- Several of them at once. -/
  | seq {heap heap₁ heap₂ : Heap} {φ φ₁ φ₂ : Phase} {marks₁ marks₂ : List Mark}
      (h₁ : Moves heap heap₁ φ φ₁ marks₁) (h₂ : Moves heap₁ heap₂ φ₁ φ₂ marks₂) :
      Moves heap heap₂ φ φ₂ (marks₁ ++ marks₂)

/-- A step that leaves the upstreams alone. -/
theorem Moves.quiet {heap heap' : Heap} {φ φ' : Phase} (hpass : φ.Passes φ')
    (hheap : heap' = heap) : Moves heap heap' φ φ' (φ.marks φ') := by
  subst hheap
  exact .pass hpass rfl fun _ => rfl

/-- No step adds or removes upstreams. -/
theorem Moves.length {heap heap' : Heap} {φ φ' : Phase} {marks : List Mark}
    (h : Moves heap heap' φ φ' marks) : heap'.cells.length = heap.cells.length := by
  induction h with
  | pass _ hlength => exact hlength
  | forget => rfl
  | success | failure => simp [Heap.modify]
  | seq _ _ ih₁ ih₂ => exact ih₂.trans ih₁

/-! ## The books -/

/-- The accounting of an upstream as it should be, once nothing is in flight. -/
def Accounted (u : UpstreamRef) (heap : Heap) (log : List Mark) : Prop :=
  (heap.get u).stats.requestsSent = log.count (.chosen u) ∧
    (heap.get u).stats.failures = log.count (.failed u) ∧
    (heap.get u).stats.requestsSent =
      (heap.get u).stats.responsesReceived + (heap.get u).stats.failures

/-- The books of an upstream, with so many on their way with it. -/
structure Books (u : UpstreamRef) (heap : Heap) (inFlight : ℕ) (log : List Mark) : Prop where
  /-- What was chosen is recorded, unrecorded or in flight. -/
  chosen : (heap.get u).stats.requestsSent + log.count (.unrecorded u true) +
    log.count (.unrecorded u false) + inFlight = log.count (.chosen u)
  /-- What has failed is recorded or unrecorded. -/
  failed : (heap.get u).stats.failures + log.count (.unrecorded u false) = log.count (.failed u)
  balanced : (heap.get u).stats.requestsSent =
    (heap.get u).stats.responsesReceived + (heap.get u).stats.failures

/-- With nothing in flight, the accounting is right exactly when nothing was left unrecorded. -/
theorem Books.accounted_iff {u : UpstreamRef} {heap : Heap} {log : List Mark}
    (h : Books u heap 0 log) : Accounted u heap log ↔ ∀ ok, .unrecorded u ok ∉ log := by
  have hchosen := h.chosen
  have hfailed := h.failed
  have hnone : (∀ ok, Mark.unrecorded u ok ∉ log) ↔
      log.count (.unrecorded u true) = 0 ∧ log.count (.unrecorded u false) = 0 := by
    rw [List.count_eq_zero, List.count_eq_zero, Bool.forall_bool, and_comm]
  unfold Accounted
  rw [hnone]
  constructor
  · rintro ⟨hsent, -, -⟩
    omega
  · rintro ⟨htrue, hfalse⟩
    exact ⟨by omega, by omega, h.balanced⟩

/-- A step that records nothing: whoever has an upstream before or after it has chosen it now, ends
without a record, or keeps it. -/
theorem Phase.Passes.count_marks {φ φ' : Phase} (h : φ.Passes φ') (u : UpstreamRef) :
    (φ.marks φ').count (.unrecorded u true) = 0 ∧
      (φ.marks φ').count (.unrecorded u false) = (φ.marks φ').count (.failed u) ∧
      (φ.marks φ').count (.unrecorded u false) + φ'.inFlight u =
        (φ.marks φ').count (.chosen u) + φ.inFlight u := by
  cases h with
  | stay => simp
  | refuse => simp [Phase.marks, Phase.inFlight]
  | choose v | fail v | count v | leave v ok | uncount v ok =>
      by_cases hv : v = u
      · simp [Phase.marks, Phase.inFlight, hv]
      · simp [Phase.marks, Phase.inFlight, hv]

/-- Records of another upstream leave the books alone. -/
theorem Books.of_same {u : UpstreamRef} {heap heap' : Heap} {inFlight : ℕ} {log marks : List Mark}
    (h : Books u heap inFlight log) (hsame : (heap'.get u).stats = (heap.get u).stats)
    (hnone : ∀ m ∈ marks, ∃ v, v ≠ u ∧ m = .failed v) : Books u heap' inFlight (log ++ marks) := by
  have hzero : ∀ m, (∀ v, v ≠ u → m ≠ .failed v) → marks.count m = 0 := by
    intro m hm
    rw [List.count_eq_zero]
    intro hmem
    obtain ⟨v, hv, rfl⟩ := hnone m hmem
    exact hm v hv rfl
  have hchosen := hzero (.chosen u) (by simp)
  have htrue := hzero (.unrecorded u true) (by simp)
  have hfalse := hzero (.unrecorded u false) (by simp)
  have hfailed := hzero (.failed u) fun v hv heq => hv (Mark.failed.inj heq).symm
  refine ⟨?_, ?_, ?_⟩
  · rw [hsame, List.count_append, List.count_append, List.count_append, hchosen, htrue, hfalse]
    exact h.chosen
  · rw [hsame, List.count_append, List.count_append, hfailed, hfalse]
    exact h.failed
  · rw [hsame]
    exact h.balanced

/-- **A step keeps the books**, as long as no counter overflows. -/
theorem Books.step {u : UpstreamRef} {heap heap' : Heap} {others : ℕ} {log marks : List Mark}
    {φ φ' : Phase} (hmoves : Moves heap heap' φ φ' marks)
    (h : Books u heap (others + φ.inFlight u) log) (hu : u < heap.cells.length)
    (hbound : (log ++ marks).count (.chosen u) < 2 ^ 64) :
    Books u heap' (others + φ'.inFlight u) (log ++ marks) := by
  induction hmoves generalizing log with
  | @pass heap heap' φ φ' hpass hlength hsame =>
      obtain ⟨hsent, hreceived, hfailures⟩ :
          (heap'.get u).stats.requestsSent = (heap.get u).stats.requestsSent ∧
          (heap'.get u).stats.responsesReceived = (heap.get u).stats.responsesReceived ∧
          (heap'.get u).stats.failures = (heap.get u).stats.failures := by
        simpa [recorded] using hsame u
      have hchosen := h.chosen
      have hfailed := h.failed
      have hbalanced := h.balanced
      obtain ⟨hnone, herror, hmarks⟩ := hpass.count_marks u
      refine ⟨?_, ?_, ?_⟩
      · rw [List.count_append, List.count_append, List.count_append]
        omega
      · rw [List.count_append, List.count_append]
        omega
      · omega
  | @forget heap v =>
      have hchosen := h.chosen
      have hfailed := h.failed
      have hbalanced := h.balanced
      by_cases hv : v = u
      · subst hv
        have hone : Phase.inFlight v (.chosen v) = 1 := if_pos rfl
        have hnone : Phase.inFlight v .over = 0 := rfl
        rw [hone] at hchosen
        refine ⟨?_, ?_, ?_⟩
        · simp [hnone, List.count_append]
          omega
        · simpa [List.count_append] using hfailed
        · exact hbalanced
      · have hsame : Phase.inFlight u (.chosen v) = Phase.inFlight u .over := if_neg hv
        refine ⟨?_, ?_, ?_⟩
        · simpa [← hsame, List.count_append, hv] using hchosen
        · simpa [List.count_append, hv] using hfailed
        · exact hbalanced
  | @success heap v responseTime now =>
      by_cases hv : v = u
      · subst hv
        have hchosen := h.chosen
        have hfailed := h.failed
        have hbalanced := h.balanced
        have hone : Phase.inFlight v (.leaving v true) = 1 := if_pos rfl
        have hnone : Phase.inFlight v .over = 0 := rfl
        rw [hone] at hchosen
        rw [List.append_nil] at hbound ⊢
        have hsent := wrappingAdd_eq (show (heap.get v).stats.requestsSent + 1 < 2 ^ 64 by omega)
        have hreceived :=
          wrappingAdd_eq (show (heap.get v).stats.responsesReceived + 1 < 2 ^ 64 by omega)
        refine ⟨?_, ?_, ?_⟩
        all_goals
          simp only [Heap.get_modify_self hu, UpstreamStats.recordSuccess, hsent, hreceived, hnone]
          omega
      · have hsame : Phase.inFlight u (.leaving v true) = Phase.inFlight u .over := if_neg hv
        rw [hsame] at h
        refine h.of_same ?_ fun m hm => absurd hm List.not_mem_nil
        rw [Heap.get_modify_of_ne hv]
  | @failure heap v now =>
      by_cases hv : v = u
      · subst hv
        have hchosen := h.chosen
        have hfailed := h.failed
        have hbalanced := h.balanced
        have hone : Phase.inFlight v (.leaving v false) = 1 := if_pos rfl
        have hnone : Phase.inFlight v .over = 0 := rfl
        rw [hone] at hchosen
        have hsame : (log ++ [Mark.failed v]).count (.chosen v) = log.count (.chosen v) := by
          simp [List.count_append]
        rw [hsame] at hbound
        have hsent := wrappingAdd_eq (show (heap.get v).stats.requestsSent + 1 < 2 ^ 64 by omega)
        have hfailures := wrappingAdd_eq (show (heap.get v).stats.failures + 1 < 2 ^ 64 by omega)
        refine ⟨?_, ?_, ?_⟩
        all_goals
          simp [Heap.get_modify_self hu, UpstreamStats.recordFailure, hsent, hfailures, hnone,
            List.count_append]
          omega
      · have hsame : Phase.inFlight u (.leaving v false) = Phase.inFlight u .over := if_neg hv
        rw [hsame] at h
        refine h.of_same ?_ fun m hm => ⟨v, hv, List.mem_singleton.mp hm⟩
        rw [Heap.get_modify_of_ne hv]
  | @seq heap heap₁ heap₂ φ φ₁ φ₂ marks₁ marks₂ h₁ h₂ ih₁ ih₂ =>
      rw [← List.append_assoc] at hbound ⊢
      have hle := (List.sublist_append_left (log ++ marks₁) marks₂).count_le (.chosen u)
      exact ih₂ (ih₁ h hu (by omega)) (by rwa [h₁.length]) hbound

/-! ## Runs -/

section run

variable {Sh T E : Type}

/-- Every step of the tasks of a system is one of the moves, and the tasks that come in have no
upstream yet. -/
structure KeepsBooks (S : System Sh T E) (heapOf : Sh → Heap) (phase : T → Phase)
    (marks : Sh → T → E → T → List Mark) : Prop where
  act {tasks : List T} {sh sh' : Sh} {t t' : T} {e : E} {new : List T}
    (h : S.act tasks sh t e = some (sh', t', new)) :
    Moves (heapOf sh) (heapOf sh') (phase t) (phase t') (marks sh t e t') ∧
      ∀ u ∈ new, phase u = .unrouted
  env {sh sh' : Sh} {e : E} {new : List T} (h : S.env sh e = some (sh', new)) :
    heapOf sh' = heapOf sh ∧ ∀ u ∈ new, phase u = .unrouted

/-- A system keeps the books also as a part of a larger one. -/
theorem KeepsBooks.within {Sh' : Type} {S : System Sh T E} {heapOf : Sh → Heap} {phase : T → Phase}
    {marks : Sh → T → E → T → List Mark} (h : KeepsBooks S heapOf phase marks) {get : Sh' → Sh}
    {put : Sh' → Sh → Sh'} {heapOf' : Sh' → Heap} (hget : ∀ sh, heapOf (get sh) = heapOf' sh)
    (hput : ∀ sh sh', heapOf' (put sh sh') = heapOf sh') :
    KeepsBooks (S.within get put) heapOf' phase fun sh => marks (get sh) where
  act := by
    intro tasks sh sh' t t' e new hact
    obtain ⟨sh₁, hpart, rfl⟩ := System.within_act hact
    rw [hput, ← hget]
    exact h.act hpart
  env := by
    intro sh sh' e new henv
    obtain ⟨sh₁, hpart, rfl⟩ := System.within_env henv
    rw [hput, ← hget]
    exact h.env hpart

/-- The marks of two systems side by side. -/
def sumMarks {T₁ T₂ E₁ E₂ : Type} (marks₁ : Sh → T₁ → E₁ → T₁ → List Mark)
    (marks₂ : Sh → T₂ → E₂ → T₂ → List Mark) (sh : Sh) :
    T₁ ⊕ T₂ → E₁ ⊕ E₂ → T₁ ⊕ T₂ → List Mark
  | .inl t, .inl e, .inl t' => marks₁ sh t e t'
  | .inr t, .inr e, .inr t' => marks₂ sh t e t'
  | _, _, _ => []

/-- Two systems over the same upstreams keep the books if each of them does. -/
theorem KeepsBooks.sum {T₁ T₂ E₁ E₂ : Type} {S₁ : System Sh T₁ E₁} {S₂ : System Sh T₂ E₂}
    {heapOf : Sh → Heap} {phase₁ : T₁ → Phase} {phase₂ : T₂ → Phase}
    {marks₁ : Sh → T₁ → E₁ → T₁ → List Mark} {marks₂ : Sh → T₂ → E₂ → T₂ → List Mark}
    (h₁ : KeepsBooks S₁ heapOf phase₁ marks₁) (h₂ : KeepsBooks S₂ heapOf phase₂ marks₂) :
    KeepsBooks (S₁.sum S₂) heapOf (Sum.elim phase₁ phase₂) (sumMarks marks₁ marks₂) where
  act := by
    intro tasks sh sh' t t' e new hact
    rcases System.sum_act_cases hact with ⟨t, e, t', new, rfl, rfl, rfl, rfl, hpart⟩ |
      ⟨t, e, t', new, rfl, rfl, rfl, rfl, hpart⟩
    · obtain ⟨hmoves, hnew⟩ := h₁.act hpart
      exact ⟨hmoves, by simpa using hnew⟩
    · obtain ⟨hmoves, hnew⟩ := h₂.act hpart
      exact ⟨hmoves, by simpa using hnew⟩
  env := by
    intro sh sh' e new henv
    rcases System.sum_env_cases henv with ⟨e, new, rfl, rfl, hpart⟩ | ⟨e, new, rfl, rfl, hpart⟩
    · obtain ⟨hheap, hnew⟩ := h₁.env hpart
      exact ⟨hheap, by simpa using hnew⟩
    · obtain ⟨hheap, hnew⟩ := h₂.env hpart
      exact ⟨hheap, by simpa using hnew⟩

/-- The marks of a step of the machine: those of the task that moves. -/
def stepMarks (marks : Sh → T → E → T → List Mark) (p : Pool Sh T) (a : Sched E)
    (p' : Pool Sh T) : List Mark :=
  match a with
  | .task i e =>
      match p.tasks[i]?, p'.tasks[i]? with
      | some t, some t' => marks p.shared t e t'
      | _, _ => []
  | .env _ => []

/-- The marks of a task's step are those of the task. -/
theorem stepMarks_task (marks : Sh → T → E → T → List Mark) {p : Pool Sh T} {i : ℕ} {t : T}
    (ht : p.tasks[i]? = some t) (e : E) (sh : Sh) (t' : T) (new : List T) :
    stepMarks marks p (.task i e) ⟨sh, p.tasks.set i t' ++ new⟩ = marks p.shared t e t' := by
  simp only [stepMarks, ht, getElem?_set_append_self ht t' new]

/-- The number of tasks on their way with the upstream. -/
def inFlight (phase : T → Phase) (u : UpstreamRef) (ts : List T) : ℕ :=
  ts.countP fun t => (phase t).inFlight u = 1

/-- New tasks are not on their way. -/
theorem inFlight_of_unrouted (phase : T → Phase) (u : UpstreamRef) {new : List T}
    (hnew : ∀ t ∈ new, phase t = .unrouted) : inFlight phase u new = 0 := by
  unfold inFlight
  rw [List.countP_eq_zero]
  intro t ht
  rw [hnew t ht]
  exact Bool.false_ne_true

/-- The number changes by the task that moves. -/
theorem inFlight_set_append (phase : T → Phase) (u : UpstreamRef) {ts new : List T} {i : ℕ} {t : T}
    (ht : ts[i]? = some t) (t' : T) (hnew : ∀ v ∈ new, phase v = .unrouted) :
    inFlight phase u (ts.set i t' ++ new) + (phase t).inFlight u =
      inFlight phase u ts + (phase t').inFlight u := by
  have hcount := countP_set_append (fun t => decide ((phase t).inFlight u = 1)) ht t' new
  have hone : ∀ φ : Phase, (if decide (φ.inFlight u = 1) = true then 1 else 0) = φ.inFlight u := by
    intro φ
    have hle := φ.inFlight_le_one u
    split_ifs with h
    · exact (of_decide_eq_true h).symm
    · have hne : φ.inFlight u ≠ 1 := fun heq => h (decide_eq_true heq)
      omega
  have hnone := inFlight_of_unrouted phase u hnew
  unfold inFlight at hnone
  rw [hone, hone, hnone] at hcount
  exact hcount

/-- **The books of any system.** In every run of a system that keeps the books, from no tasks and
fresh statistics, the books of every upstream are kept. -/
theorem KeepsBooks.books_of_run {S : System Sh T E} {heapOf : Sh → Heap} {phase : T → Phase}
    {marks : Sh → T → E → T → List Mark} (hkeeps : KeepsBooks S heapOf phase marks)
    {p p' : Pool Sh T} {es : List (Sched E)} (hrun : S.machine.run p es = some p')
    (hempty : p.tasks = []) {u : UpstreamRef} (hu : u < (heapOf p.shared).cells.length)
    (hfresh : recorded (heapOf p.shared) u = (0, 0, 0))
    (hbound : (S.machine.log (stepMarks marks) p es).count (.chosen u) < 2 ^ 64) :
    Books u (heapOf p'.shared) (inFlight phase u p'.tasks)
      (S.machine.log (stepMarks marks) p es) := by
  have hall := S.machine.run_induction (Q := fun es q =>
    (S.machine.log (stepMarks marks) p es).count (.chosen u) < 2 ^ 64 →
    Books u (heapOf q.shared) (inFlight phase u q.tasks) (S.machine.log (stepMarks marks) p es) ∧
      (heapOf q.shared).cells.length = (heapOf p.shared).cells.length) ?_ ?_ hrun hbound
  · exact hall.1
  · intro _
    obtain ⟨hsent, hreceived, hfailures⟩ : (heapOf p.shared |>.get u).stats.requestsSent = 0 ∧
        (heapOf p.shared |>.get u).stats.responsesReceived = 0 ∧
        (heapOf p.shared |>.get u).stats.failures = 0 := by
      simpa [recorded] using hfresh
    refine ⟨⟨?_, ?_, ?_⟩, rfl⟩
    · simp [Machine.log, inFlight, hempty, hsent]
    · simp [Machine.log, hfailures]
    · omega
  · intro es a q q' hq ih hstep hbound
    rw [S.machine.log_concat _ hq hstep] at hbound ⊢
    obtain ⟨hbooks, hlength⟩ := ih (by rw [List.count_append] at hbound; omega)
    rcases S.step_cases hstep with ⟨i, e, t, sh, t', new, rfl, ht, hact, rfl⟩ |
      ⟨e, sh, new, rfl, henv, rfl⟩
    · obtain ⟨hmoves, hnew⟩ := hkeeps.act hact
      have hcount := inFlight_set_append phase u ht t' hnew
      -- whoever else is on its way stays so
      obtain ⟨others, hothers⟩ : ∃ others,
          inFlight phase u q.tasks = others + (phase t).inFlight u := by
        refine ⟨inFlight phase u q.tasks - (phase t).inFlight u, ?_⟩
        have hpos : (phase t).inFlight u = 1 → 0 < inFlight phase u q.tasks := fun hone =>
          List.countP_pos_iff.mpr ⟨t, List.mem_of_getElem? ht, decide_eq_true hone⟩
        have hle := (phase t).inFlight_le_one u
        omega
      have hafter : inFlight phase u (q.tasks.set i t' ++ new) =
          others + (phase t').inFlight u := by omega
      rw [stepMarks_task marks ht] at hbound ⊢
      rw [hothers] at hbooks
      refine ⟨?_, hmoves.length.trans hlength⟩
      rw [hafter]
      exact Books.step hmoves hbooks (by rwa [hlength]) hbound
    · obtain ⟨hheap, hnew⟩ := hkeeps.env henv
      have hnone : inFlight phase u (q.tasks ++ new) = inFlight phase u q.tasks := by
        have hadd : inFlight phase u (q.tasks ++ new) = inFlight phase u q.tasks +
            inFlight phase u new := List.countP_append
        rw [hadd, inFlight_of_unrouted phase u hnew, Nat.add_zero]
      rw [hheap]
      refine ⟨?_, hlength⟩
      rw [hnone, stepMarks, List.append_nil]
      exact hbooks

end run

end HarbrRouter.Proxy
