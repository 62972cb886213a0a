import HarbrRouter.Routing.Concurrent

/-!
# Selections beside concurrent updates

What `select_upstream(Some(key))` answers while other calls change the list and the health. An
update changes first and rebuilds the ring later, so that a lookup in between reads a ring that does
not know the change yet.

**Theorem** (`select_correct`): in a run in which no lookup reads a stale ring, each selection
answers an upstream that was listed and available at some instant of the call, and `None` only if
there was none. A selection returns in one step, with the list empty or with a lookup
(`selected_step`). With the ring in step the answer is right at the instant of the lookup
(`correctAnswer_of_step`), which is one of the call's, and what is true of the instants of a call
stays true as the run goes on (`CorrectAnswer.append`).
-/

set_option autoImplicit false

namespace HarbrRouter.Routing.Concurrent

open Transition TaskPool PointRing

section

variable (hashKey : String → U64) (search : BinarySearch U64)

/-- The selection at position `j` has begun and has not returned. -/
def InFlight (j : ℕ) (p : Pool Shared Task) : Prop :=
  ∃ key, p.tasks[j]? = some (.readSelection key) ∨ p.tasks[j]? = some (.lookup key)

/-- An instant of the selection at position `j`: a state of the run in which it is in flight. -/
def Instant (es : List (Sched Event)) (j : ℕ) (p : Pool Shared Task) : Prop :=
  (∃ n, (machine hashKey search).run initial (es.take n) = some p) ∧ InFlight j p

/-- What a selection may answer: an upstream that was in the list and available at some instant of
the call, or `None` if at some instant of the call no upstream of the list was available. -/
structure CorrectAnswer (es : List (Sched Event)) (j : ℕ) (answer : Option UpstreamRef) : Prop where
  some : ∀ r, answer = some r → ∃ p, Instant hashKey search es j p ∧
    r ∈ p.shared.upstreams ∧ p.shared.heap.isAvailable r = true
  none : answer = none → ∃ p, Instant hashKey search es j p ∧
    ∀ r ∈ p.shared.upstreams, p.shared.heap.isAvailable r = false

/-- The condition on a step: if it looks up the ring, then no call is between its change and the end
of its rebuild, or the ring is in step all the same. -/
def FreshLookup (p : Pool Shared Task) (e : Sched Event) : Prop :=
  ∀ i key, e = .task i .step → p.tasks[i]? = some (.lookup key) →
    (∀ t ∈ p.tasks, t.unsettled = false) ∨ InSync hashKey p.shared

variable {hashKey search}

/-- The instants of a call stay what they are when the run goes on. -/
theorem CorrectAnswer.append {es : List (Sched Event)} {j : ℕ} {answer : Option UpstreamRef}
    (h : CorrectAnswer hashKey search es j answer) (fs : List (Sched Event)) :
    CorrectAnswer hashKey search (es ++ fs) j answer := by
  have hinstant : ∀ p, Instant hashKey search es j p → Instant hashKey search (es ++ fs) j p := by
    rintro p ⟨⟨n, hn⟩, hp⟩
    refine ⟨⟨min n es.length, ?_⟩, hp⟩
    rwa [List.take_append_of_le_length (min_le_right _ _), ← List.take_eq_take_min]
  constructor
  · intro r hr
    obtain ⟨p, hp, hrest⟩ := h.some r hr
    exact ⟨p, hinstant p hp, hrest⟩
  · intro hnone
    obtain ⟨p, hp, hrest⟩ := h.none hnone
    exact ⟨p, hinstant p hp, hrest⟩

/-- A step at which a selection returns: the list was empty, or the ring was looked up. -/
theorem selected_step {tasks : List Task} {sh sh' : Shared} {t : Task} {answer : Option UpstreamRef}
    (h : t.step hashKey search tasks sh = some (sh', .selected answer)) :
    (∃ key, t = .readSelection key ∧ sh.upstreams = [] ∧ answer = none) ∨
      ∃ key, t = .lookup key ∧
        answer = Router.selectConsistentHash hashKey search sh.hashRing sh.upstreams key := by
  cases t with
  | readSelection key =>
      simp only [Task.step] at h
      split_ifs at h with hempty
      · obtain ⟨-, heq⟩ := Prod.mk.inj (Option.some.inj h)
        exact Or.inl ⟨key, rfl, by simpa using hempty, (Task.selected.inj heq).symm⟩
      · simp at h
  | lookup key =>
      simp only [Task.step] at h
      split_ifs at h
      obtain ⟨-, heq⟩ := Prod.mk.inj (Option.some.inj h)
      exact Or.inr ⟨key, rfl, (Task.selected.inj heq).symm⟩
  | storeList configs now =>
      simp only [Task.step] at h
      split_ifs at h
      simp at h
  | findUpstream name state now =>
      simp only [Task.step] at h
      split at h <;> simp at h
  | lockRing =>
      simp only [Task.step] at h
      split_ifs at h
      simp at h
  | rebuilding idx =>
      simp only [Task.step] at h
      split at h <;> simp at h
  | _ => simp [Task.step] at h

/-- The answer of a step that looks up the ring is right at the instant of the step. -/
theorem correctAnswer_of_step {es : List (Sched Event)} {p : Pool Shared Task} {i : ℕ} {t : Task}
    {sh : Shared} {answer : Option UpstreamRef}
    (hrun : (machine hashKey search).run initial es = some p) (ht : p.tasks[i]? = some t)
    (hstep : t.step hashKey search p.tasks p.shared = some (sh, .selected answer))
    (hfresh : FreshLookup hashKey p (.task i .step)) :
    CorrectAnswer hashKey search es i answer := by
  have hnow : InFlight i p → Instant hashKey search es i p := fun h =>
    ⟨⟨es.length, by rwa [List.take_length]⟩, h⟩
  rcases selected_step hstep with ⟨key, rfl, hempty, rfl⟩ | ⟨key, rfl, rfl⟩
  · refine ⟨fun r hr => by simp at hr, fun _ => ⟨p, hnow ⟨key, Or.inl ht⟩, fun r hr => ?_⟩⟩
    rw [hempty] at hr
    exact absurd hr List.not_mem_nil
  · have hsync : InSync hashKey p.shared := by
      rcases hfresh i key rfl ht with hsettled | hsync
      · exact inSync_of_settled hrun hsettled
      · exact hsync
    obtain ⟨hsome, hnone⟩ := Router.selectConsistentHash_spec hashKey search (.new 150)
      (by decide) hsync key
    exact ⟨fun r hr => ⟨p, hnow ⟨key, Or.inr ht⟩, hsome r hr⟩,
      fun h => ⟨p, hnow ⟨key, Or.inr ht⟩, hnone h⟩⟩

/-- **Selections that do not read a stale ring are right.** In every interleaving in which every
lookup of the ring happens while no call is between its change and the end of its rebuild (or finds
the ring in step all the same), each selection that has returned answered an upstream that was in
the list and available at some instant of the call, and answered `None` only if at some instant of
the call no upstream of the list was available. -/
theorem select_correct {es : List (Sched Event)} {p : Pool Shared Task}
    (hrun : (machine hashKey search).run initial es = some p)
    (hfresh : (machine hashKey search).Along (FreshLookup hashKey) initial es) {j : ℕ}
    {answer : Option UpstreamRef} (hj : p.tasks[j]? = some (.selected answer)) :
    CorrectAnswer hashKey search es j answer := by
  refine (machine hashKey search).run_induction
    (Q := fun es p => (machine hashKey search).Along (FreshLookup hashKey) initial es →
      ∀ j answer, p.tasks[j]? = some (.selected answer) → CorrectAnswer hashKey search es j answer)
    ?_ ?_ hrun hfresh j answer hj
  · intro _ j answer hj
    simp [initial] at hj
  · intro es e q q' hq ih hstep hfresh j answer hj
    have hold : ∀ k, q.tasks[k]? = some (.selected answer) →
        CorrectAnswer hashKey search (es ++ [e]) k answer := fun k hk =>
      (ih hfresh.of_append k answer hk).append [e]
    have hnow : FreshLookup hashKey q e :=
      (machine hashKey search).along_iff.mp hfresh es e [] rfl q hq
    rcases machine_step hstep with ⟨i, t, sh, t', rfl, ht, htask, rfl⟩ | ⟨c, rfl, rfl⟩
    · rcases getElem?_set_append hj with ⟨rfl, rfl⟩ | ⟨-, hj⟩ | ⟨-, hj⟩
      · exact (correctAnswer_of_step hq ht htask hnow).append _
      · exact hold j hj
      · exact absurd hj List.not_mem_nil
    · by_cases hlt : j < q.tasks.length
      · exact hold j (by rwa [List.getElem?_append_left hlt] at hj)
      · rw [List.getElem?_append_right (not_lt.mp hlt)] at hj
        have hstart := List.mem_singleton.mp (List.mem_of_getElem? hj)
        cases c <;> exact absurd hstart (by simp [Call.start])

end

/-! ## A stale ring -/

/-- The list is installed and the ring built; then a report makes `a` unhealthy and has not rebuilt
the ring yet when a selection comes in. -/
def staleLookup : List (Sched Event) :=
  [.env (.call (.updateUpstreams [upstreamA] 0)), .task 0 .step, .task 0 .step, .task 0 .step,
    .task 0 .step, .task 0 .step, .env (.call (.updateUpstreamHealth "a" .unhealthy 1)),
    .task 1 .step, .task 1 .step, .env (.call (.selectUpstream "k")), .task 2 .step, .task 2 .step]

/-- The selection is given `a`, which is available at no instant of the call. -/
theorem stale_selection :
    ∃ p, (machine (fun _ => 0) (BinarySearch.linear U64)).run initial staleLookup = some p ∧
      p.tasks[2]? = some (.selected (some 0)) ∧
      ¬ CorrectAnswer (fun _ => 0) (BinarySearch.linear U64) staleLookup 2 (some 0) := by
  have hend : ((machine (fun _ => 0) (BinarySearch.linear U64)).run initial staleLookup).map
      (fun p => p.tasks[2]?) = some (some (.selected (some 0))) := by decide +kernel
  -- the states of the run, one for each length of a prefix
  have hinstants : ∀ n ≤ 12,
      ((machine (fun _ => 0) (BinarySearch.linear U64)).run initial (staleLookup.take n)).all
        (fun q => q.tasks.length ≤ 2 || !q.shared.heap.isAvailable 0) = true := by decide +kernel
  obtain ⟨p, hp, hanswer⟩ := Option.map_eq_some_iff.mp hend
  refine ⟨p, hp, hanswer, fun hcorrect => ?_⟩
  obtain ⟨q, ⟨⟨n, hn⟩, key, hflight⟩, -, hav⟩ := hcorrect.some 0 rfl
  have hlen : 2 < q.tasks.length := by
    rcases hflight with h | h <;> exact (List.getElem?_eq_some_iff.mp h).1
  have hcheck := hinstants (min n 12) (min_le_right _ _)
  rw [show staleLookup.take (min n 12) = staleLookup.take n from
    (List.take_eq_take_min (l := staleLookup)).symm, hn] at hcheck
  simp [not_le.mpr hlen, hav] at hcheck

/-- The two upstreams again, with a selection after the ring is built. -/
def freshLookup : List (Sched Event) :=
  [.env (.call (.updateUpstreams [upstreamA] 0)), .task 0 .step, .task 0 .step, .task 0 .step,
    .task 0 .step, .task 0 .step, .env (.call (.selectUpstream "k")), .task 1 .step, .task 1 .step]

/-- A lookup after the end of the rebuild answers right. -/
theorem select_correct_freshLookup :
    CorrectAnswer (fun _ => 0) (BinarySearch.linear U64) freshLookup 1 (some 0) := by
  have hend : ((machine (fun _ => 0) (BinarySearch.linear U64)).run initial freshLookup).map
      (fun p => p.tasks[1]?) = some (some (.selected (some 0))) := by decide +kernel
  -- a state has no unfinished change, or no task at a lookup
  have hstates : ∀ n ≤ 9,
      ((machine (fun _ => 0) (BinarySearch.linear U64)).run initial (freshLookup.take n)).all
        (fun q => q.tasks.all (fun t => !t.unsettled) ||
          q.tasks.all fun t => t.unsettled || !t.holdsList) = true := by decide +kernel
  obtain ⟨p, hp, hanswer⟩ := Option.map_eq_some_iff.mp hend
  refine select_correct hp ((machine _ _).along_of_take fun n hn q hq e i key _ hlookup => ?_)
    hanswer
  have hq' := hstates n hn
  rw [hq] at hq'
  rcases Bool.or_eq_true_iff.mp hq' with h | h
  · exact Or.inl fun t ht => by simpa using List.all_eq_true.mp h t ht
  · have hno := List.all_eq_true.mp h _ (List.mem_of_getElem? hlookup)
    exact absurd hno (by simp [Task.unsettled, Task.pending, Task.holdsRing, Task.holdsList])

end HarbrRouter.Routing.Concurrent
