import HarbrRouter.Proxy.TcpPoolLocks

/-!
# Who has a pooled stream

The streams of the connection pools over any interleaving of gets and returns: where each is, how
often it is handed out, and what becomes of it.

**Theorem** (`pools_safe`): in every state of every run no pool has more than a hundred connections,
every stream is in one place, and the logs of the run are right (`Safe`). The logs are read off the
states before and after each step, not off the code that moves: what is pooled after the step and
was not before (`returnedIn`), what a call returns after it (`handedOutIn`), and what was in the
pools before it and is neither pooled nor with a call after it (`discardedIn`).

The proof counts the places of a stream, entries of queues and calls that have it. A step never adds
to them except for a stream that it connects, which has a new number (`TaskStep.places`), so there
is one at most (`places_le_one`). Inside the pools the count changes by what comes in and what a
call returns, unless a get finds its connection expired (`TaskStep.moves`); since there was no other
place the stream is then nowhere, and that is the only way to be discarded (`step_moves`). Summed
over the run this is `count_returned`, from which the bounds on the hand-overs follow. What is
handed out was valid a moment ago, and an entry bears the instant at which it came in
(`returned_of_inPools`), so the return was recent (`handedOut_recent`). The bound on the queues
rests on the lock: the size check and the push are two steps, between which nobody else changes the
pools (`step_bounded`). So does the end of the loop (`loop_steps_le`): no other call adds to the
queue that the loop empties.
-/

set_option autoImplicit false

namespace HarbrRouter.Proxy.Tcp.Locks

open Transition TaskPool Queues

variable {parse : ParseAddr} {ts new : List Task} {sh sh' : Shared} {t t' : Task} {e : Event}
  {es : List (Sched Event)} {p : Pool Shared Task}

/-! ## Where a stream is -/

/-- How many pooled connections have the stream. -/
def pooledTimes (sh : Shared) (stream : ℕ) : ℕ :=
  (all sh.connectionPools).countP fun c => c.stream = stream

/-- Does the call or its caller have the stream? -/
def owns (stream : ℕ) (t : Task) : Bool := t.owned = some stream

/-- In how many places a stream is: entries of queues, and calls or callers that have it. -/
def places (p : Pool Shared Task) (stream : ℕ) : ℕ :=
  pooledTimes p.shared stream + p.tasks.countP (owns stream)

/-- A step moves streams from place to place, drops them, or connects a new one. -/
theorem TaskStep.places (h : TaskStep parse ts sh t e sh' t' new) :
    (sh'.streams = sh.streams ∧ ∀ stream,
        pooledTimes sh' stream + (if owns stream t' then 1 else 0) + new.countP (owns stream) ≤
          pooledTimes sh stream + (if owns stream t then 1 else 0)) ∨
      ∃ s, sh'.streams = sh.streams ++ [s] ∧ sh'.connectionPools = sh.connectionPools ∧
        t'.owned = some sh.streams.length ∧ new = [] := by
  cases h with
  | pop hqueue =>
      refine Or.inl ⟨rfl, fun stream => ?_⟩
      have h := countP_insert_tail hqueue fun c => c.stream = stream
      simpa [pooledTimes, owns, Task.owned] using h.le
  | @entry config name =>
      refine Or.inl ⟨rfl, fun stream => ?_⟩
      have h := countP_insert_queue sh.connectionPools name fun c => c.stream = stream
      simpa [pooledTimes, owns, Task.owned] using h.le
  | @push config name s =>
      refine Or.inl ⟨rfl, fun stream => ?_⟩
      have h := countP_insert_concat sh.connectionPools name (.new s sh.now)
        fun c => c.stream = stream
      have hs : (PooledConnection.new s sh.now).stream = s := rfl
      simpa [pooledTimes, owns, Task.owned, hs] using h.le
  | after hget hstep =>
      obtain ⟨hpools, -, ⟨hstreams, howned⟩ | ⟨s, hstreams, howned⟩⟩ := after_step hget hstep
      · refine Or.inl ⟨hstreams, fun stream => ?_⟩
        rcases howned with howned | howned
        · simp [pooledTimes, owns, hpools, howned]
        · simp [pooledTimes, owns, hpools, howned]
      · exact Or.inr ⟨s, hstreams, hpools, howned, rfl⟩
  | @unlock config upstream found =>
      refine Or.inl ⟨rfl, fun stream => ?_⟩
      cases found with
      | none => exact le_rfl
      | some s => exact le_rfl
  | start hpc | retStart hpc =>
      rcases hpc with ⟨rfl, -⟩ | rfl
      · exact Or.inl ⟨rfl, fun stream => by simp [owns, Task.owned]⟩
      · exact Or.inl ⟨rfl, fun stream => by simp [owns, Task.owned]⟩
  | lookup hpc =>
      rcases hpc with rfl | rfl
      · exact Or.inl ⟨rfl, fun stream => by simp [owns, Task.owned]⟩
      · exact Or.inl ⟨rfl, fun stream => by simp [owns, Task.owned]⟩
  | giveBack =>
      refine Or.inl ⟨rfl, fun stream => ?_⟩
      simp [owns, Task.owned, List.countP_singleton]
  | _ => exact Or.inl ⟨rfl, fun stream => by simp [pooledTimes, owns, Task.owned]⟩

/-- A step leaves every stream in one place at most, and numbers new streams in turn. -/
theorem step_places {p p' : Pool Shared Task} {a : Sched Event}
    (hplaces : ∀ stream, places p stream ≤ if stream < p.shared.streams.length then 1 else 0)
    (hstep : (machine parse).step p a = some p') (stream : ℕ) :
    places p' stream ≤ if stream < p'.shared.streams.length then 1 else 0 := by
  have hbefore := hplaces stream
  unfold places at hbefore ⊢
  rcases (system parse).step_cases hstep with ⟨i, e, t, sh, t', new, rfl, ht, hact, rfl⟩ |
    ⟨e, sh, new, rfl, henv, rfl⟩
  · have htasks := countP_set_append (owns stream) ht t' new
    rcases (Task.step_inv hact).places with ⟨hstreams, hle⟩ | ⟨s, hstreams, hpools, howned, rfl⟩
    · have hle := hle stream
      simp only [hstreams]
      omega
    · have hnew : owns stream t' = true ↔ stream = p.shared.streams.length := by
        simp [owns, howned, eq_comm]
      simp only [hstreams, pooledTimes, hpools, List.length_append, List.length_singleton,
        List.countP_nil, hnew] at hbefore htasks ⊢
      split_ifs at * <;> omega
  · rcases env_cases henv with ⟨_, rfl, rfl⟩ | ⟨_, _, rfl, rfl⟩ | ⟨_, _, _, rfl, rfl⟩
    · simpa [pooledTimes] using hbefore
    · simpa [pooledTimes, owns, Task.owned] using hbefore
    · simp only [pooledTimes, List.countP_append, List.countP_singleton, List.length_append,
        List.length_singleton, owns, Task.owned, Option.some.injEq, decide_eq_true_eq] at hbefore ⊢
      split_ifs at * <;> omega

/-- **Every stream is in one place at most**: in one entry of one queue, or with one call. -/
theorem places_le_one (hrun : (machine parse).run initial es = some p) (stream : ℕ) :
    places p stream ≤ 1 := by
  have h := (machine parse).run_preserves
    (I := fun q => ∀ stream, places q stream ≤ if stream < q.shared.streams.length then 1 else 0)
    (fun q a q' hI hs => step_places hI hs) (fun _ => Nat.zero_le _) hrun stream
  exact h.trans (by split_ifs <;> omega)

/-! ## What the steps of a run did with pooled connections -/

/-- What `try_get_pooled_connection` returns, at the end of its guard. -/
def Task.found : Task → Option ℕ
  | .call _ _ (.unlock found) => found
  | _ => none

/-- Has the call popped a connection with the stream and not checked it yet? -/
def pops (stream : ℕ) (t : Task) : Bool := t.popped.any fun c => c.stream = stream

/-- What a step puts into the pools, with the instant: what is pooled after it and was not
before. -/
def returnedIn (p : Pool Shared Task) (_ : Sched Event) (p' : Pool Shared Task) :
    List (PooledConnection × ℕ) :=
  (added p.shared.connectionPools p'.shared.connectionPools).map fun c => (c, p'.shared.now)

/-- The stream that a step hands out, with the instant: what the call that moved returns after
it. -/
def handedOutIn (_ : Pool Shared Task) (a : Sched Event) (p' : Pool Shared Task) : List (ℕ × ℕ) :=
  match a with
  | .task i _ => ((p'.tasks[i]?).bind Task.found).toList.map fun stream => (stream, p'.shared.now)
  | .env _ => []

/-- What a step discards, with the instant: what was pooled or popped before it, and whose stream is
neither pooled nor with a call after it. -/
def discardedIn (p : Pool Shared Task) (_ : Sched Event) (p' : Pool Shared Task) :
    List (PooledConnection × ℕ) :=
  ((all p.shared.connectionPools ++ p.tasks.filterMap Task.popped).filter
    fun c => places p' c.stream = 0).map fun c => (c, p'.shared.now)

section logs

variable (parse : ParseAddr) (es : List (Sched Event))

/-- The connections put into the pools in the run. -/
def returned : List (PooledConnection × ℕ) := (machine parse).log returnedIn initial es

/-- The streams handed out in the run. -/
def handedOut : List (ℕ × ℕ) := (machine parse).log handedOutIn initial es

/-- The connections discarded in the run. -/
def discarded : List (PooledConnection × ℕ) := (machine parse).log discardedIn initial es

end logs

/-- What a step adds to the pools is pushed as new. -/
theorem TaskStep.added_cases (h : TaskStep parse ts sh t e sh' t' new) :
    added sh.connectionPools sh'.connectionPools = [] ∨
      ∃ stream, added sh.connectionPools sh'.connectionPools = [.new stream sh.now] := by
  cases h with
  | pop hqueue => exact Or.inl (added_insert_tail hqueue)
  | entry => exact Or.inl (added_insert_queue _ _)
  | push => exact Or.inr ⟨_, added_insert_concat _ _ _⟩
  | after hget hstep =>
      rw [(after_step hget hstep).1]
      exact Or.inl (added_self _)
  | _ => exact Or.inl (added_self _)

/-- The call is at the check of a connection that is expired, and goes back to the loop. -/
def Expires (sh sh' : Shared) (t t' : Task) (new : List Task) (c : PooledConnection) : Prop :=
  t.popped = some c ∧ c.isValid maxIdleTime maxLifetime sh.now = false ∧ sh' = sh ∧
    t'.owned = none ∧ new = []

/-- **A step moves streams**: what it adds comes into the pools, what it pops is popped, and what it
checks is returned by the call, unless it is expired. -/
theorem TaskStep.moves (h : TaskStep parse ts sh t e sh' t' new) (stream : ℕ) :
    pooledTimes sh' stream + (if pops stream t' then 1 else 0) +
          t'.found.toList.countP (fun s => s = stream) =
        pooledTimes sh stream + (if pops stream t then 1 else 0) +
          (added sh.connectionPools sh'.connectionPools).countP (fun c => c.stream = stream) ∨
      ∃ c, c.stream = stream ∧ Expires sh sh' t t' new c := by
  cases h with
  | @pop config upstream c pool hqueue =>
      have hcount := countP_insert_tail hqueue fun c => c.stream = stream
      refine Or.inl ?_
      rw [added_insert_tail hqueue]
      simpa [pooledTimes, pops, Task.popped, Task.found] using hcount
  | @valid config upstream c hvalid =>
      refine Or.inl ?_
      rw [added_self]
      simp [pooledTimes, pops, Task.popped, Task.found, List.countP_singleton]
  | @expired config upstream c hexpired =>
      by_cases hc : c.stream = stream
      · exact Or.inr ⟨c, hc, rfl, hexpired, rfl, rfl, rfl⟩
      · refine Or.inl ?_
        rw [added_self]
        simp [pops, Task.popped, Task.found, hc]
  | @entry config name =>
      have hcount := countP_insert_queue sh.connectionPools name fun c => c.stream = stream
      refine Or.inl ?_
      rw [added_insert_queue]
      simpa [pooledTimes, pops, Task.popped, Task.found] using hcount
  | @push config name s =>
      have hcount := countP_insert_concat sh.connectionPools name (.new s sh.now)
        fun c => c.stream = stream
      refine Or.inl ?_
      rw [added_insert_concat]
      simpa [pooledTimes, pops, Task.popped, Task.found, List.countP_singleton] using hcount
  | after hget hstep =>
      refine Or.inl ?_
      unfold pooledTimes
      rw [(after_step hget hstep).1, added_self]
      rfl
  | start hpc | retStart hpc =>
      refine Or.inl ?_
      rw [added_self]
      rcases hpc with ⟨rfl, -⟩ | rfl
      · rfl
      · rfl
  | lookup hpc =>
      refine Or.inl ?_
      rw [added_self]
      rcases hpc with rfl | rfl
      · rfl
      · rfl
  | _ =>
      refine Or.inl ?_
      rw [added_self]
      rfl

/-- What a call has popped or is about to return, it has. -/
theorem owned_of_popped {c : PooledConnection} (h : t.popped = some c) :
    t.owned = some c.stream := by
  unfold Task.popped at h
  split at h
  · obtain rfl := Option.some.inj h
    rfl
  · exact absurd h (by simp)

/-- What a call returns at the end of its guard, it has. -/
theorem owned_of_found {stream : ℕ} (h : t.found = some stream) : t.owned = some stream := by
  unfold Task.found at h
  split at h
  · exact h
  · exact absurd h (by simp)

/-- A call that has popped a stream has it. -/
theorem owns_of_pops {stream : ℕ} (h : pops stream t = true) : owns stream t = true := by
  obtain ⟨c, hc, hstream⟩ := (Option.any_eq_true _ _).mp h
  rw [decide_eq_true_eq] at hstream
  subst hstream
  exact decide_eq_true (owned_of_popped hc)

/-- Returns are new calls: they have popped nothing. -/
theorem TaskStep.new_pops (h : TaskStep parse ts sh t e sh' t' new) (stream : ℕ) :
    new.countP (pops stream) = 0 := by
  refine List.countP_eq_zero.mpr fun u hu => ?_
  obtain ⟨_, _, _, rfl⟩ := h.new_start u hu
  simp [pops, Task.popped]

/-- What the step of a call hands out is what the call returns. -/
theorem handedOutIn_task {i : ℕ} (ht : p.tasks[i]? = some t) :
    handedOutIn p (.task i e) ⟨sh, p.tasks.set i t' ++ new⟩ =
      t'.found.toList.map fun stream => (stream, sh.now) := by
  simp only [handedOutIn, getElem?_set_append_self ht]
  rfl

/-- In how many places a get can find a stream: entries of queues, and gets that have just popped
it. -/
def poolPlaces (p : Pool Shared Task) (stream : ℕ) : ℕ :=
  pooledTimes p.shared stream + p.tasks.countP (pops stream)

/-- The places in the pools are places. -/
theorem poolPlaces_le (p : Pool Shared Task) (stream : ℕ) :
    poolPlaces p stream ≤ places p stream :=
  Nat.add_le_add_left (List.countP_mono_left fun _ _ h => owns_of_pops h) _

/-- How many calls have popped a connection with the stream. -/
theorem countP_popped (tasks : List Task) (stream : ℕ) :
    (tasks.filterMap Task.popped).countP (fun c => c.stream = stream) =
      tasks.countP (pops stream) := by
  rw [List.countP_filterMap]
  refine congrArg (fun P => tasks.countP P) (funext fun t => ?_)
  unfold pops
  cases t.popped <;> rfl

/-- How often a step hands out a stream: as a call has it after the step, once at most. -/
theorem countP_handedOutIn_le (p p' : Pool Shared Task) (a : Sched Event) (stream : ℕ) :
    (handedOutIn p a p').countP (fun out => out.1 = stream) ≤ places p' stream := by
  cases a with
  | env e => exact Nat.zero_le _
  | task i e =>
      unfold handedOutIn
      rw [List.countP_map]
      cases hfound : (p'.tasks[i]?).bind Task.found with
      | none => exact Nat.zero_le _
      | some s =>
          obtain ⟨t, ht, hs⟩ := Option.bind_eq_some_iff.mp hfound
          rw [Option.toList_some, List.countP_singleton]
          split_ifs with heq
          · obtain rfl : s = stream := by simpa using heq
            have howner : 0 < p'.tasks.countP (owns s) :=
              List.countP_pos_iff.mpr ⟨t, List.mem_of_getElem? ht,
                decide_eq_true (owned_of_found hs)⟩
            exact howner.trans_le (Nat.le_add_left _ _)
          · exact Nat.zero_le _

/-- How often a step discards a stream. -/
theorem countP_discardedIn (p p' : Pool Shared Task) (a : Sched Event) (stream : ℕ) :
    (discardedIn p a p').countP (fun out => out.1.stream = stream) =
      if places p' stream = 0 then poolPlaces p stream else 0 := by
  unfold discardedIn poolPlaces pooledTimes
  rw [List.countP_map, List.countP_filter, ← countP_popped, ← List.countP_append]
  split_ifs with hnone
  · refine List.countP_congr fun c _ => ?_
    by_cases hc : c.stream = stream
    · simp [hc, hnone]
    · simp [hc]
  · refine List.countP_eq_zero.mpr fun c _ => ?_
    by_cases hc : c.stream = stream
    · simp [hc, hnone]
    · simp [hc]

/-- **One step of the machine and a stream**: what comes into the pools stays there, is popped or is
returned by a get; or a get finds the connection expired, and the stream is nowhere any more. -/
theorem step_moves {p p' : Pool Shared Task} {a : Sched Event}
    (hle : ∀ stream, places p stream ≤ 1) (hstep : (machine parse).step p a = some p')
    (stream : ℕ) :
    poolPlaces p' stream + (handedOutIn p a p').countP (fun out => out.1 = stream) =
        poolPlaces p stream + (returnedIn p a p').countP (fun r => r.1.stream = stream) ∨
      places p' stream = 0 ∧ ∃ i e t c, a = .task i e ∧ p.tasks[i]? = some t ∧
        t.popped = some c ∧ c.stream = stream ∧
        c.isValid maxIdleTime maxLifetime p'.shared.now = false ∧ returnedIn p a p' = [] := by
  unfold poolPlaces returnedIn
  rw [List.countP_map]
  rcases (system parse).step_cases hstep with ⟨i, e, t, sh, t', new, rfl, ht, hact, rfl⟩ |
    ⟨e, sh, new, rfl, henv, rfl⟩
  · have htask := Task.step_inv hact
    rcases htask.moves stream with heq | ⟨c, rfl, hpopped, hinvalid, rfl, howned, rfl⟩
    · have htasks := countP_set_append (pops stream) ht t' new
      rw [htask.new_pops stream] at htasks
      refine Or.inl ?_
      rw [handedOutIn_task ht, List.countP_map]
      simp only [Function.comp_def]
      omega
    · have hbefore := hle c.stream
      have htasks := countP_set_append (owns c.stream) ht t' []
      have howns : owns c.stream t = true := decide_eq_true (owned_of_popped hpopped)
      have hgone : owns c.stream t' = false := by simp [owns, howned]
      rw [if_pos howns, if_neg (by simp [hgone]), List.countP_nil] at htasks
      refine Or.inr ⟨?_, i, e, t, c, rfl, ht, hpopped, rfl, hinvalid, ?_⟩
      · unfold places at hbefore ⊢
        dsimp only
        omega
      · rw [added_self]
        rfl
  · refine Or.inl ?_
    rcases env_cases henv with ⟨_, rfl, rfl⟩ | ⟨_, _, rfl, rfl⟩ | ⟨_, _, _, rfl, rfl⟩
    · rw [added_self]
      simp [handedOutIn, pooledTimes]
    · rw [added_self]
      simp [handedOutIn, pops, Task.popped]
    · rw [added_self]
      simp [handedOutIn, pooledTimes, pops, Task.popped]

/-- What a run with one more step has put into the pools. -/
theorem returned_concat {a : Sched Event} {p' : Pool Shared Task}
    (hrun : (machine parse).run initial es = some p) (hstep : (machine parse).step p a = some p') :
    returned parse (es ++ [a]) = returned parse es ++ returnedIn p a p' :=
  (machine parse).log_concat returnedIn hrun hstep

/-- The hand-overs of a run with a last step are those so far and that of the step. -/
theorem handedOut_concat {a : Sched Event} {p' : Pool Shared Task}
    (hrun : (machine parse).run initial es = some p) (hstep : (machine parse).step p a = some p') :
    handedOut parse (es ++ [a]) = handedOut parse es ++ handedOutIn p a p' :=
  (machine parse).log_concat handedOutIn hrun hstep

/-- A run with a last step has discarded what it had so far and what the step discards. -/
theorem discarded_concat {a : Sched Event} {p' : Pool Shared Task}
    (hrun : (machine parse).run initial es = some p) (hstep : (machine parse).step p a = some p') :
    discarded parse (es ++ [a]) = discarded parse es ++ discardedIn p a p' :=
  (machine parse).log_concat discardedIn hrun hstep

/-- **Nothing is lost.** As often as a stream was put into the pools, it is pooled or popped and not
checked yet, was handed out, or was discarded. -/
theorem count_returned (hrun : (machine parse).run initial es = some p) (stream : ℕ) :
    (returned parse es).countP (fun r => r.1.stream = stream) = poolPlaces p stream +
      (handedOut parse es).countP (fun out => out.1 = stream) +
        (discarded parse es).countP fun out => out.1.stream = stream := by
  refine (machine parse).run_induction (Q := fun es p =>
    (returned parse es).countP (fun r => r.1.stream = stream) = poolPlaces p stream +
      (handedOut parse es).countP (fun out => out.1 = stream) +
        (discarded parse es).countP fun out => out.1.stream = stream) rfl ?_ hrun
  intro es a q q' hrun ih hstep
  rw [returned_concat hrun hstep, handedOut_concat hrun hstep, discarded_concat hrun hstep,
    List.countP_append, List.countP_append, List.countP_append, countP_discardedIn]
  have hpool := poolPlaces_le q' stream
  have hhanded := countP_handedOutIn_le q q' a stream
  rcases step_moves (places_le_one hrun) hstep stream with heq | ⟨hnone, -, -, -, -, -, -, -, -, -,
    hreturned⟩
  · split_ifs with hnone <;> omega
  · rw [if_pos hnone, hreturned, List.countP_nil]
    omega

/-- The streams that were put into the pools are those that are pooled or popped, were handed out or
were discarded, with multiplicity. -/
theorem returned_perm (hrun : (machine parse).run initial es = some p) :
    ((returned parse es).map fun r => r.1.stream).Perm
      ((all p.shared.connectionPools ++ p.tasks.filterMap Task.popped).map
          PooledConnection.stream ++
        (handedOut parse es).map Prod.fst ++ (discarded parse es).map fun out => out.1.stream) := by
  refine List.perm_iff_count.mpr fun stream => ?_
  have hcount := count_returned hrun stream
  unfold poolPlaces pooledTimes at hcount
  rw [← countP_popped, ← List.countP_append] at hcount
  rw [List.count_append, List.count_append]
  unfold List.count
  rw [List.countP_map, List.countP_map, List.countP_map, List.countP_map]
  exact hcount

/-- No stream is handed out more often than it was put into the pools. -/
theorem handedOut_countP_le (hrun : (machine parse).run initial es = some p) (stream : ℕ) :
    (handedOut parse es).countP (fun out => out.1 = stream) ≤
      (returned parse es).countP fun r => r.1.stream = stream := by
  have hcount := count_returned hrun stream
  omega

/-! ## When -/

/-- What a step pops was in the pools. -/
theorem TaskStep.of_popped (h : TaskStep parse ts sh t e sh' t' new) {c : PooledConnection}
    (hc : t'.popped = some c) : t.popped = some c ∨ c ∈ all sh.connectionPools := by
  cases h with
  | pop hqueue =>
      obtain rfl := Option.some.inj hc
      exact Or.inr (mem_all_of_queue hqueue)
  | start hpc | lookup hpc =>
      rcases hpc with ⟨rfl, -⟩ | rfl
      · exact absurd hc (by simp [Task.popped])
      · exact absurd hc (by simp [Task.popped])
  | _ => exact absurd hc (by simp [Task.popped])

/-- What a step hands out was popped, and valid when it was checked. -/
theorem TaskStep.of_found (h : TaskStep parse ts sh t e sh' t' new) {stream : ℕ}
    (hfound : t'.found = some stream) :
    ∃ c, t.popped = some c ∧ c.stream = stream ∧
      c.isValid maxIdleTime maxLifetime sh'.now = true := by
  cases h with
  | valid hvalid => exact ⟨_, rfl, Option.some.inj hfound, hvalid⟩
  | start hpc | lookup hpc =>
      rcases hpc with ⟨rfl, -⟩ | rfl
      · exact absurd hfound (by simp [Task.found])
      · exact absurd hfound (by simp [Task.found])
  | _ => exact absurd hfound (by simp [Task.found])

/-- The connection is pooled, or was just popped. -/
def InPools (p : Pool Shared Task) (c : PooledConnection) : Prop :=
  c ∈ all p.shared.connectionPools ∨ ∃ t ∈ p.tasks, t.popped = some c

/-- A connection that is in the pools after a step was there before, or is pushed by it as new. -/
theorem inPools_of_step {p p' : Pool Shared Task} {a : Sched Event} {c : PooledConnection}
    (hstep : (machine parse).step p a = some p') (hc : InPools p' c) :
    InPools p c ∨ (c, c.lastUsed) ∈ returnedIn p a p' ∧ c.lastUsed = p'.shared.now := by
  rcases (system parse).step_cases hstep with ⟨i, e, t, sh, t', new, rfl, ht, hact, rfl⟩ |
    ⟨e, sh, new, rfl, henv, rfl⟩
  · have htask := Task.step_inv hact
    rcases hc with hc | ⟨u, hu, hc⟩
    · rcases mem_all_or_mem_added hc with hold | hnew
      · exact Or.inl (Or.inl hold)
      · rcases htask.added_cases with hnil | ⟨stream, hpush⟩
        · rw [hnil] at hnew
          exact absurd hnew List.not_mem_nil
        · have hlast : c.lastUsed = sh.now := by
            rw [hpush] at hnew
            rw [List.mem_singleton.mp hnew, htask.now]
            rfl
          refine Or.inr ⟨List.mem_map.mpr ⟨c, hnew, ?_⟩, hlast⟩
          rw [hlast]
    · rcases mem_set_append hu with rfl | hu | hu
      · rcases htask.of_popped hc with hpopped | hpooled
        · exact Or.inl (Or.inr ⟨t, List.mem_of_getElem? ht, hpopped⟩)
        · exact Or.inl (Or.inl hpooled)
      · exact Or.inl (Or.inr ⟨u, hu, hc⟩)
      · obtain ⟨_, _, _, rfl⟩ := htask.new_start u hu
        exact absurd hc (by simp [Task.popped])
  · refine Or.inl ?_
    rcases env_cases henv with ⟨_, rfl, rfl⟩ | ⟨_, _, rfl, rfl⟩ | ⟨_, _, _, rfl, rfl⟩
    · simpa [InPools] using hc
    · simpa [InPools, or_and_right, exists_or, Task.popped] using hc
    · simpa [InPools, or_and_right, exists_or, Task.popped] using hc

/-- The clock goes forward only, and stands still while a call moves. -/
theorem step_now {p p' : Pool Shared Task} {a : Sched Event}
    (hstep : (machine parse).step p a = some p') :
    p.shared.now ≤ p'.shared.now ∧ ∀ i e, a = .task i e → p'.shared.now = p.shared.now := by
  rcases (system parse).step_cases hstep with ⟨i, e, t, sh, t', new, rfl, ht, hact, rfl⟩ |
    ⟨e, sh, new, rfl, henv, rfl⟩
  · have hnow := (Task.step_inv hact).now
    exact ⟨hnow.ge, fun _ _ _ => hnow⟩
  · refine ⟨?_, fun _ _ h => absurd h (by simp)⟩
    rcases env_cases henv with ⟨_, rfl, -⟩ | ⟨_, _, rfl, -⟩ | ⟨_, _, _, rfl, -⟩
    · exact Nat.le_add_right _ _
    · exact le_rfl
    · exact le_rfl

/-- What is in the pools was put there, with the instant it bears, which is past. -/
theorem returned_of_inPools (hrun : (machine parse).run initial es = some p) :
    ∀ c, InPools p c → (c, c.lastUsed) ∈ returned parse es ∧ c.lastUsed ≤ p.shared.now := by
  refine (machine parse).run_induction (Q := fun es p => ∀ c, InPools p c →
    (c, c.lastUsed) ∈ returned parse es ∧ c.lastUsed ≤ p.shared.now) ?_ ?_ hrun
  · rintro c (hc | ⟨t, ht, -⟩)
    · exact absurd hc (by simp [initial, Shared.new])
    · exact absurd ht List.not_mem_nil
  · intro es a q q' hrun ih hstep c hc
    rw [returned_concat hrun hstep]
    rcases inPools_of_step hstep hc with hold | ⟨hnew, hlast⟩
    · obtain ⟨hmem, hle⟩ := ih c hold
      exact ⟨List.mem_append_left _ hmem, hle.trans (step_now hstep).1⟩
    · exact ⟨List.mem_append_right _ hnew, hlast.le⟩

/-- What a step hands out was popped by the call, and valid at that instant. -/
theorem popped_of_mem_handedOutIn {p p' : Pool Shared Task} {a : Sched Event} {out : ℕ × ℕ}
    (hstep : (machine parse).step p a = some p') (hout : out ∈ handedOutIn p a p') :
    ∃ c, InPools p c ∧ c.stream = out.1 ∧ out.2 = p'.shared.now ∧
      c.isValid maxIdleTime maxLifetime p'.shared.now = true := by
  rcases (system parse).step_cases hstep with ⟨i, e, t, sh, t', new, rfl, ht, hact, rfl⟩ |
    ⟨e, sh, new, rfl, -, rfl⟩
  · rw [handedOutIn_task ht] at hout
    obtain ⟨stream, hstream, rfl⟩ := List.mem_map.mp hout
    obtain ⟨c, hpopped, hc, hvalid⟩ :=
      (Task.step_inv hact).of_found (Option.mem_toList.mp hstream)
    exact ⟨c, Or.inr ⟨t, List.mem_of_getElem? ht, hpopped⟩, hc, rfl, hvalid⟩
  · exact absurd hout List.not_mem_nil

/-- What is handed out was put into the pools at most `max_idle_time` before. -/
theorem handedOut_recent (hrun : (machine parse).run initial es = some p) :
    ∀ out ∈ handedOut parse es, ∃ r ∈ returned parse es, r.1.stream = out.1 ∧ r.2 ≤ out.2 ∧
      out.2 ≤ r.2 + maxIdleTime := by
  refine (machine parse).run_induction (Q := fun es _ => ∀ out ∈ handedOut parse es,
    ∃ r ∈ returned parse es, r.1.stream = out.1 ∧ r.2 ≤ out.2 ∧ out.2 ≤ r.2 + maxIdleTime)
    (fun out hout => absurd hout List.not_mem_nil) ?_ hrun
  intro es a q q' hrun ih hstep out hout
  rw [returned_concat hrun hstep]
  rw [handedOut_concat hrun hstep] at hout
  rcases List.mem_append.mp hout with hout | hout
  · obtain ⟨r, hr, hrecent⟩ := ih out hout
    exact ⟨r, List.mem_append_left _ hr, hrecent⟩
  · obtain ⟨c, hc, hstream, hinstant, hvalid⟩ := popped_of_mem_handedOutIn hstep hout
    obtain ⟨hmem, hle⟩ := returned_of_inPools hrun c hc
    have hnow := (step_now hstep).1
    unfold PooledConnection.isValid at hvalid
    obtain ⟨hidle, -⟩ : q'.shared.now - c.lastUsed ≤ maxIdleTime ∧ _ := by simpa using hvalid
    refine ⟨(c, c.lastUsed), List.mem_append_left _ hmem, hstream, ?_, ?_⟩
    · rw [hinstant]
      exact hle.trans hnow
    · rw [hinstant]
      dsimp only
      omega

/-- A stream in one place is in the pools in one connection only. -/
theorem eq_of_inPools {p : Pool Shared Task} {i : ℕ} {c c' : PooledConnection}
    (hle : places p c.stream ≤ 1) (ht : p.tasks[i]? = some t) (hc : t.popped = some c)
    (hc' : InPools p c') (heq : c'.stream = c.stream) : c' = c := by
  have howns : owns c.stream t = true := decide_eq_true (owned_of_popped hc)
  unfold places at hle
  rcases hc' with hpooled | ⟨u, hu, hpopped⟩
  · have hpos : 0 < pooledTimes p.shared c.stream :=
      List.countP_pos_iff.mpr ⟨c', hpooled, by simpa using heq⟩
    have howner : 0 < p.tasks.countP (owns c.stream) :=
      List.countP_pos_iff.mpr ⟨t, List.mem_of_getElem? ht, howns⟩
    omega
  · obtain ⟨j, hj⟩ := List.getElem?_of_mem hu
    have howner : owns c.stream u = true := by
      rw [← heq]
      exact decide_eq_true (owned_of_popped hpopped)
    have hij := AtMostOne.of_countP_le ((Nat.le_add_left _ _).trans hle) i j t u ht hj howns howner
    subst hij
    obtain rfl := Option.some.inj (ht.symm.trans hj)
    exact Option.some.inj (hpopped.symm.trans hc)

/-- What a step discards is expired. -/
theorem expired_of_mem_discardedIn {p p' : Pool Shared Task} {a : Sched Event}
    {out : PooledConnection × ℕ} (hle : ∀ stream, places p stream ≤ 1)
    (hstep : (machine parse).step p a = some p') (hout : out ∈ discardedIn p a p') :
    out.1.isValid maxIdleTime maxLifetime out.2 = false := by
  obtain ⟨c, hc, rfl⟩ := List.mem_map.mp hout
  obtain ⟨hmem, hnone⟩ := List.mem_filter.mp hc
  rw [decide_eq_true_eq] at hnone
  have hpools : InPools p c := by
    rcases List.mem_append.mp hmem with hmem | hmem
    · exact Or.inl hmem
    · exact Or.inr (List.mem_filterMap.mp hmem)
  rcases step_moves hle hstep c.stream with heq | ⟨-, i, e, t, c', rfl, ht, hpopped, hstream,
    hinvalid, -⟩
  · -- the step would have left the stream in the pools or with a call
    have hpos : 0 < poolPlaces p c.stream := by
      have hcount : 0 < (all p.shared.connectionPools ++ p.tasks.filterMap Task.popped).countP
          fun c' => c'.stream = c.stream :=
        List.countP_pos_iff.mpr ⟨c, hmem, by simp⟩
      rwa [List.countP_append, countP_popped] at hcount
    have hpool := poolPlaces_le p' c.stream
    have hhanded := countP_handedOutIn_le p p' a c.stream
    omega
  · rw [eq_of_inPools (hle _) ht hpopped hpools hstream.symm]
    exact hinvalid

/-- In a whole run only expired connections are discarded. -/
theorem discarded_expired (hrun : (machine parse).run initial es = some p) :
    ∀ out ∈ discarded parse es,
      maxIdleTime < out.2 - out.1.lastUsed ∨ maxLifetime < out.2 - out.1.createdAt := by
  refine (machine parse).run_induction (Q := fun es _ => ∀ out ∈ discarded parse es,
    maxIdleTime < out.2 - out.1.lastUsed ∨ maxLifetime < out.2 - out.1.createdAt)
    (fun out hout => absurd hout List.not_mem_nil) ?_ hrun
  intro es a q q' hrun ih hstep out hout
  rw [discarded_concat hrun hstep] at hout
  rcases List.mem_append.mp hout with hout | hout
  · exact ih out hout
  · have hinvalid := expired_of_mem_discardedIn (places_le_one hrun) hstep hout
    unfold PooledConnection.isValid at hinvalid
    by_contra hcon
    obtain ⟨hidle, hlife⟩ := not_or.mp hcon
    simp [not_lt.mp hidle, not_lt.mp hlife] at hinvalid

/-! ## How many connections a queue has -/

/-- The queues are not longer than a hundred, and a call about to push finds room. -/
structure Bounded (p : Pool Shared Task) : Prop where
  mutex : Mutex p.tasks
  length_le : ∀ name, (queue p.shared.connectionPools name).length ≤ 100
  room : ∀ config name stream, .ret config name stream .push ∈ p.tasks →
    (queue p.shared.connectionPools name).length < 100

/-- A step keeps the queues short, if it finds room where it pushes. -/
theorem TaskStep.length_le (h : TaskStep parse ts sh t e sh' t' new)
    (hle : ∀ name, (queue sh.connectionPools name).length ≤ 100)
    (hroom : ∀ config name stream, t = .ret config name stream .push →
      (queue sh.connectionPools name).length < 100) :
    ∀ name, (queue sh'.connectionPools name).length ≤ 100 := by
  have hinsert : ∀ {name q}, q.length ≤ 100 →
      ∀ name', (queue (sh.connectionPools.insert name q) name').length ≤ 100 := by
    intro name q hq name'
    by_cases hname : name' = name
    · rwa [hname, queue_insert]
    · rw [queue_insert_ne _ hname]
      exact hle name'
  cases h with
  | @pop config upstream c pool hqueue =>
      have hlength := hle upstream.name
      rw [hqueue, List.length_cons] at hlength
      exact hinsert (by omega)
  | entry => exact hinsert (hle _)
  | push =>
      have hlength := hroom _ _ _ rfl
      apply hinsert
      rw [List.length_append, List.length_singleton]
      omega
  | after hget hstep =>
      rw [(after_step hget hstep).1]
      exact hle
  | _ => exact hle

/-- A call about to push has just found room. -/
theorem TaskStep.room_of_push (h : TaskStep parse ts sh t e sh' t' new) {config : TcpProxyConfig}
    {name : String} {stream : ℕ} (hpush : t' = .ret config name stream .push) :
    (queue sh'.connectionPools name).length < 100 := by
  cases h with
  | room hroom =>
      obtain ⟨rfl, rfl, rfl⟩ : _ ∧ _ ∧ _ := by simpa using hpush
      exact hroom
  | retStart hpc => rcases hpc with ⟨rfl, -⟩ | rfl <;> simp at hpush
  | _ => exact absurd hpush (by simp)

/-- Every step keeps the queues bounded. -/
theorem step_bounded {p p' : Pool Shared Task} {a : Sched Event} (hI : Bounded p)
    (hstep : (machine parse).step p a = some p') : Bounded p' := by
  have hmutex := step_mutex hI.mutex hstep
  rcases (system parse).step_cases hstep with ⟨i, e, t, sh, t', new, rfl, ht, hact, rfl⟩ |
    ⟨e, sh, new, rfl, henv, rfl⟩
  · have hinv := Task.step_inv hact
    refine ⟨hmutex, hinv.length_le hI.length_le ?_, ?_⟩
    · rintro config name stream rfl
      exact hI.room config name stream (List.mem_of_getElem? ht)
    · intro config name stream hmem
      obtain ⟨j, hj⟩ := List.getElem?_of_mem hmem
      rcases getElem?_set_append hj with ⟨-, hu⟩ | ⟨hji, hu⟩ | ⟨-, hu⟩
      · exact hinv.room_of_push hu.symm
      · -- the call that pushes holds the lock, so the one that moved does not
        have hunlocked : t.locked = false := by
          by_contra hlocked
          exact hji (hI.mutex j i _ t hu ht rfl (by simpa using hlocked))
        rw [hinv.connectionPools hunlocked]
        exact hI.room config name stream (List.mem_of_getElem? hu)
      · obtain ⟨_, _, _, hstart⟩ := hinv.new_start _ hu
        exact absurd hstart (by simp)
  · rcases env_cases henv with ⟨_, rfl, rfl⟩ | ⟨_, _, rfl, rfl⟩ | ⟨_, _, _, rfl, rfl⟩
    · exact ⟨hmutex, hI.length_le, fun c n s hmem => hI.room c n s (by simpa using hmem)⟩
    · exact ⟨hmutex, hI.length_le, fun c n s hmem => hI.room c n s (by simpa using hmem)⟩
    · exact ⟨hmutex, hI.length_le, fun c n s hmem => hI.room c n s (by simpa using hmem)⟩

/-- **No queue is longer than a hundred.** -/
theorem length_le_of_run (hrun : (machine parse).run initial es = some p) {name : String}
    {pool : List PooledConnection} (hpool : p.shared.connectionPools.lookup name = some pool) :
    pool.length ≤ 100 := by
  have hI := (machine parse).run_preserves (I := Bounded)
    (fun q a q' hI hs => step_bounded hI hs) ?_ hrun
  · have hlength := hI.length_le name
    rwa [queue_of_lookup hpool] at hlength
  · exact ⟨fun i j t u hi => absurd hi (by simp [initial]), fun name => Nat.zero_le _,
      fun _ _ _ hmem => absurd hmem List.not_mem_nil⟩

/-! ## Contexts without connection pooling -/

/-- The call waits for the lock or holds it. -/
def Task.wantsLock : Task → Bool
  | .call _ _ .lock | .ret _ _ _ .lock => true
  | t => t.locked

/-- Only a call whose context pools connections goes for the lock. -/
theorem TaskStep.wantsLock (h : TaskStep parse ts sh t e sh' t' new)
    (hwants : t'.wantsLock = true) :
    t'.config = t.config ∧ (t.wantsLock = true ∨ t.config.connectionPooling = true) := by
  cases h with
  | start hpc | retStart hpc =>
      rcases hpc with ⟨rfl, hpooling⟩ | rfl
      · exact ⟨rfl, Or.inr hpooling⟩
      · exact absurd hwants (by simp [Task.wantsLock, Task.locked])
  | unlock | after | giveBack | drop | retUnlock =>
      exact absurd hwants (by simp [Task.wantsLock, Task.locked])
  | _ => exact ⟨rfl, Or.inl rfl⟩

/-- In every run a call that goes for the lock has a context with connection pooling. -/
theorem pooling_of_wantsLock (hrun : (machine parse).run initial es = some p) :
    ∀ t ∈ p.tasks, t.wantsLock = true → t.config.connectionPooling = true := by
  refine ((system parse).run_owickiGries (P := fun _ _ => True) (I := fun _ => True)
    (J := fun _ t => t.wantsLock = true → t.config.connectionPooling = true) ?_ ?_ trivial
    (fun t ht => absurd ht List.not_mem_nil)
    ((machine parse).along_of_take fun _ _ _ _ _ => trivial) hrun).2
  · intro q i e t sh t' new _ hJ _ ht hact
    have hinv := Task.step_inv hact
    refine ⟨trivial, fun hwants => ?_, ?_, fun u _ hu => hu⟩
    · obtain ⟨hconfig, hwants | hpooling⟩ := hinv.wantsLock hwants
      · rw [hconfig]
        exact hJ t (List.mem_of_getElem? ht) hwants
      · rw [hconfig]
        exact hpooling
    · intro u hu hwants
      obtain ⟨_, _, _, rfl⟩ := hinv.new_start u hu
      exact absurd hwants (by simp [Task.wantsLock, Task.locked])
  · intro q e sh new _ _ _ henv
    refine ⟨trivial, fun u hu hwants => ?_, fun u _ hu => hu⟩
    rcases env_cases henv with ⟨_, -, rfl⟩ | ⟨_, _, -, rfl⟩ | ⟨_, _, _, -, rfl⟩
    · exact absurd hu List.not_mem_nil
    · obtain rfl := List.mem_singleton.mp hu
      exact absurd hwants (by simp [Task.wantsLock, Task.locked])
    · obtain rfl := List.mem_singleton.mp hu
      exact absurd hwants (by simp [Task.wantsLock, Task.locked])

/-- **A context without connection pooling never changes the pools.** -/
theorem connectionPools_of_not_pooling (hrun : (machine parse).run initial es = some p) {i : ℕ}
    {p' : Pool Shared Task} (ht : p.tasks[i]? = some t)
    (hpooling : t.config.connectionPooling = false)
    (hstep : (machine parse).step p (.task i e) = some p') :
    p'.shared.connectionPools = p.shared.connectionPools := by
  have hunlocked : t.locked = false := by
    by_contra hlocked
    have hwants : t.wantsLock = true := by
      unfold Task.wantsLock
      split
      · rfl
      · rfl
      · simpa using hlocked
    have := pooling_of_wantsLock hrun t (List.mem_of_getElem? ht) hwants
    rw [hpooling] at this
    exact absurd this (by simp)
  rcases (system parse).step_cases hstep with ⟨j, e, u, sh, u', new, heq, hu, hact, rfl⟩ |
    ⟨e, sh, new, heq, henv, rfl⟩
  · obtain ⟨rfl, rfl⟩ : _ ∧ _ := by simpa using heq
    obtain rfl := Option.some.inj (ht.symm.trans hu)
    exact (Task.step_inv hact).connectionPools hunlocked
  · exact absurd heq (by simp)

/-! ## The loop that pops -/

/-- How many steps the loop has left at most: two for each connection in the queue. -/
def loopMeasure (sh : Shared) : Task → ℕ
  | .call _ upstream .pop => 2 * (queue sh.connectionPools upstream.name).length + 1
  | .call _ upstream (.check _) => 2 * (queue sh.connectionPools upstream.name).length + 2
  | _ => 0

/-- Who is in the loop holds the lock. -/
theorem locked_of_inLoop (h : t.inLoop = true) : t.locked = true := by
  unfold Task.inLoop at h
  split at h
  · rfl
  · rfl
  · exact absurd h (by simp)

/-- A step of the loop leaves fewer steps. -/
theorem TaskStep.loopMeasure_lt (h : TaskStep parse ts sh t e sh' t' new)
    (hloop : t.inLoop = true) : loopMeasure sh' t' < loopMeasure sh t := by
  cases h with
  | pop hqueue =>
      simp only [loopMeasure, queue_insert, hqueue, List.length_cons]
      omega
  | empty => exact Nat.succ_pos _
  | valid => exact Nat.succ_pos _
  | expired => exact Nat.lt_succ_self _
  | _ => exact absurd hloop (by simp [Task.inLoop])

/-- The loop is never blocked. -/
theorem step_of_inLoop (parse : ParseAddr) {p : Pool Shared Task} {i : ℕ}
    (ht : p.tasks[i]? = some t) (hloop : t.inLoop = true) :
    ∃ p', (machine parse).step p (.task i (.get .step)) = some p' := by
  have hstep : ∃ r, t.step parse p.tasks p.shared (.get .step) = some r := by
    unfold Task.inLoop at hloop
    split at hloop
    · next config upstream =>
        cases hqueue : queue p.shared.connectionPools upstream.name with
        | nil => simp [Task.step, CallPc.step, hqueue]
        | cons c pool => simp [Task.step, CallPc.step, hqueue]
    · next c =>
        by_cases hvalid : c.isValid maxIdleTime maxLifetime p.shared.now = true
        · simp [Task.step, CallPc.step, hvalid]
        · simp [Task.step, CallPc.step, hvalid]
    · exact absurd hloop (by simp)
  obtain ⟨⟨sh, t', new⟩, hstep⟩ := hstep
  exact ⟨_, (system parse).step_task ht hstep⟩

/-- Is it a step of the call at the position? -/
def movesOf (i : ℕ) : Sched Event → Bool
  | .task j _ => j = i
  | .env _ => false

/-- **The loop ends.** While the call at the position is in the loop that pops, whatever else
happens, it takes at most two steps for each connection in its queue, and one or two more. -/
theorem loop_steps_le {i : ℕ} {fs : List (Sched Event)} {p q : Pool Shared Task}
    (hmutex : Mutex p.tasks) (ht : p.tasks[i]? = some t)
    (hin : (machine parse).Along (fun r _ => ∃ u, r.tasks[i]? = some u ∧ u.inLoop = true) p fs)
    (hrun : (machine parse).run p fs = some q) :
    fs.countP (movesOf i) ≤ loopMeasure p.shared t := by
  induction fs generalizing p t with
  | nil => exact Nat.zero_le _
  | cons a fs ih =>
      obtain ⟨r, hstep, hrest⟩ := (machine parse).run_cons_eq_some.mp hrun
      obtain ⟨⟨u, hu, hloop⟩, hin⟩ := ((machine parse).along_cons hstep).mp hin
      obtain rfl : u = t := Option.some.inj (hu.symm.trans ht)
      have hmutex' := step_mutex hmutex hstep
      rw [List.countP_cons]
      by_cases hown : movesOf i a = true
      · rw [if_pos hown]
        rcases (system parse).step_cases hstep with ⟨j, e, v, sh, v', new, rfl, hv, hact, rfl⟩ |
          ⟨e, sh, new, rfl, henv, rfl⟩
        · obtain rfl : j = i := by simpa [movesOf] using hown
          obtain rfl : v = u := Option.some.inj (hv.symm.trans ht)
          have hle : fs.countP (movesOf j) ≤ loopMeasure sh v' :=
            ih hmutex' (getElem?_set_append_self ht v' new) hin hrest
          have hlt := (Task.step_inv hact).loopMeasure_lt hloop
          omega
        · exact absurd hown (by simp [movesOf])
      · rw [if_neg hown]
        have hother : ∀ e, a ≠ .task i e := fun e ha => hown (by simp [ha, movesOf])
        have hpools := step_connectionPools hmutex ht (locked_of_inLoop hloop) hother hstep
        have hsame : loopMeasure r.shared u = loopMeasure p.shared u := by
          unfold loopMeasure
          rw [hpools]
        rw [← hsame]
        exact ih hmutex' ((system parse).getElem?_of_step ht hother hstep) hin hrest

/-! ## The pools -/

/-- No stream is in two pools, twice in one pool, pooled and with a call, or with two calls. -/
structure Linear (p : Pool Shared Task) : Prop where
  ne_of_ne : ∀ name name' pool pool' c c', name' ≠ name →
    p.shared.connectionPools.lookup name = some pool →
    p.shared.connectionPools.lookup name' = some pool' → c ∈ pool → c' ∈ pool' →
    c.stream ≠ c'.stream
  nodup : ∀ name pool, p.shared.connectionPools.lookup name = some pool →
    (pool.map PooledConnection.stream).Nodup
  not_owned : ∀ name pool c t, p.shared.connectionPools.lookup name = some pool → c ∈ pool →
    t ∈ p.tasks → t.owned ≠ some c.stream
  owned_once : ∀ stream, AtMostOne (fun t => t.owned = some stream) p.tasks

/-- Streams are linear if each of them is in one place at most. -/
theorem Linear.of_places (h : ∀ stream, places p stream ≤ 1) : Linear p := by
  have hnodup : ((all p.shared.connectionPools).map PooledConnection.stream).Nodup := by
    refine List.nodup_iff_count_le_one.mpr fun stream => ?_
    have hcount : ((all p.shared.connectionPools).map PooledConnection.stream).count stream =
        pooledTimes p.shared stream := by
      rw [List.count, List.countP_map]
      rfl
    rw [hcount]
    exact (Nat.le_add_right _ _).trans (h stream)
  refine ⟨?_, ?_, ?_, ?_⟩
  · intro name name' pool pool' c c' hne hpool hpool' hc hc'
    exact ne_of_nodup_map hnodup hne hpool hpool' hc hc'
  · intro name pool hpool
    exact nodup_of_nodup_map hnodup hpool
  · intro name pool c t hpool hc ht howned
    have hle := h c.stream
    have hpooled : 0 < pooledTimes p.shared c.stream :=
      List.countP_pos_iff.mpr ⟨c, mem_all hpool hc, by simp⟩
    have howner : 0 < p.tasks.countP (owns c.stream) :=
      List.countP_pos_iff.mpr ⟨t, ht, by simp [owns, howned]⟩
    unfold places at hle
    omega
  · intro stream i j t u hi hj ht hu
    have hle : p.tasks.countP (owns stream) ≤ 1 := (Nat.le_add_left _ _).trans (h stream)
    exact AtMostOne.of_countP_le hle i j t u hi hj (by simp [owns, ht]) (by simp [owns, hu])

/-- What holds of the pools in a state and of the run that led to it. The three logs are read off
the states of the run: what is pooled after a step and was not before, what a call returns after
a step, and what is nowhere after a step and was in the pools before. -/
structure Safe (parse : ParseAddr) (es : List (Sched Event)) (p : Pool Shared Task) : Prop where
  length_le : ∀ name pool, p.shared.connectionPools.lookup name = some pool → pool.length ≤ 100
  linear : Linear p
  /-- Every hand-over has its return. -/
  once : ∀ stream, (handedOut parse es).countP (fun out => out.1 = stream) ≤
    (returned parse es).countP fun r => r.1.stream = stream
  recent : ∀ out ∈ handedOut parse es, ∃ r ∈ returned parse es, r.1.stream = out.1 ∧
    r.2 ≤ out.2 ∧ out.2 ≤ r.2 + 300 * 10 ^ 9
  /-- A context without connection pooling does not change the pools. -/
  unpooled : ∀ i t e p', p.tasks[i]? = some t → t.config.connectionPooling = false →
    (machine parse).step p (.task i e) = some p' →
      p'.shared.connectionPools = p.shared.connectionPools
  /-- A get in its loop can go on, and ends the loop after so many steps. -/
  terminates : ∀ i t, p.tasks[i]? = some t → t.inLoop = true →
    (∃ p', (machine parse).step p (.task i (.get .step)) = some p') ∧
      ∀ fs q, (machine parse).Along (fun r _ => ∃ u, r.tasks[i]? = some u ∧ u.inLoop = true) p fs →
        (machine parse).run p fs = some q → fs.countP (movesOf i) ≤ loopMeasure p.shared t
  /-- What was put into the pools is pooled, about to be checked, handed out, or discarded. -/
  conserved : ((returned parse es).map fun r => r.1.stream).Perm
    ((all p.shared.connectionPools ++ p.tasks.filterMap Task.popped).map PooledConnection.stream ++
      (handedOut parse es).map Prod.fst ++ (discarded parse es).map fun out => out.1.stream)
  expired : ∀ out ∈ discarded parse es, 300 * 10 ^ 9 < out.2 - out.1.lastUsed ∨
    3600 * 10 ^ 9 < out.2 - out.1.createdAt

/-- **The connection pools, over every interleaving.** No pool has more than a hundred connections,
every stream is in one place, none is handed out more often than it was given back nor later than
five minutes after that, a context without connection pooling leaves the pools alone, the loop of a
get is never blocked and ends, and of what was given back it loses nothing but expired
connections. -/
theorem pools_safe (parse : ParseAddr) (es : List (Sched Event)) (p : Pool Shared Task)
    (hrun : (machine parse).run initial es = some p) : Safe parse es p where
  length_le _ _ hpool := length_le_of_run hrun hpool
  linear := Linear.of_places (places_le_one hrun)
  once := handedOut_countP_le hrun
  recent := handedOut_recent hrun
  unpooled _ _ _ _ ht hpooling hstep := connectionPools_of_not_pooling hrun ht hpooling hstep
  terminates _ _ ht hloop := ⟨step_of_inLoop parse ht hloop,
    fun _ _ hin hfs => loop_steps_le (mutex hrun) ht hin hfs⟩
  conserved := returned_perm hrun
  expired := discarded_expired hrun

/-- A call connects a stream and gives it back, and the next call takes it. -/
def giveAndTake : List (Sched Event) :=
  let config := (dbInstance "orders" 8000 "10.0.0.1:5432").config.tcp
  let upstream : UpstreamConfig := ⟨"db", "10.0.0.1:5432", 1, 0, 1000⟩
  [.env (.call config upstream)] ++ List.replicate 5 (.task 0 (.get .step)) ++
    [.task 0 (.get .connected), .task 0 (.get .step), .task 0 (.giveBack config "db")] ++
    List.replicate 6 (.task 1 (.get .step)) ++ [.env (.call config upstream)] ++
    List.replicate 5 (.task 2 (.get .step))

/-- The pools are safe after a stream was given back and taken again. -/
theorem pools_safe_giveAndTake :
    ∃ p, (machine parseTwo).run initial giveAndTake = some p ∧
      handedOut parseTwo giveAndTake = [(0, 0)] ∧ Safe parseTwo giveAndTake p := by
  have hsome : ((machine parseTwo).run initial giveAndTake).isSome = true := by decide +kernel
  obtain ⟨p, hrun⟩ := Option.isSome_iff_exists.mp hsome
  exact ⟨p, hrun, by decide +kernel, pools_safe parseTwo giveAndTake p hrun⟩

end HarbrRouter.Proxy.Tcp.Locks
