import HarbrRouter.Lib.Progress
import HarbrRouter.Proxy.UdpFrozen

/-!
# Which locks are granted

`proxy/udp.rs`: a task that inserts, removes or clears waits for the readers of its shard. What a
reader has left to do with its guard is short, and it waits for nobody, with one exception: the
removal in `get_or_create_session`. So the tasks that wait for a shard get it if the readers go on,
unless a packet handler is at that removal, and then none of them does.

**Theorem** (`granted_iff`): who waits gets the shard exactly when no handler waits for itself. (⇐)
A reader that does not wait for itself can make a step (`exists_step_of_readGuard`), and each step
of a reader leaves less to do before its guard is dropped (`Task.guardWork`, `Draining.step`); so
the readers run to the release of the shard (`exists_run_unguarded`), and the task goes on
(`exists_step_of_wantsWrite`). (⇒) A handler that waits for itself is there in every later state,
with its guard.
-/

set_option autoImplicit false

namespace HarbrRouter.Proxy.Udp

open Transition TaskPool PointRing Routing

variable {F : Type} [ScoreArith F] {D : Deployment}

/-! ## What a reader has left to do -/

/-- The handler waits for the shard that it reads. -/
def Task.RemovesHeld (D : Deployment) (shard : ℕ) : Task → Prop
  | .handler _ client _ .removing => D.shardOf client = shard
  | _ => False

/-- A handler that waits for the shard that it reads is at the removal. -/
theorem Task.RemovesHeld.eq_removing {shard : ℕ} {t : Task} (h : t.RemovesHeld D shard) :
    ∃ inst client data, t = .handler inst client data .removing := by
  unfold Task.RemovesHeld at h
  split at h
  · exact ⟨_, _, _, rfl⟩
  · exact h.elim

/-- The handler is about to find the session of the shard expired. -/
def Task.ChecksExpired (D : Deployment) (sh : Shared) (shard : ℕ) : Task → Prop
  | .handler inst client _ (.checking sid) =>
      D.shardOf client = shard ∧ sh.isExpired sid (D.timeoutSecs inst) = true
  | _ => False

/-- How many steps of a task end at the latest with the drop of its guard. -/
def Task.guardWork : Task → ℕ
  | .handler _ _ _ (.checking _) => 1
  | .handler _ _ _ .countExpired => 2
  | .handler _ _ _ .decActive => 1
  | .cleanup _ (.sweeping _ rest _) => rest.length + 1
  | _ => 0

/-- The next step is one of a reader of the shard, in its own code. -/
def ReaderSteps (D : Deployment) (shard : ℕ) (p : Pool Shared Task) (a : Sched Event) : Prop :=
  ∃ j t, a = .task j .step ∧ p.tasks[j]? = some t ∧ t.readGuard D = some shard

/-- A reader that does not wait for itself can go on. -/
theorem exists_step_of_readGuard {tasks : List Task} {sh : Shared} {t : Task} {shard : ℕ}
    (hguard : t.readGuard D = some shard) (hremoves : ¬ t.RemovesHeld D shard) :
    ∃ r, t.step F D tasks sh .step = some r := by
  cases t with
  | handler inst client data pc =>
      cases pc with
      | checking sid =>
          by_cases hexp : sh.isExpired sid (D.timeoutSecs inst) = true
          · simp [Task.step, HandlerPc.step, hexp]
          · simp [Task.step, HandlerPc.step, hexp]
      | removing => exact absurd (Option.some.inj hguard) hremoves
      | countExpired | decActive => exact ⟨_, rfl⟩
      | _ => exact absurd hguard (by simp [Task.readGuard])
  | cleanup inst pc =>
      cases pc with
      | sweeping s rest expired =>
          cases rest with
          | nil => exact ⟨_, rfl⟩
          | cons client rest =>
              by_cases hexp : (sh.sessions.lookup client).any (fun sid =>
                  sh.isExpired sid (D.timeoutSecs inst)) = true
              · simp [Task.step, CleanupPc.step, hexp]
              · simp [Task.step, CleanupPc.step, hexp]
      | _ => exact absurd hguard (by simp [Task.readGuard])
  | _ => exact absurd hguard (by simp [Task.readGuard])

/-- What a step of a reader does to its shard: it gets nearer to the drop of the guard, and no
session expires by it. -/
structure Drains (D : Deployment) (shard : ℕ) (sh sh' : Shared) (t t' : Task) : Prop where
  objects : sh'.objects = sh.objects
  now : sh'.now = sh.now
  work : t'.guardWork < t.guardWork
  removes : ¬ t'.RemovesHeld D shard
  checks : ¬ t'.ChecksExpired D sh' shard

/-- A reader that is not about to find its session expired goes on to the drop of its guard. -/
theorem TaskStep.drains {tasks new : List Task} {sh sh' : Shared} {t t' : Task} {shard : ℕ}
    (h : TaskStep F D tasks sh t .step sh' t' new) (hguard : t.readGuard D = some shard)
    (hremoves : ¬ t.RemovesHeld D shard) (hchecks : ¬ t.ChecksExpired D sh shard) :
    Drains D shard sh sh' t t' ∧ new = [] := by
  cases h with
  | handler h =>
      cases h with
      | expired hexp => exact absurd ⟨Option.some.inj hguard, hexp⟩ hchecks
      | remove => exact absurd (Option.some.inj hguard) hremoves
      | live => exact ⟨⟨rfl, rfl, Nat.zero_lt_one, id, id⟩, rfl⟩
      | countExpired =>
          exact ⟨⟨Shared.count_objects _ _, Shared.count_now _ _, Nat.one_lt_two, id, id⟩, rfl⟩
      | decActive =>
          exact ⟨⟨Shared.count_objects _ _, Shared.count_now _ _, Nat.zero_lt_one, id, id⟩, rfl⟩
      | _ => exact absurd hguard (by simp [Task.readGuard])
  | cleanup h =>
      cases h with
      | check => exact ⟨⟨rfl, rfl, Nat.lt_succ_self _, id, id⟩, rfl⟩
      | leave => exact ⟨⟨rfl, rfl, Nat.zero_lt_one, id, id⟩, rfl⟩
      | _ => exact absurd hguard (by simp [Task.readGuard])
  | _ => exact absurd hguard (by simp [Task.readGuard])

/-! ## The readers go on -/

/-- What holds while only readers of the shard go on: the waiting task is where it was, and no
handler waits for itself or is going to. -/
structure Draining (D : Deployment) (shard i : ℕ) (t : Task) (q : Pool Shared Task) : Prop where
  waits : q.tasks[i]? = some t
  removes : ∀ u ∈ q.tasks, ¬ u.RemovesHeld D shard
  checks : ∀ u ∈ q.tasks, ¬ u.ChecksExpired D q.shared shard

/-- Who waits for a shard and holds its guard is the handler that waits for itself. -/
theorem readGuard_ne_of_wantsWrite {t : Task} {shard : ℕ} (hwants : t.wantsWrite D = some shard)
    (hremoves : ¬ t.RemovesHeld D shard) : t.readGuard D ≠ some shard := by
  intro hguard
  obtain ⟨inst, client, data, rfl⟩ := selfBlocked_iff.mp ⟨shard, hwants, hguard⟩
  exact hremoves (Option.some.inj hguard)

/-- Sessions that are as they were expire no sooner. -/
theorem Task.ChecksExpired.congr {sh sh' : Shared} {shard : ℕ} {u : Task}
    (hobjects : sh'.objects = sh.objects) (hnow : sh'.now = sh.now)
    (h : u.ChecksExpired D sh' shard) : u.ChecksExpired D sh shard := by
  unfold Task.ChecksExpired at h ⊢
  unfold Shared.isExpired at h ⊢
  rw [hobjects, hnow] at h
  exact h

/-- A step of a reader leaves less for the readers to do. -/
theorem Draining.step {shard i : ℕ} {t : Task} {q q' : Pool Shared Task} {a : Sched Event}
    (h : Draining D shard i t q) (hwants : t.wantsWrite D = some shard)
    (ha : ReaderSteps D shard q a) (hstep : (machine F D).step q a = some q') :
    Draining D shard i t q' ∧
      (q'.tasks.map Task.guardWork).sum < (q.tasks.map Task.guardWork).sum := by
  obtain ⟨j, u, rfl, hu, hguard⟩ := ha
  rcases machine_step hstep with ⟨j', e, u', sh, u'', new, heq, hu', htask, rfl⟩ |
    ⟨_, heq, -⟩ | ⟨_, heq, -⟩ | ⟨heq, -⟩
  · obtain ⟨rfl, rfl⟩ : j = j' ∧ Event.step = e := by simpa using heq
    obtain rfl : u = u' := Option.some.inj (hu.symm.trans hu')
    have hmem := List.mem_of_getElem? hu
    obtain ⟨hdrains, rfl⟩ := htask.drains hguard (h.removes u hmem) (h.checks u hmem)
    have hij : j ≠ i := by
      rintro rfl
      obtain rfl := Option.some.inj (hu.symm.trans h.waits)
      exact readGuard_ne_of_wantsWrite hwants (h.removes u hmem) hguard
    refine ⟨⟨?_, fun v hv => ?_, fun v hv => ?_⟩, ?_⟩
    · exact getElem?_append_of_some (by rw [List.getElem?_set_ne hij, h.waits]) []
    · rcases mem_set_append hv with rfl | hv | hv
      · exact hdrains.removes
      · exact h.removes v hv
      · exact absurd hv List.not_mem_nil
    · rcases mem_set_append hv with rfl | hv | hv
      · exact hdrains.checks
      · exact fun hexp => h.checks v hv (hexp.congr hdrains.objects hdrains.now)
      · exact absurd hv List.not_mem_nil
    · have hsum := sum_map_set_append Task.guardWork hu u'' []
      have hwork := hdrains.work
      simp only [List.map_nil, List.sum_nil, Nat.add_zero] at hsum
      exact Nat.lt_of_add_lt_add_right (hsum ▸ Nat.add_lt_add_left hwork _)
  · exact absurd heq (by simp)
  · exact absurd heq (by simp)
  · exact absurd heq (by simp)

/-- **The readers of a shard run to its release.** -/
theorem exists_run_unguarded {shard i : ℕ} {t : Task} {p : Pool Shared Task}
    (h : Draining D shard i t p) (hwants : t.wantsWrite D = some shard) :
    ∃ es q, (machine F D).run p es = some q ∧ q.tasks[i]? = some t ∧
      guarded D q.tasks shard = false := by
  have hrun : ∃ es q, (machine F D).Along (ReaderSteps D shard) p es ∧
      (machine F D).run p es = some q ∧ (machine F D).Stuck (ReaderSteps D shard) q :=
    Machine.exists_run_stuck (fun s a s' hs ha hstep => hs.step hwants ha hstep) h
  obtain ⟨es, q, halong, hrun, hstuck⟩ := hrun
  have hend : Draining D shard i t q :=
    (machine F D).run_preserves_along (fun s a s' hs ha hstep => (hs.step hwants ha hstep).1)
      h halong hrun
  refine ⟨es, q, hrun, hend.waits, Bool.eq_false_iff.mpr fun hguarded => ?_⟩
  -- a reader that is left could go on
  obtain ⟨u, hu, hguard⟩ := List.any_eq_true.mp hguarded
  obtain ⟨j, hj⟩ := List.mem_iff_getElem?.mp hu
  have hguard : u.readGuard D = some shard := by simpa using hguard
  obtain ⟨⟨sh, u', new⟩, hact⟩ : ∃ r, u.step F D q.tasks q.shared .step = some r :=
    exists_step_of_readGuard hguard (hend.removes u hu)
  exact hstuck _ _ ⟨j, u, rfl, hj, hguard⟩ ((system F D).step_task hj hact)

/-- Who waits for a shard that nobody reads goes on. -/
theorem exists_step_of_wantsWrite {tasks : List Task} {sh : Shared} {t : Task} {shard : ℕ}
    (hwants : t.wantsWrite D = some shard) (hguard : guarded D tasks shard = false) :
    (t.step F D tasks sh .step).isSome = true := by
  cases t with
  | handler inst client data pc =>
      cases pc with
      | removing | inserting sid =>
          obtain rfl : D.shardOf client = shard := by simpa [Task.wantsWrite] using hwants
          simp [Task.step, HandlerPc.step, hguard]
      | _ => exact absurd hwants (by simp [Task.wantsWrite])
  | listener inst client sid pc =>
      cases pc with
      | removing =>
          obtain rfl : D.shardOf client = shard := by simpa [Task.wantsWrite] using hwants
          simp [Task.step, ListenerPc.step, hguard]
      | _ => exact absurd hwants (by simp [Task.wantsWrite])
  | cleanup inst pc =>
      cases pc with
      | removing expired =>
          cases expired with
          | nil => exact absurd hwants (by simp [Task.wantsWrite])
          | cons client expired =>
              obtain rfl : D.shardOf client = shard := by simpa [Task.wantsWrite] using hwants
              by_cases hmem : client ∈ sh.sessions
              · simp [Task.step, CleanupPc.step, hguard, hmem]
              · simp [Task.step, CleanupPc.step, hguard, hmem]
      | _ => exact absurd hwants (by simp [Task.wantsWrite])
  | server inst pc =>
      cases pc with
      | clearing s =>
          obtain rfl : s = shard := by simpa [Task.wantsWrite] using hwants
          by_cases hlt : s < D.shardCount
          · simp [Task.step, ServerPc.step, hguard, hlt]
          · simp [Task.step, ServerPc.step, hlt]
      | _ => exact absurd hwants (by simp [Task.wantsWrite])
  | reader pc => exact absurd hwants (by simp [Task.wantsWrite])

/-! ## Who gets the shard -/

/-- **Who waits gets the shard exactly when no handler waits for itself.** In any state in which no
packet handler is about to find a session of the shard expired, a task that waits for exclusive
access to the shard can be granted it, by some way on of the others, if and only if no packet
handler is at the removal of a session of the shard. -/
theorem granted_iff {p : Pool Shared Task} {i shard : ℕ} {t : Task}
    (hi : p.tasks[i]? = some t) (hwants : t.wantsWrite D = some shard)
    (hchecks : ∀ u ∈ p.tasks, ¬ u.ChecksExpired D p.shared shard) :
    (∃ es q e, (machine F D).run p es = some q ∧ q.tasks[i]? = some t ∧
        (t.step F D q.tasks q.shared e).isSome = true) ↔
      ∀ u ∈ p.tasks, ¬ u.RemovesHeld D shard := by
  constructor
  · rintro ⟨es, q, e, hrun, -, hgoes⟩ u hu hremoves
    obtain ⟨inst, client, data, rfl⟩ := hremoves.eq_removing
    obtain rfl : D.shardOf client = shard := hremoves
    obtain ⟨j, hj⟩ := List.mem_iff_getElem?.mp hu
    have hfrozen := Frozen.of_run hj hrun
    have hguard := guarded_of_removing (D := D) (List.mem_of_getElem? (hfrozen.waits j _ hj rfl))
    rw [step_eq_none_of_waits hwants hguard (D.shardOf_lt client) e] at hgoes
    exact absurd hgoes (by simp)
  · intro hremoves
    obtain ⟨es, q, hrun, hq, hguard⟩ :=
      exists_run_unguarded (F := F) ⟨hi, hremoves, hchecks⟩ hwants
    exact ⟨es, q, .step, hrun, hq, exists_step_of_wantsWrite hwants hguard⟩

/-- A handler is about to insert its session, and the cleanup task of the instance is in the
shard. -/
def insertsInSweep : List (Sched Event) :=
  starts 0 0 ++ [.task 0 (.packet exampleClient [1])] ++ connects 2 ++
    [.task 1 .tick, .task 1 (.order [])]

/-- The handler waits for the cleanup task, and gets the shard. -/
theorem granted_iff_insertsInSweep :
    ∃ p, (machine ℚ exampleDeployment).run (initial exampleHeap exampleRouters) insertsInSweep =
        some p ∧
      guarded exampleDeployment p.tasks 0 = true ∧
      ∃ es q e, (machine ℚ exampleDeployment).run p es = some q ∧
        q.tasks[2]? = some (.handler 0 exampleClient [1] (.inserting 0)) ∧
        (Task.step ℚ exampleDeployment q.tasks q.shared e
          (.handler 0 exampleClient [1] (.inserting 0))).isSome = true := by
  have hend : ((machine ℚ exampleDeployment).run (initial exampleHeap exampleRouters)
      insertsInSweep).map (fun p => p.tasks) = some [.server 0 .serving,
        .cleanup 0 (.sweeping 0 [] []), .handler 0 exampleClient [1] (.inserting 0),
        .listener 0 exampleClient 0 .receiving] := by decide +kernel
  obtain ⟨p, hp, htasks⟩ := Option.map_eq_some_iff.mp hend
  refine ⟨p, hp, by rw [htasks]; decide, ?_⟩
  refine (granted_iff (by rw [htasks]; rfl) rfl ?_).mpr ?_
  · simp [htasks, Task.ChecksExpired]
  · simp [htasks, Task.RemovesHeld]

end HarbrRouter.Proxy.Udp
