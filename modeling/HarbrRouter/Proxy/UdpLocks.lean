import HarbrRouter.Proxy.Udp

/-!
# Locks of the sessions map

Whether a task of the UDP proxy can wait for a lock that it holds itself. The guard of the lookup in
`get_or_create_session` lives to the end of the `if let`, and the removal of an expired session is
inside.

**Theorem** (`noSelfBlock_iff`): in a run no task ever waits for its own guard exactly when every
expiry check of a packet handler finds its session unexpired. The removal in a handler is the only
program point that asks for a shard whose guard its task has (`selfBlocked_iff`). A check that finds
the session expired leads there (`step_of_expired`), and nothing else does (`selfBlocked_of_step`).
-/

set_option autoImplicit false

namespace HarbrRouter.Proxy.Udp

open Transition TaskPool PointRing Routing

variable {F : Type} [ScoreArith F] {D : Deployment}

/-- The task asks for exclusive access to a shard of which it holds a read guard. -/
def SelfBlocked (D : Deployment) (t : Task) : Prop :=
  ∃ shard, t.wantsWrite D = some shard ∧ t.readGuard D = some shard

/-- The only program point that asks for a shard it reads is the removal in a packet handler. -/
theorem selfBlocked_iff {t : Task} :
    SelfBlocked D t ↔ ∃ inst client data, t = .handler inst client data .removing := by
  constructor
  · rintro ⟨shard, hwrite, hread⟩
    cases t with
    | handler inst client data pc =>
        cases pc with
        | removing => exact ⟨inst, client, data, rfl⟩
        | inserting sid => exact absurd hread (by simp [Task.readGuard])
        | _ => exact absurd hwrite (by simp [Task.wantsWrite])
    | listener inst client sid pc => exact absurd hread (by simp [Task.readGuard])
    | cleanup inst pc =>
        cases pc with
        | sweeping => exact absurd hwrite (by simp [Task.wantsWrite])
        | _ => exact absurd hread (by simp [Task.readGuard])
    | server inst pc => exact absurd hread (by simp [Task.readGuard])
    | reader pc => exact absurd hread (by simp [Task.readGuard])
  · rintro ⟨inst, client, data, rfl⟩
    exact ⟨D.shardOf client, rfl, rfl⟩

/-- The condition on a step: an expiry check of a packet handler finds its session unexpired. -/
def UnexpiredCheck (D : Deployment) (p : Pool Shared Task) (a : Sched Event) : Prop :=
  ∀ i inst client data sid, a = .task i .step →
    p.tasks[i]? = some (.handler inst client data (.checking sid)) →
    p.shared.isExpired sid (D.timeoutSecs inst) = false

/-- A task that waits for its own guard after a step has just found its session expired: the
removal that waits does not move. -/
theorem selfBlocked_of_step {tasks : List Task} {sh sh' : Shared} {e : Event} {t t' : Task}
    {new : List Task} (h : TaskStep F D tasks sh t e sh' t' new) (hb : SelfBlocked D t') :
    ∃ inst client data sid, e = .step ∧ t = .handler inst client data (.checking sid) ∧
      sh.isExpired sid (D.timeoutSecs inst) = true := by
  obtain ⟨inst, client, data, rfl⟩ := selfBlocked_iff.mp hb
  cases h with
  | handler h =>
      cases h with
      | expired hexp => exact ⟨inst, client, data, _, rfl, rfl, hexp⟩

/-- The tasks that a step starts wait for nothing. -/
theorem not_selfBlocked_of_mem_new {tasks : List Task} {sh sh' : Shared} {e : Event} {t t' : Task}
    {new : List Task} (h : TaskStep F D tasks sh t e sh' t' new) :
    ∀ u ∈ new, ¬ SelfBlocked D u := by
  intro u hu hb
  obtain ⟨inst, client, data, rfl⟩ := selfBlocked_iff.mp hb
  cases h with
  | handler h => cases h <;> simp at hu
  | server h => cases h <;> simp at hu
  | listener h => simp at hu
  | cleanup h => simp at hu
  | reader h => simp at hu

/-- A handler that finds its session expired goes on to the removal. -/
theorem step_of_expired {p p' : Pool Shared Task} {i inst sid : ℕ} {client : SocketAddr}
    {data : List UInt8} (hi : p.tasks[i]? = some (.handler inst client data (.checking sid)))
    (hexp : p.shared.isExpired sid (D.timeoutSecs inst) = true)
    (h : (machine F D).step p (.task i .step) = some p') :
    .handler inst client data .removing ∈ p'.tasks := by
  have hact : (system F D).act p.tasks p.shared (.handler inst client data (.checking sid)) .step =
      some (p.shared, .handler inst client data .removing, []) := by
    simp [system, Task.step, HandlerPc.step, hexp]
  obtain rfl := Option.some.inj (h.symm.trans ((system F D).step_task hi hact))
  exact mem_set_append_self hi _ []

/-- **When no task waits for itself.** In a run, no state has a task that asks for exclusive access
to a shard while it holds a read guard of that shard, if and only if every expiry check of a packet
handler finds its session unexpired. -/
theorem noSelfBlock_iff {heap : Heap} {routers : ℕ → Router} {es : List (Sched Event)}
    {p : Pool Shared Task} (hrun : (machine F D).run (initial heap routers) es = some p) :
    (∀ es₁ q, es₁ <+: es → (machine F D).run (initial heap routers) es₁ = some q →
        ∀ t ∈ q.tasks, ¬ SelfBlocked D t) ↔
      (machine F D).Along (UnexpiredCheck D) (initial heap routers) es := by
  constructor
  · intro hfree
    rw [Machine.along_iff]
    rintro es₁ a es₂ rfl q hq i inst client data sid rfl hi
    by_contra hexp
    have hsplit : es₁ ++ .task i .step :: es₂ = (es₁ ++ [.task i .step]) ++ es₂ := by simp
    rw [hsplit] at hrun
    obtain ⟨q', hq', -⟩ := (machine F D).run_append_eq_some.mp hrun
    obtain ⟨q₁, hq₁, hstep⟩ := (machine F D).run_append_eq_some.mp hq'
    obtain rfl : q = q₁ := Option.some.inj (hq.symm.trans hq₁)
    rw [Machine.run_singleton] at hstep
    exact hfree _ q' (hsplit ▸ List.prefix_append _ es₂) hq' _
      (step_of_expired hi (by simpa using hexp) hstep)
      (selfBlocked_iff.mpr ⟨inst, client, data, rfl⟩)
  · rintro halong es₁ q ⟨es₂, rfl⟩ hq
    refine (machine F D).run_preserves_along (I := fun q => ∀ t ∈ q.tasks, ¬ SelfBlocked D t)
      ?_ (by simp [initial]) halong.of_append hq
    intro r a r' hr ha hstep t ht hb
    rcases machine_step hstep with ⟨i, e, u, sh, u', new, rfl, hu, htask, rfl⟩ |
      ⟨ns, rfl, rfl⟩ | ⟨inst, rfl, rfl⟩ | ⟨rfl, rfl⟩
    · rcases mem_set_append ht with rfl | ht | ht
      · obtain ⟨inst, client, data, sid, rfl, rfl, hexp⟩ := selfBlocked_of_step htask hb
        rw [ha i inst client data sid rfl hu] at hexp
        exact absurd hexp (by decide)
      · exact hr t ht hb
      · exact not_selfBlocked_of_mem_new htask t ht hb
    · exact hr t (by simpa using ht) hb
    · obtain ⟨_, _, _, rfl⟩ := selfBlocked_iff.mp hb
      exact hr _ (by simpa using ht) hb
    · obtain ⟨_, _, _, rfl⟩ := selfBlocked_iff.mp hb
      exact hr _ (by simpa using ht) hb

/-- A client's session is created and forwarded through; it is idle for 31 seconds, no cleanup runs
in between, and the client sends again. -/
def idleThenPacket : List (Sched Event) :=
  starts 0 0 ++ [.task 0 (.packet exampleClient [1])] ++ connects 2 ++ insertsAndForwards 2 ++
    [.env (.advance (31 * 10 ^ 9)), .task 0 (.packet exampleClient [1])] ++ steps 4 3

/-- The handler of the second datagram waits for the guard that it holds. -/
theorem expired_session_blocks :
    ∃ p, (machine ℚ exampleDeployment).run (initial exampleHeap exampleRouters) idleThenPacket =
        some p ∧ ∃ t ∈ p.tasks, SelfBlocked exampleDeployment t := by
  have hend : ((machine ℚ exampleDeployment).run (initial exampleHeap exampleRouters)
      idleThenPacket).map (fun p => p.tasks[4]?) =
        some (some (.handler 0 exampleClient [1] .removing)) := by decide +kernel
  obtain ⟨p, hp, ht⟩ := Option.map_eq_some_iff.mp hend
  exact ⟨p, hp, _, List.mem_of_getElem? ht, selfBlocked_iff.mpr ⟨0, exampleClient, [1], rfl⟩⟩

/-- The same client sends a second datagram at once, while its session is live. -/
def packetInTime : List (Sched Event) :=
  starts 0 0 ++ [.task 0 (.packet exampleClient [1])] ++ connects 2 ++ insertsAndForwards 2 ++
    [.env (.advance 5), .task 0 (.packet exampleClient [1])] ++ steps 4 4

/-- No task waits for itself when the second datagram is in time. -/
theorem noSelfBlock_iff_packetInTime :
    ∃ p, (machine ℚ exampleDeployment).run (initial exampleHeap exampleRouters) packetInTime =
        some p ∧ ∀ t ∈ p.tasks, ¬ SelfBlocked exampleDeployment t := by
  have hend : ((machine ℚ exampleDeployment).run (initial exampleHeap exampleRouters)
      packetInTime).isSome = true := by decide +kernel
  -- no session of this run is ever idle for long
  have hstates : ∀ n ≤ packetInTime.length, ((machine ℚ exampleDeployment).run
      (initial exampleHeap exampleRouters) (packetInTime.take n)).all (fun q =>
        q.shared.objects.all fun s => !s.isExpired 30 q.shared.now) = true := by decide +kernel
  obtain ⟨p, hp⟩ := Option.isSome_iff_exists.mp hend
  refine ⟨p, hp, (noSelfBlock_iff hp).mpr ?_ packetInTime p (List.prefix_refl _) hp⟩
  refine (machine _ _).along_of_take fun n hn q hq a i inst client data sid _ _ => ?_
  have hq' := hstates n hn
  rw [hq] at hq'
  have htimeout : exampleDeployment.timeoutSecs inst = 30 := rfl
  cases hs : q.shared.objects[sid]? with
  | none => simp [Shared.isExpired, hs]
  | some s =>
      have hunexpired := List.all_eq_true.mp hq' s (List.mem_of_getElem? hs)
      simpa [Shared.isExpired, hs, htimeout] using hunexpired

end HarbrRouter.Proxy.Udp
