import HarbrRouter.Proxy.UdpListeners
import HarbrRouter.Proxy.UdpLocks
import HarbrRouter.Proxy.UdpTurns

/-!
# A shard that is blocked for good

`proxy/udp.rs`: a packet handler that finds its session expired removes the entry while it still
holds the guard of its lookup, and waits for itself. This is what it takes with it: every task that
asks for exclusive access to the shard, now or later, waits for good, and with it the entries of all
clients of the shard and the shutdown of the instances.

**Theorem** (`frozen_forever`): in every later state all tasks that waited for the shard wait, the
entries of its clients are as they were, and no instance has shut down that had not cleared the
shard before.

A task that asks for exclusive access to a guarded shard makes no step (`step_eq_none_of_waits`),
and whoever changes an entry of the shard has to ask (`Task.Writes.wantsWrite`). So a step of any
task keeps `Frozen`, the relation between the state at the beginning and a later one
(`Frozen.step`), as long as the handler's guard is there; and the handler is one of those that wait.
-/

set_option autoImplicit false

namespace HarbrRouter.Proxy.Udp

open Transition TaskPool PointRing Routing

variable {F : Type} [ScoreArith F] {D : Deployment}

/-! ## A guarded shard -/

/-- Who is about to change the entry of a client asks for exclusive access to its shard. -/
theorem Task.Writes.wantsWrite {t : Task} {client : SocketAddr} (h : t.Writes D client) :
    t.wantsWrite D = some (D.shardOf client) := by
  unfold Task.Writes at h
  split at h
  · exact congrArg (fun c => some (D.shardOf c)) h
  · exact congrArg (fun c => some (D.shardOf c)) h
  · exact congrArg (fun c => some (D.shardOf c)) h
  · exact congrArg (fun c => some (D.shardOf c)) h
  · exact congrArg some h.symm
  · exact h.elim

/-- **Who asks for exclusive access to a guarded shard makes no step.** -/
theorem step_eq_none_of_waits {tasks : List Task} {sh : Shared} {t : Task} {shard : ℕ}
    (hwants : t.wantsWrite D = some shard) (hguard : guarded D tasks shard = true)
    (hshard : shard < D.shardCount) (e : Event) : t.step F D tasks sh e = none := by
  cases t with
  | handler inst client data pc =>
      cases pc with
      | removing | inserting sid =>
          obtain rfl : D.shardOf client = shard := by simpa [Task.wantsWrite] using hwants
          cases e <;> simp [Task.step, HandlerPc.step, hguard]
      | _ => exact absurd hwants (by simp [Task.wantsWrite])
  | listener inst client sid pc =>
      cases pc with
      | removing =>
          obtain rfl : D.shardOf client = shard := by simpa [Task.wantsWrite] using hwants
          cases e <;> simp [Task.step, ListenerPc.step, hguard]
      | _ => exact absurd hwants (by simp [Task.wantsWrite])
  | cleanup inst pc =>
      cases pc with
      | removing expired =>
          cases expired with
          | nil => exact absurd hwants (by simp [Task.wantsWrite])
          | cons client expired =>
              obtain rfl : D.shardOf client = shard := by simpa [Task.wantsWrite] using hwants
              cases e <;> simp [Task.step, CleanupPc.step, hguard]
      | _ => exact absurd hwants (by simp [Task.wantsWrite])
  | server inst pc =>
      cases pc with
      | clearing s =>
          obtain rfl : s = shard := by simpa [Task.wantsWrite] using hwants
          cases e <;> simp [Task.step, ServerPc.step, hguard, hshard]
      | _ => exact absurd hwants (by simp [Task.wantsWrite])
  | reader pc => exact absurd hwants (by simp [Task.wantsWrite])

/-! ## Clearing the map at shutdown -/

/-- Has the task cleared the shard at its shutdown? -/
def Task.cleared (shard : ℕ) : Task → Bool
  | .server _ (.clearing s) => shard < s
  | .server _ (.finished (.ok ())) => true
  | _ => false

/-- A start task clears a shard when nobody guards it. -/
theorem cleared_of_step {tasks new : List Task} {sh sh' : Shared} {e : Event} {t t' : Task}
    {shard : ℕ} (h : t.step F D tasks sh e = some (sh', t', new))
    (hguard : guarded D tasks shard = true) (hshard : shard < D.shardCount)
    (hcleared : t'.cleared shard = true) : t.cleared shard = true := by
  cases t with
  | server inst pc =>
      obtain ⟨⟨sh₁, pc', new₁⟩, hpc, heq⟩ := Option.map_eq_some_iff.mp h
      obtain ⟨rfl, rfl, rfl⟩ : _ ∧ _ ∧ _ := by simpa using heq
      cases ServerPc.step_turn hpc with
      | bound | bindFailed | received | shutdown =>
          exact absurd hcleared (by simp [Task.cleared])
      | clear hfree =>
          -- the shard that was cleared just now is another one
          rename_i s
          have hne : s ≠ shard := fun heq => hfree (heq ▸ hguard)
          simp only [Task.cleared, decide_eq_true_eq] at hcleared ⊢
          omega
      | cleared hlast =>
          simp only [Task.cleared, decide_eq_true_eq]
          omega
  | handler | listener | cleanup | reader =>
      obtain ⟨r, -, heq⟩ := Option.map_eq_some_iff.mp h
      obtain ⟨-, rfl, -⟩ : _ ∧ _ ∧ _ := by simpa using heq
      exact absurd hcleared (by simp [Task.cleared])

/-- A new task has cleared nothing. -/
theorem cleared_of_mem_new {tasks new : List Task} {sh sh' : Shared} {e : Event} {t t' u : Task}
    (h : TaskStep F D tasks sh t e sh' t' new) (hu : u ∈ new) (shard : ℕ) :
    u.cleared shard = false := by
  cases h with
  | handler h =>
      cases h with
      | listen => rw [List.mem_singleton.mp hu]; rfl
      | _ => exact absurd hu List.not_mem_nil
  | server h =>
      cases h with
      | bound | packet => rw [List.mem_singleton.mp hu]; rfl
      | _ => exact absurd hu List.not_mem_nil
  | _ => exact absurd hu List.not_mem_nil

/-! ## Ever after -/

/-- What is behind `p` as far as the shard goes: who asked for it still does, its entries are as
they were, and nobody has cleared it since. -/
structure Frozen (D : Deployment) (shard : ℕ) (p q : Pool Shared Task) : Prop where
  waits : ∀ (j : ℕ) (t : Task), p.tasks[j]? = some t → t.wantsWrite D = some shard →
    q.tasks[j]? = some t
  sessions : ∀ c, D.shardOf c = shard → q.shared.sessions.lookup c = p.shared.sessions.lookup c
  uncleared : ∀ (j : ℕ) (t : Task), q.tasks[j]? = some t → t.cleared shard = true →
    ∃ t₀, p.tasks[j]? = some t₀ ∧ t₀.cleared shard = true

/-- New tasks that have cleared nothing keep a shard frozen. -/
theorem Frozen.append {shard : ℕ} {p : Pool Shared Task} {sh sh' : Shared} {tasks new : List Task}
    (h : Frozen D shard p ⟨sh, tasks⟩) (hsessions : sh'.sessions = sh.sessions)
    (hnew : ∀ u ∈ new, u.cleared shard = false) : Frozen D shard p ⟨sh', tasks ++ new⟩ := by
  refine ⟨fun j t hj ht => ?_, fun c hc => ?_, fun j t hj ht => ?_⟩
  · exact getElem?_append_of_some (h.waits j t hj ht) new
  · rw [hsessions]
    exact h.sessions c hc
  · by_cases hlt : j < tasks.length
    · rw [List.getElem?_append_left hlt] at hj
      exact h.uncleared j t hj ht
    · rw [List.getElem?_append_right (not_lt.mp hlt)] at hj
      rw [hnew t (List.mem_of_getElem? hj)] at ht
      exact absurd ht (by decide)

/-- A step keeps a shard frozen while somebody waits who guards it. -/
theorem Frozen.step {shard : ℕ} {p q q' : Pool Shared Task} {a : Sched Event}
    (h : Frozen D shard p q) (hguard : guarded D q.tasks shard = true)
    (hshard : shard < D.shardCount) (hstep : (machine F D).step q a = some q') :
    Frozen D shard p q' := by
  rcases (system F D).step_cases hstep with ⟨i, e, t, sh, t', new, rfl, ht, hact, rfl⟩ |
    ⟨e, sh, new, rfl, henv, rfl⟩
  · have htask := Task.step_inv hact
    -- the task that moved does not wait for the shard
    have hmoves : t.wantsWrite D ≠ some shard := by
      intro hwants
      have hnone := hact.symm.trans (step_eq_none_of_waits hwants hguard hshard e)
      exact absurd hnone (by simp)
    refine ⟨fun j u hj hu => ?_, fun c hc => ?_, fun j u hj hu => ?_⟩
    · have hold := h.waits j u hj hu
      have hij : i ≠ j := by
        rintro rfl
        obtain rfl := Option.some.inj (ht.symm.trans hold)
        exact hmoves hu
      exact getElem?_append_of_some (by rw [List.getElem?_set_ne hij, hold]) new
    · subst hc
      rw [htask.lookup_of_not_writes fun hwrites => hmoves hwrites.wantsWrite, h.sessions c rfl]
    · rcases getElem?_set_append hj with ⟨rfl, rfl⟩ | ⟨-, hj⟩ | ⟨-, hmem⟩
      · exact h.uncleared _ t ht (cleared_of_step hact hguard hshard hu)
      · exact h.uncleared j u hj hu
      · rw [cleared_of_mem_new htask hmem shard] at hu
        exact absurd hu (by decide)
  · rcases env_cases henv with ⟨ns, rfl, rfl, rfl⟩ | ⟨inst, rfl, rfl, rfl⟩ | ⟨rfl, rfl, rfl⟩
    · exact h.append rfl (by simp)
    · exact h.append rfl (by simp [Task.cleared])
    · exact h.append rfl (by simp [Task.cleared])

/-- Behind a handler that waits for itself the shard of its client stays frozen. -/
theorem Frozen.of_run {p q : Pool Shared Task} {es : List (Sched Event)} {i inst : ℕ}
    {client : SocketAddr} {data : List UInt8}
    (hi : p.tasks[i]? = some (.handler inst client data .removing))
    (hrun : (machine F D).run p es = some q) : Frozen D (D.shardOf client) p q := by
  refine (machine F D).run_preserves (I := Frozen D (D.shardOf client) p) ?_
    ⟨fun j t hj _ => hj, fun c _ => rfl, fun j t hj ht => ⟨t, hj, ht⟩⟩ hrun
  intro s a s' hs hstep
  have hwaits := hs.waits i _ hi rfl
  exact hs.step (guarded_of_removing (List.mem_of_getElem? hwaits)) (D.shardOf_lt client) hstep

/-- **A handler that waits for itself blocks its shard for good.** Once a packet handler is at the
removal of an expired session, in every state that any interleaving reaches from there: every task
that asked for exclusive access to the shard of its client still does, the handler itself among
them; the entries of all clients of the shard are as they were; and no instance has shut down that
had not cleared the shard before. -/
theorem frozen_forever {p q : Pool Shared Task} {es : List (Sched Event)} {i inst : ℕ}
    {client : SocketAddr} {data : List UInt8}
    (hi : p.tasks[i]? = some (.handler inst client data .removing))
    (hrun : (machine F D).run p es = some q) :
    (∀ (j : ℕ) (t : Task), p.tasks[j]? = some t → t.wantsWrite D = some (D.shardOf client) →
        q.tasks[j]? = some t) ∧
      (∀ c, D.shardOf c = D.shardOf client →
        q.shared.sessions.lookup c = p.shared.sessions.lookup c) ∧
      ∀ (j inst' : ℕ), q.tasks[j]? = some (.server inst' (.finished (.ok ()))) →
        ∃ t, p.tasks[j]? = some t ∧ t.cleared (D.shardOf client) = true := by
  have hend := Frozen.of_run hi hrun
  exact ⟨hend.waits, hend.sessions, fun j inst' hj => hend.uncleared j _ hj rfl⟩

/-- After the idle session of `idleThenPacket`, its instance is told to shut down. -/
theorem frozen_forever_shutdown :
    ∃ p q, (machine ℚ exampleDeployment).run (initial exampleHeap exampleRouters) idleThenPacket =
        some p ∧
      (machine ℚ exampleDeployment).run p [.task 0 .shutdown] = some q ∧
      q.tasks[4]? = some (.handler 0 exampleClient [1] .removing) ∧
      q.shared.sessions.lookup exampleClient = p.shared.sessions.lookup exampleClient := by
  have hend : ((machine ℚ exampleDeployment).run (initial exampleHeap exampleRouters)
      idleThenPacket).map (fun p => p.tasks[4]?) =
        some (some (.handler 0 exampleClient [1] .removing)) := by decide +kernel
  have hshutdown : ((machine ℚ exampleDeployment).run (initial exampleHeap exampleRouters)
      (idleThenPacket ++ [.task 0 .shutdown])).isSome = true := by decide +kernel
  obtain ⟨p, hp, ht⟩ := Option.map_eq_some_iff.mp hend
  obtain ⟨q, hq⟩ := Option.isSome_iff_exists.mp hshutdown
  obtain ⟨p', hp', hrest⟩ := (machine ℚ exampleDeployment).run_append_eq_some.mp hq
  obtain rfl : p = p' := Option.some.inj (hp.symm.trans hp')
  obtain ⟨hwaits, hsessions, -⟩ := frozen_forever ht hrest
  exact ⟨p, q, hp, hrest, hwaits 4 _ ht rfl, hsessions exampleClient rfl⟩

end HarbrRouter.Proxy.Udp
