import HarbrRouter.Proxy.UdpIsolation
import HarbrRouter.Proxy.UdpSweep

/-!
# A shutdown takes the sessions of all instances

`proxy/udp.rs`, `start`: all UDP instances share one `UdpProxy`, and the instance that shuts down
clears the one sessions map. `clear` goes through the shards one after another, waiting for the
readers of each, while the handlers of the other instances go on; what it leaves is what was
inserted in the meantime, and an entry that another instance had before is gone with the rest.

**Theorem** (`cleared`): the entry of a client that nobody inserts again is gone when the shutdown
is over. As long as the entry is there, the clearing has the shard of the client before it
(`ServerPc.Ahead`): its step past that shard removes the entry (`ServerPc.ahead_of_step`), and the
steps of all others at most remove it (`Clearing.step`). At the end there is no shard before it.
-/

set_option autoImplicit false

namespace HarbrRouter.Proxy.Udp

open Transition TaskPool PointRing Routing

variable {F : Type} [ScoreArith F] {D : Deployment} {tasks new : List Task} {sh sh' : Shared}
  {e : Event} {client : SocketAddr}

/-- The clearing has the shard of the client before it. -/
def ServerPc.Ahead (D : Deployment) (client : SocketAddr) : ServerPc → Prop
  | .clearing shard => shard ≤ D.shardOf client
  | _ => False

/-- What is left after a row of removals was not among them. -/
theorem mem_of_foldl_erase {clients : List SocketAddr} {sessions : Sessions}
    (h : client ∈ clients.foldl (fun m c => m.erase c) sessions) :
    client ∉ clients ∧ client ∈ sessions := by
  induction clients generalizing sessions with
  | nil => exact ⟨List.not_mem_nil, h⟩
  | cons c clients ih =>
      obtain ⟨hrest, herase⟩ := ih h
      obtain ⟨hne, hmem⟩ := AList.mem_erase.mp herase
      refine ⟨fun hcons => ?_, hmem⟩
      rcases List.mem_cons.mp hcons with heq | hin
      · exact hne heq
      · exact hrest hin

/-- A shard that is cleared has no clients left. -/
theorem shardOf_ne_of_mem_clearShard {sessions : Sessions} {shard : ℕ}
    (h : client ∈ clearShard D sessions shard) : D.shardOf client ≠ shard := by
  intro hshard
  obtain ⟨hnot, hmem⟩ := mem_of_foldl_erase h
  exact hnot (List.mem_filter.mpr ⟨AList.mem_keys.mpr hmem, by simpa using hshard⟩)

/-- A step of the clearing keeps a client ahead, unless it removes the entry. -/
theorem ServerPc.ahead_of_step {inst : ℕ} {pc pc' : ServerPc}
    (h : pc.step D tasks sh inst e = some (sh', pc', new)) (hahead : pc.Ahead D client)
    (hmem : client ∈ sh'.sessions) : pc'.Ahead D client := by
  cases ServerPc.step_turn h with
  | bound | bindFailed | received | shutdown => exact hahead.elim
  | clear =>
      have hle : _ ≤ D.shardOf client := hahead
      have hne := shardOf_ne_of_mem_clearShard hmem
      exact Nat.lt_of_le_of_ne hle hne.symm
  | cleared hlast => exact absurd (lt_of_le_of_lt hahead (D.shardOf_lt client)) hlast

/-- The step inserts no entry for the client. -/
def InsertsNot (client : SocketAddr) (p : Pool Shared Task) (a : Sched Event) : Prop :=
  ∀ (j : ℕ) (e : Event) (t : Task), a = .task j e → p.tasks[j]? = some t →
    t.inserts ≠ some client

/-- While the client has an entry, the clearing of the start task has it ahead. -/
def Clearing (D : Deployment) (i inst : ℕ) (client : SocketAddr) (p : Pool Shared Task) : Prop :=
  ∃ pc, p.tasks[i]? = some (.server inst pc) ∧
    (client ∈ p.shared.sessions → pc.Ahead D client)

/-- A step that inserts no entry for the client keeps it ahead. -/
theorem Clearing.step {i inst : ℕ} {p p' : Pool Shared Task} {a : Sched Event}
    (h : Clearing D i inst client p) (hinserts : InsertsNot client p a)
    (hstep : (machine F D).step p a = some p') : Clearing D i inst client p' := by
  obtain ⟨pc, hpc, hclearing⟩ := h
  rcases (system F D).step_cases hstep with ⟨j, e, t, sh, t', new, rfl, ht, hact, rfl⟩ |
    ⟨e, sh, new, rfl, henv, rfl⟩
  · have hold : client ∈ sh.sessions → client ∈ p.shared.sessions :=
      mem_of_lookup fun sid hsid =>
        (Task.step_inv hact).lookup_of_not_inserts (hinserts j e t rfl ht) hsid
    by_cases hji : j = i
    · -- the clearing itself goes on
      subst hji
      obtain rfl : t = .server inst pc := Option.some.inj (ht.symm.trans hpc)
      obtain ⟨⟨sh₁, pc', new₁⟩, hpc', heq⟩ := Option.map_eq_some_iff.mp hact
      obtain ⟨rfl, rfl, rfl⟩ : _ ∧ _ ∧ _ := by simpa using heq
      refine ⟨pc', getElem?_set_append_self hpc _ _, fun hmem => ?_⟩
      exact ServerPc.ahead_of_step hpc' (hclearing (hold hmem)) hmem
    · refine ⟨pc, getElem?_append_of_some ?_ new, fun hmem => hclearing (hold hmem)⟩
      rw [List.getElem?_set_ne hji, hpc]
  · refine ⟨pc, getElem?_append_of_some hpc new, ?_⟩
    rcases env_cases henv with ⟨ns, rfl, rfl, rfl⟩ | ⟨inst', rfl, rfl, rfl⟩ | ⟨rfl, rfl, rfl⟩
    · exact hclearing
    · exact hclearing
    · exact hclearing

/-- **A shutdown takes the sessions of all instances.** When an instance that was told to shut down
begins to clear the map, then under every interleaving that inserts no entry for a client, and
whichever instance the client's session is of, the client has no entry any more when the instance
has shut down. -/
theorem cleared {i inst : ℕ} {p q : Pool Shared Task} {es : List (Sched Event)}
    (hbegin : p.tasks[i]? = some (.server inst (.clearing 0)))
    (hinserts : (machine F D).Along (InsertsNot client) p es)
    (hrun : (machine F D).run p es = some q)
    (hover : q.tasks[i]? = some (.server inst (.finished (.ok ())))) :
    client ∉ q.shared.sessions := by
  have hstart : Clearing D i inst client p := ⟨_, hbegin, fun _ => Nat.zero_le _⟩
  obtain ⟨pc, hpc, hclearing⟩ := (machine F D).run_preserves_along
    (fun s a s' hs ha hstep => hs.step ha hstep) hstart hinserts hrun
  obtain rfl : .finished (.ok ()) = pc := by simpa using hover.symm.trans hpc
  exact hclearing

/-- Of two instances with a client each, the first shuts down: the client of the second, which goes
on serving, has no entry any more. -/
theorem cleared_otherInstance :
    ∃ p q, (machine ℚ exampleDeployment).run (initial exampleHeap exampleRouters)
        (twoClients ++ [.task 0 .shutdown]) = some p ∧
      (machine ℚ exampleDeployment).run p (steps 0 2) = some q ∧
      p.shared.sessions.lookup (.v4 ⟨10, 0, 0, 2⟩ 4000) = some 1 ∧
      (p.shared.objects[1]?).map UdpSession.createdBy = some 1 ∧
      q.tasks[2]? = some (.server 1 .serving) ∧
      .v4 ⟨10, 0, 0, 2⟩ 4000 ∉ q.shared.sessions := by
  have hbegin : ((machine ℚ exampleDeployment).run (initial exampleHeap exampleRouters)
      (twoClients ++ [.task 0 .shutdown])).map (fun p => (p.tasks[0]?,
        p.shared.sessions.lookup (.v4 ⟨10, 0, 0, 2⟩ 4000),
        (p.shared.objects[1]?).map UdpSession.createdBy)) =
      some (some (.server 0 (.clearing 0)), some 1, some 1) := by decide +kernel
  have hover : ((machine ℚ exampleDeployment).run (initial exampleHeap exampleRouters)
      ((twoClients ++ [.task 0 .shutdown]) ++ steps 0 2)).map (fun q =>
        (q.tasks[0]?, q.tasks[2]?)) =
      some (some (.server 0 (.finished (.ok ()))), some (.server 1 .serving)) := by decide +kernel
  have hquiet : ∀ n ≤ (steps 0 2).length, ((machine ℚ exampleDeployment).run
      (initial exampleHeap exampleRouters)
        ((twoClients ++ [.task 0 .shutdown]) ++ (steps 0 2).take n)).all
        (fun p => p.tasks.all fun t => t.inserts.isNone) = true := by decide +kernel
  obtain ⟨p, hp, hvals⟩ := Option.map_eq_some_iff.mp hbegin
  obtain ⟨hclearing, hlookup, hcreated⟩ : _ ∧ _ ∧ _ := by simpa only [Prod.mk.injEq] using hvals
  obtain ⟨q, hq, hends⟩ := Option.map_eq_some_iff.mp hover
  obtain ⟨hfinished, hserving⟩ := Prod.mk.inj hends
  obtain ⟨p', hp', hrest⟩ := (machine ℚ exampleDeployment).run_append_eq_some.mp hq
  obtain rfl : p = p' := Option.some.inj (hp.symm.trans hp')
  refine ⟨p, q, hp, hrest, hlookup, hcreated, hserving,
    cleared hclearing ?_ hrest hfinished⟩
  apply (machine ℚ exampleDeployment).along_of_take
  intro n hn s hs a j e t _ ht
  have hs' := hquiet n hn
  rw [(machine ℚ exampleDeployment).run_append_eq_some.mpr ⟨p, hp, hs⟩] at hs'
  have hnone := List.all_eq_true.mp hs' t (List.mem_of_getElem? ht)
  rw [Option.isNone_iff_eq_none.mp hnone]
  exact (Option.some_ne_none _).symm

end HarbrRouter.Proxy.Udp
