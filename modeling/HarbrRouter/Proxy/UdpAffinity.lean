import HarbrRouter.Proxy.UdpFrozen
import HarbrRouter.Proxy.UdpTurns

/-!
# A client stays with its upstream

`proxy/udp.rs`: the upstream of a client is chosen once, when its session is made, and kept in the
session. As long as no task finds the session expired and no instance shuts down, no task takes the
entry of the client away or replaces it, and so every datagram of the client goes to the upstream of
the session: whichever instance it comes in at, and however often sending to it has failed.

**Theorem** (`affinity`): from a state in which all tasks leave a client with its session, and along
steps that do so (`LeavesSession`), the entry stays, and the datagrams forwarded for the client all
go to one upstream.

A task is settled when it neither inserts nor removes for the client, and has no other session of it
in hand (`Task.SettledOn`). A settled task does not change the entry (`Task.SettledOn.not_writes`),
and a step that leaves the session keeps its task settled (`Task.SettledOn.step`): a handler that
looks the client up finds the session, live. The upstream of a session is written once, when the
session is made (`TaskStep.upstreamOf`), and it is where a settled task forwards to
(`forwarded_of_step`).
-/

set_option autoImplicit false

namespace HarbrRouter.Proxy.Udp

open Transition TaskPool PointRing Routing

variable {F : Type} [ScoreArith F] {D : Deployment} {tasks new : List Task} {sh sh' : Shared}
  {e : Event} {t t' : Task} {client : SocketAddr} {sid : ℕ} {upstream : UpstreamRef}

/-! ## The upstream of a session -/

/-- The upstream that a session is for. -/
def Shared.upstreamOf (sh : Shared) (sid : ℕ) : Option UpstreamRef :=
  (sh.objects[sid]?).map UdpSession.upstream

/-- The upstream of a session does not change when the session does. -/
theorem upstreamOf_modifySession (h : sh.upstreamOf sid = some upstream) (sid' : ℕ)
    {f : UdpSession → UdpSession} (hf : ∀ s, (f s).upstream = s.upstream) :
    (sh.modifySession sid' f).upstreamOf sid = some upstream := by
  obtain ⟨s, hs, hup⟩ := Option.map_eq_some_iff.mp h
  refine Option.map_eq_some_iff.mpr ⟨if sid' = sid then f s else s, ?_, ?_⟩
  · unfold Shared.modifySession
    rw [List.getElem?_modify, hs]
    split_ifs <;> rfl
  · split_ifs
    · exact (hf s).trans hup
    · exact hup

/-- The upstream of a session is the same when another session is made. -/
theorem upstreamOf_append (h : sh.upstreamOf sid = some upstream) (s : UdpSession) :
    { sh with objects := sh.objects ++ [s] }.upstreamOf sid = some upstream := by
  obtain ⟨s₀, hs₀, hup⟩ := Option.map_eq_some_iff.mp h
  exact Option.map_eq_some_iff.mpr ⟨s₀, getElem?_append_of_some hs₀ [s], hup⟩

/-- A session is for one upstream, whatever the tasks do. -/
theorem TaskStep.upstreamOf (h : TaskStep F D tasks sh t e sh' t' new)
    (hup : sh.upstreamOf sid = some upstream) : sh'.upstreamOf sid = some upstream := by
  have hcount : ∀ (sh₁ : Shared) (f : UdpProxyMetrics → UdpProxyMetrics),
      sh₁.upstreamOf sid = some upstream → (sh₁.count f).upstreamOf sid = some upstream :=
    fun sh₁ f h₁ => by rwa [Shared.upstreamOf, sh₁.count_objects]
  cases h with
  | handler h =>
      cases h with
      | start | countExpired | decActive | countCreated | incActive => exact hcount _ _ hup
      | connected => exact upstreamOf_append hup _
      | touch => exact upstreamOf_modifySession hup _ fun _ => rfl
      | @forward sid' bytes _ _ hs hsh =>
          subst hsh
          have hsent := upstreamOf_modifySession (f := fun s => s.recordBytesSent bytes)
            hup sid' fun _ => rfl
          exact hcount _ (fun m => { m with bytesSent := wrappingAdd m.bytesSent bytes }) hsent
      | _ => exact hup
  | listener h =>
      cases h with
      | received => exact hcount _ _ (upstreamOf_modifySession hup _ fun _ => rfl)
      | touch => exact upstreamOf_modifySession hup _ fun _ => rfl
      | countExpired | decActive => exact hcount _ _ hup
      | _ => exact hup
  | cleanup h =>
      cases h with
      | countExpired | decActive => exact hcount _ _ hup
      | _ => exact hup
  | server h => cases h <;> exact hup
  | reader h => exact hup

/-! ## Tasks that leave a client with its session -/

/-- A handler of the client has its session in hand or none. -/
def HandlerPc.SettledOn (sid : ℕ) : HandlerPc → Prop
  | .start | .lookup | .finished _ => True
  | .checking s | .countCreated s | .incActive s | .touching s | .forwarding s => s = sid
  | _ => False

/-- The task leaves the client with its session: a handler has this session in hand or none, nobody
is about to remove the entry, and a shutdown is past its shard. -/
def Task.SettledOn (D : Deployment) (client : SocketAddr) (sid : ℕ) : Task → Prop
  | .handler _ client' _ pc => client' = client → pc.SettledOn sid
  | .listener _ client' _ pc => client' = client → pc ≠ .removing
  | .cleanup _ pc => client ∉ pc.expired
  | .server _ (.clearing shard) => D.shardOf client < shard
  | _ => True

/-- The session that a task checks for expiry in its next step, with the instance whose timeout
counts, when it is one of the client. -/
def Task.checks (client : SocketAddr) (sessions : Sessions) : Task → Option (ℕ × ℕ)
  | .handler inst client' _ (.checking sid) | .listener inst client' sid .checking =>
      if client' = client then some (inst, sid) else none
  | .cleanup inst (.sweeping _ (client' :: _) _) =>
      if client' = client then (sessions.lookup client).map fun sid => (inst, sid) else none
  | _ => none

/-- The condition on a step: it finds no session of the client expired and starts no shutdown. -/
structure LeavesSession (D : Deployment) (client : SocketAddr) (p : Pool Shared Task)
    (a : Sched Event) : Prop where
  live : ∀ (i : ℕ) (t : Task) (inst sid : ℕ), a = .task i .step → p.tasks[i]? = some t →
    t.checks client p.shared.sessions = some (inst, sid) →
    p.shared.isExpired sid (D.timeoutSecs inst) = false
  running : ∀ i, a ≠ .task i .shutdown

/-- Who is settled does not change the entry of the client. -/
theorem Task.SettledOn.not_writes (h : t.SettledOn D client sid) : ¬ t.Writes D client := by
  intro hwrites
  unfold Task.Writes at hwrites
  split at hwrites
  · exact h hwrites
  · exact h hwrites
  · exact h hwrites rfl
  · subst hwrites
    exact h List.mem_cons_self
  · exact absurd hwrites (Nat.ne_of_lt h)
  · exact hwrites

/-- A task that comes in is settled. -/
theorem settledOn_of_mem_new (h : TaskStep F D tasks sh t e sh' t' new) {u : Task} (hu : u ∈ new) :
    u.SettledOn D client sid := by
  cases h with
  | handler h =>
      cases h with
      | listen =>
          obtain rfl := List.mem_singleton.mp hu
          exact fun _ => by simp
      | _ => exact absurd hu List.not_mem_nil
  | server h =>
      cases h with
      | bound =>
          obtain rfl := List.mem_singleton.mp hu
          exact List.not_mem_nil
      | packet =>
          obtain rfl := List.mem_singleton.mp hu
          exact fun _ => trivial
      | _ => exact absurd hu List.not_mem_nil
  | _ => exact absurd hu List.not_mem_nil

/-- A handler keeps to the session that the map has for its client, when it is live. -/
theorem HandlerStep.settledOn {inst : ℕ} {pc pc' : HandlerPc}
    (h : HandlerStep F D tasks sh inst client pc e sh' pc' new) (hsettled : pc.SettledOn sid)
    (hmapped : sh.sessions.lookup client = some sid)
    (hlive : ∀ s, pc = .checking s → e = .step → sh.isExpired s (D.timeoutSecs inst) = false) :
    pc'.SettledOn sid := by
  cases h with
  | start => trivial
  | found hfound => exact Option.some.inj (hfound.symm.trans hmapped)
  | missing hmissing =>
      rw [AList.lookup_eq_none.mpr hmissing] at hmapped
      exact absurd hmapped (by simp)
  | expired hexp =>
      rw [hlive _ rfl rfl] at hexp
      exact absurd hexp (by simp)
  | live | countCreated | incActive | touch => exact hsettled
  | forward | notForwarded => trivial
  | _ => exact hsettled.elim

/-- A round of the cleanup that finds the session of a client live does not take it along. -/
theorem not_mem_expired_of_step {inst : ℕ} {pc pc' : CleanupPc}
    (h : pc.step D tasks sh inst e = some (sh', pc')) (hold : client ∉ pc.expired)
    (hlive : ∀ shard rest expired sid, pc = .sweeping shard (client :: rest) expired → e = .step →
      sh.sessions.lookup client = some sid → sh.isExpired sid (D.timeoutSecs inst) = false) :
    client ∉ pc'.expired := by
  cases CleanupPc.step_turn h with
  | found hcheck =>
      intro hmem
      rcases List.mem_append.mp hmem with hmem | hmem
      · exact hold hmem
      · -- the client was found expired just now
        obtain rfl := List.mem_singleton.mp hmem
        obtain ⟨s, hs, hexp⟩ := (Option.any_eq_true _ _).mp hcheck
        rw [hlive _ _ _ s rfl rfl hs] at hexp
        exact absurd hexp (by simp)
  | remove | gone => exact fun hmem => hold (List.mem_cons_of_mem _ hmem)
  | tick | removed => exact List.not_mem_nil
  | _ => exact hold

/-- A start task that is not told to shut down stays where it is past the shard of the client. -/
theorem server_settledOn_of_step {inst : ℕ} {pc pc' : ServerPc}
    (h : pc.step D tasks sh inst e = some (sh', pc', new))
    (hold : (Task.server inst pc).SettledOn D client sid) (hrunning : e ≠ .shutdown) :
    (Task.server inst pc').SettledOn D client sid := by
  cases ServerPc.step_turn h with
  | bound | bindFailed | received | cleared => trivial
  | shutdown => exact absurd rfl hrunning
  | clear => exact Nat.lt_succ_of_lt hold

/-- A step that leaves the session keeps its task settled. -/
theorem Task.SettledOn.step (h : t.SettledOn D client sid)
    (hact : t.step F D tasks sh e = some (sh', t', new))
    (hmapped : sh.sessions.lookup client = some sid)
    (hlive : ∀ inst s, e = .step → t.checks client sh.sessions = some (inst, s) →
      sh.isExpired s (D.timeoutSecs inst) = false)
    (hrunning : e ≠ .shutdown) : t'.SettledOn D client sid := by
  cases t with
  | handler inst client' data pc =>
      obtain ⟨⟨sh₁, pc', new₁⟩, hpc, heq⟩ := Option.map_eq_some_iff.mp hact
      obtain ⟨rfl, rfl, rfl⟩ : _ ∧ _ ∧ _ := by simpa using heq
      rintro rfl
      refine (HandlerPc.step_inv hpc).settledOn (h rfl) hmapped fun s hs he => hlive inst s he ?_
      rw [hs]
      exact if_pos rfl
  | listener inst client' s pc =>
      obtain ⟨⟨sh₁, pc'⟩, hpc, heq⟩ := Option.map_eq_some_iff.mp hact
      obtain ⟨rfl, rfl, rfl⟩ : _ ∧ _ ∧ _ := by simpa using heq
      rintro rfl hremoving
      cases ListenerPc.step_inv hpc with
      | expired hexp =>
          rw [hlive inst s rfl (if_pos rfl)] at hexp
          exact absurd hexp (by simp)
      | _ => exact absurd hremoving (by simp)
  | cleanup inst pc =>
      obtain ⟨⟨sh₁, pc'⟩, hpc, heq⟩ := Option.map_eq_some_iff.mp hact
      obtain ⟨rfl, rfl, rfl⟩ : _ ∧ _ ∧ _ := by simpa using heq
      refine not_mem_expired_of_step hpc h fun shard rest expired s hs he hlookup => ?_
      apply hlive inst s he
      rw [hs]
      simp [Task.checks, hlookup]
  | server inst pc =>
      obtain ⟨⟨sh₁, pc', new₁⟩, hpc, heq⟩ := Option.map_eq_some_iff.mp hact
      obtain ⟨rfl, rfl, rfl⟩ : _ ∧ _ ∧ _ := by simpa using heq
      exact server_settledOn_of_step hpc h hrunning
  | reader pc =>
      obtain ⟨pc', hpc, heq⟩ := Option.map_eq_some_iff.mp hact
      obtain ⟨rfl, rfl, rfl⟩ : _ ∧ _ ∧ _ := by simpa using heq
      trivial

/-! ## Runs -/

/-- The entry of a client, and the datagrams forwarded for it after the first `n`. -/
structure Bound (client : SocketAddr) (sid : ℕ) (upstream : UpstreamRef) (n : ℕ) (sh : Shared) :
    Prop where
  mapped : sh.sessions.lookup client = some sid
  session : sh.upstreamOf sid = some upstream
  forwarded : ∀ f ∈ sh.forwarded.drop n, f.2.1 = client → f.2.2 = upstream

/-- What a settled task forwards for the client goes to the upstream of the session. -/
theorem forwarded_of_step {n : ℕ} (h : TaskStep F D tasks sh t e sh' t' new)
    (ht : t.SettledOn D client sid) (hbound : Bound client sid upstream n sh) :
    ∀ f ∈ sh'.forwarded.drop n, f.2.1 = client → f.2.2 = upstream := by
  have hcount : ∀ f : UdpProxyMetrics → UdpProxyMetrics,
      ∀ d ∈ (sh.count f).forwarded.drop n, d.2.1 = client → d.2.2 = upstream :=
    fun f => hbound.forwarded
  cases h with
  | handler h =>
      cases h with
      | start | countExpired | decActive | countCreated | incActive => exact hcount _
      | @forward sid' bytes s _ hs hsh =>
          subst hsh
          intro f hf hclient
          rcases List.mem_append.mp (List.drop_append ▸ hf) with hf | hf
          · exact hbound.forwarded f hf hclient
          · obtain rfl := List.mem_singleton.mp (List.mem_of_mem_drop hf)
            obtain rfl : sid' = sid := ht hclient
            have hup := hbound.session
            rw [Shared.upstreamOf, hs] at hup
            exact Option.some.inj hup
      | _ => exact hbound.forwarded
  | listener h =>
      cases h with
      | countExpired | decActive => exact hcount _
      | _ => exact hbound.forwarded
  | cleanup h =>
      cases h with
      | countExpired | decActive => exact hcount _
      | _ => exact hbound.forwarded
  | server h => cases h <;> exact hbound.forwarded
  | reader h => exact hbound.forwarded

/-- **A client stays with its upstream.** From a state in which the tasks leave a client with its
session, and as long as no check finds the session expired and no instance shuts down, the map keeps
the session under every interleaving, and each datagram that any instance forwards for the client
goes to the upstream of the session. -/
theorem affinity {p q : Pool Shared Task} {es : List (Sched Event)}
    (hmapped : p.shared.sessions.lookup client = some sid)
    (hsession : p.shared.upstreamOf sid = some upstream)
    (hsettled : ∀ t ∈ p.tasks, t.SettledOn D client sid)
    (hleaves : (machine F D).Along (LeavesSession D client) p es)
    (hrun : (machine F D).run p es = some q) :
    q.shared.sessions.lookup client = some sid ∧
      ∀ f ∈ q.shared.forwarded.drop p.shared.forwarded.length,
        f.2.1 = client → f.2.2 = upstream := by
  have hstart : Bound client sid upstream p.shared.forwarded.length p.shared := by
    refine ⟨hmapped, hsession, fun f hf => ?_⟩
    rw [List.drop_length] at hf
    exact absurd hf List.not_mem_nil
  have hend := (system F D).run_owickiGries (P := LeavesSession D client)
    (I := Bound client sid upstream p.shared.forwarded.length)
    (J := fun _ t => t.SettledOn D client sid) ?_ ?_ hstart hsettled hleaves hrun
  · exact ⟨hend.1.mapped, hend.1.forwarded⟩
  · intro r i e t sh t' new hI hJ hP ht hact
    have htask := Task.step_inv hact
    have hold := hJ t (List.mem_of_getElem? ht)
    refine ⟨⟨?_, htask.upstreamOf hI.session, forwarded_of_step htask hold hI⟩, ?_,
      fun u hu => settledOn_of_mem_new htask hu, fun u _ hu => hu⟩
    · rw [htask.lookup_of_not_writes hold.not_writes, hI.mapped]
    · refine hold.step hact hI.mapped (fun inst s he hchecks => ?_) fun he => ?_
      · exact hP.live i t inst s (by rw [he]) ht hchecks
      · exact hP.running i (by rw [he])
  · intro r e sh new hI _ _ henv
    rcases env_cases henv with ⟨ns, -, rfl, rfl⟩ | ⟨inst, -, rfl, rfl⟩ | ⟨-, rfl, rfl⟩
    · exact ⟨⟨hI.mapped, hI.session, hI.forwarded⟩, by simp, fun u _ hu => hu⟩
    · exact ⟨hI, by simp [Task.SettledOn], fun u _ hu => hu⟩
    · exact ⟨hI, by simp [Task.SettledOn], fun u _ hu => hu⟩

/-- A client of the first instance sends its first datagram. -/
def firstOfTwo : List (Sched Event) :=
  starts 0 0 ++ starts 1 2 ++ [.task 0 (.packet exampleClient [1])] ++ connects 4 ++
    insertsAndForwards 4

/-- The client sends its second datagram to the second instance. -/
def secondOfTwo : List (Sched Event) :=
  [.task 2 (.packet exampleClient [2])] ++ steps 6 4 ++ [.task 6 (.sent 1)]

/-- The second datagram goes where the first went. -/
theorem affinity_secondOfTwo :
    ∃ p q, (machine ℚ exampleDeployment).run (initial exampleHeap exampleRouters) firstOfTwo =
        some p ∧
      (machine ℚ exampleDeployment).run p secondOfTwo = some q ∧
      ∀ f ∈ q.shared.forwarded.drop 1, f.2.1 = exampleClient → f.2.2 = 0 := by
  have hfirst : ((machine ℚ exampleDeployment).run (initial exampleHeap exampleRouters)
      firstOfTwo).map (fun p => (p.tasks, p.shared.sessions.lookup exampleClient,
        p.shared.upstreamOf 0, p.shared.forwarded.length)) =
      some ([.server 0 .serving, .cleanup 0 .waiting, .server 1 .serving, .cleanup 1 .waiting,
        .handler 0 exampleClient [1] (.finished (.ok ())), .listener 0 exampleClient 0 .receiving],
        some 0, some 0, 1) := by decide +kernel
  have hsecond : ((machine ℚ exampleDeployment).run (initial exampleHeap exampleRouters)
      (firstOfTwo ++ secondOfTwo)).isSome = true := by decide +kernel
  have hlive : ∀ n ≤ secondOfTwo.length, ((machine ℚ exampleDeployment).run
      (initial exampleHeap exampleRouters) (firstOfTwo ++ secondOfTwo.take n)).all
        (fun p => p.tasks.all fun t => (t.checks exampleClient p.shared.sessions).all fun c =>
          !p.shared.isExpired c.2 (exampleDeployment.timeoutSecs c.1)) = true := by
    decide +kernel
  obtain ⟨p, hp, hvals⟩ := Option.map_eq_some_iff.mp hfirst
  obtain ⟨htasks, hmapped, hsession, hlength⟩ : _ ∧ _ ∧ _ ∧ _ := by
    simpa only [Prod.mk.injEq] using hvals
  obtain ⟨q, hq⟩ := Option.isSome_iff_exists.mp hsecond
  obtain ⟨p', hp', hrest⟩ := (machine ℚ exampleDeployment).run_append_eq_some.mp hq
  obtain rfl : p = p' := Option.some.inj (hp.symm.trans hp')
  have hsettled : ∀ t ∈ p.tasks, t.SettledOn exampleDeployment exampleClient 0 := by
    simp [htasks, Task.SettledOn, HandlerPc.SettledOn, CleanupPc.expired]
  refine ⟨p, q, hp, hrest, ?_⟩
  rw [← hlength]
  apply (affinity hmapped hsession hsettled ?_ hrest).2
  apply (machine ℚ exampleDeployment).along_of_getElem
  intro n a s ha hs
  constructor
  · intro i t inst sid _ ht hchecks
    have hs' := hlive n (Nat.le_of_lt (List.getElem?_eq_some_iff.mp ha).1)
    rw [(machine ℚ exampleDeployment).run_append_eq_some.mpr ⟨p, hp, hs⟩] at hs'
    have hnone := List.all_eq_true.mp hs' t (List.mem_of_getElem? ht)
    rw [hchecks] at hnone
    simpa using hnone
  · rintro i rfl
    have hmem := List.mem_of_getElem? ha
    simp [secondOfTwo, steps] at hmem

end HarbrRouter.Proxy.Udp
