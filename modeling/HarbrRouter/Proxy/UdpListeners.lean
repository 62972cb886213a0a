import HarbrRouter.Proxy.UdpRemoval

/-!
# One listener for each client, and none for a session that is gone

`proxy/udp.rs`: the handler of a datagram that finds no session makes one in three steps, its
socket, its listener and its entry in the map, and the listener ends only by itself, after a
receive. So two handlers of one client can each start a listener, and an entry can go while its
listener waits.

**Theorem** (`listeners_tracked`): in runs of orphanless steps, whenever no handler is inside
`get_or_create_session`, each client has at most one listener, and one that waits for its upstream
belongs to the session in the map. Orphanless is a step that starts no second listener for a client,
and takes away or replaces no entry whose listener goes on (`Orphanless`).

The invariant is that the session of a listener that goes on is in the map, or its handler is about
to insert it (`Tracked`). A step that starts no listener keeps it if it takes away no entry that is
needed (`move`), and that is what the condition says of each task that removes or inserts; the
listener of a handler's new session is the client's only one, and the insertion comes next
(`listen`).
-/

set_option autoImplicit false

namespace HarbrRouter.Proxy.Udp

open Transition TaskPool PointRing Routing

/-! ## Listeners and entries -/

/-- The client of a listener that has not stopped. -/
def Task.listensTo : Task → Option SocketAddr
  | .listener _ _ _ .stopped => none
  | .listener _ client _ _ => some client
  | _ => none

/-- The client and the session of a listener that is in its loop, on its way to the next receive. -/
def Task.loops : Task → Option (SocketAddr × ℕ)
  | .listener _ client sid pc =>
      match pc with
      | .receiving | .sending | .touching | .checking => some (client, sid)
      | .removing | .countExpired | .decActive | .stopped => none
  | _ => none

/-- The entry that a handler inserts in its next step. -/
def Task.insertsEntry : Task → Option (SocketAddr × ℕ)
  | .handler _ client _ (.inserting sid) => some (client, sid)
  | _ => none

/-- The next step of the task takes the entry of the client away, other than by a listener, or
replaces it: the session in it is `sid`. -/
def Task.Drops (D : Deployment) (client : SocketAddr) (sid : ℕ) : Task → Prop
  | .handler _ client' _ (.inserting sid') => client' = client ∧ sid' ≠ sid
  | .cleanup _ (.removing (client' :: _)) => client' = client
  | .server _ (.clearing shard) => D.shardOf client = shard
  | _ => False

/-- Is the handler inside `get_or_create_session`? -/
def HandlerPc.inside : HandlerPc → Bool
  | .start | .touching _ | .forwarding _ | .finished _ => false
  | _ => true

/-- Is the task a handler inside `get_or_create_session`? -/
def Task.inside : Task → Bool
  | .handler _ _ _ pc => pc.inside
  | _ => false

/-- Each client has at most one live listener, and each listener that waits in `recv` belongs to the
session that the map has for its client. -/
structure ListenersTracked (p : Pool Shared Task) : Prop where
  exclusive : ∀ client, AtMostOne (fun t : Task => t.listensTo = some client) p.tasks
  mapped : ∀ inst client sid, .listener inst client sid .receiving ∈ p.tasks →
    p.shared.sessions.lookup client = some sid

/-- The condition on a step of the task `t`. -/
structure OrphanlessStep (D : Deployment) (p : Pool Shared Task) (t : Task) : Prop where
  /-- A listener is started only for a client without one. -/
  listen : ∀ inst client data sid, t = .handler inst client data (.startListener sid) →
    ∀ u ∈ p.tasks, u.listensTo ≠ some client
  /-- An entry is taken away or replaced only when its session's listener has left its loop. -/
  drop : ∀ client sid, t.Drops D client sid → p.shared.sessions.lookup client = some sid →
    ∀ u ∈ p.tasks, u.loops ≠ some (client, sid)

/-- The condition on the steps of a run. -/
def Orphanless (D : Deployment) (p : Pool Shared Task) (a : Sched Event) : Prop :=
  ∀ i e t, a = .task i e → p.tasks[i]? = some t → OrphanlessStep D p t

/-! ## The invariant -/

/-- The invariant of orphanless runs. -/
structure Tracked (p : Pool Shared Task) : Prop where
  exclusive : ∀ client, AtMostOne (fun t : Task => t.listensTo = some client) p.tasks
  mapped : ∀ u ∈ p.tasks, ∀ client sid, u.loops = some (client, sid) →
    p.shared.sessions.lookup client = some sid ∨
      ∃ v ∈ p.tasks, v.insertsEntry = some (client, sid)

/-- A listener in its loop is live. -/
theorem Task.listensTo_of_loops {t : Task} {client : SocketAddr} {sid : ℕ}
    (h : t.loops = some (client, sid)) : t.listensTo = some client := by
  cases t with
  | listener inst client' sid' pc =>
      cases pc with
      | receiving | sending | touching | checking =>
          obtain ⟨rfl, -⟩ := Prod.mk.inj (Option.some.inj h)
          rfl
      | _ => simp [Task.loops] at h
  | _ => simp [Task.loops] at h

namespace Tracked

variable {p : Pool Shared Task} {i : ℕ} {t t' : Task} {sh' : Shared} {new : List Task}

/-- **A step that starts no listener** keeps the invariant if it takes away no entry whose session
still needs it: the task that moves goes on listening or stops, and what it was about to insert it
has inserted. -/
theorem move (h : Tracked p) (ht : p.tasks[i]? = some t)
    (hlistens : ∀ client, t'.listensTo = some client → t.listensTo = some client)
    (hloops : ∀ c, t'.loops = some c → t.loops = some c)
    (hnew : ∀ u ∈ new, u.listensTo = none)
    (hinserts : ∀ client sid, t.insertsEntry = some (client, sid) →
      t'.insertsEntry = some (client, sid) ∨ sh'.sessions.lookup client = some sid)
    (hsessions : ∀ u ∈ p.tasks, ∀ client sid, u.loops = some (client, sid) →
      p.shared.sessions.lookup client = some sid → sh'.sessions.lookup client = some sid) :
    Tracked ⟨sh', p.tasks.set i t' ++ new⟩ := by
  have hnewloops : ∀ u ∈ new, ∀ client sid, u.loops ≠ some (client, sid) := by
    intro u hu client sid hc
    have hnone := hnew u hu
    rw [Task.listensTo_of_loops hc] at hnone
    exact absurd hnone (by simp)
  -- a listener in its loop after the step was in it before
  have hold : ∀ u ∈ p.tasks.set i t' ++ new, ∀ client sid, u.loops = some (client, sid) →
      ∃ v ∈ p.tasks, v.loops = some (client, sid) := by
    intro u hu client sid hc
    rcases mem_set_append hu with rfl | hu | hu
    · exact ⟨t, List.mem_of_getElem? ht, hloops _ hc⟩
    · exact ⟨u, hu, hc⟩
    · exact absurd hc (hnewloops u hu client sid)
  refine ⟨fun client => (h.exclusive client).set_append ht (fun u hu => ?_) fun hc =>
    Or.inl (hlistens client hc), fun u hu client sid hc => ?_⟩
  · rw [hnew u hu]
    exact fun hc => absurd hc (by simp)
  · obtain ⟨v, hv, hvc⟩ := hold u hu client sid hc
    rcases h.mapped v hv client sid hvc with hlookup | ⟨w, hw, hins⟩
    · exact Or.inl (hsessions v hv client sid hvc hlookup)
    · by_cases hwt : w = t
      · rcases hinserts client sid (hwt ▸ hins) with hins' | hlookup
        · exact Or.inr ⟨t', mem_set_append_self ht t' new, hins'⟩
        · exact Or.inl hlookup
      · exact Or.inr ⟨w, mem_set_append_of_ne ht hw hwt t' new, hins⟩

/-- A step that leaves the map alone and starts no listener keeps the invariant. -/
theorem quiet (h : Tracked p) (ht : p.tasks[i]? = some t)
    (hsessions : sh'.sessions = p.shared.sessions)
    (hlistens : ∀ client, t'.listensTo = some client → t.listensTo = some client)
    (hloops : ∀ c, t'.loops = some c → t.loops = some c)
    (hinserts : t.insertsEntry = none) (hnew : ∀ u ∈ new, u.listensTo = none) :
    Tracked ⟨sh', p.tasks.set i t' ++ new⟩ := by
  refine h.move ht hlistens hloops hnew (fun client sid hc => ?_) fun u _ client sid _ hl => ?_
  · rw [hinserts] at hc
    exact absurd hc (by simp)
  · rwa [hsessions]

/-! ## Every step of an orphanless run -/

variable {F : Type} [ScoreArith F] {D : Deployment} {e : Event}

/-- A listener that starts is the client's only one, and its handler inserts its session next. -/
theorem listen (h : Tracked p) {inst sid : ℕ} {client : SocketAddr} {data : List UInt8}
    (ht : p.tasks[i]? = some (.handler inst client data (.startListener sid)))
    (ho : OrphanlessStep D p (.handler inst client data (.startListener sid))) :
    Tracked ⟨p.shared, p.tasks.set i (.handler inst client data (.inserting sid)) ++
      [.listener inst client sid .receiving]⟩ := by
  have hnone := ho.listen inst client data sid rfl
  constructor
  · intro client'
    by_cases hc : client' = client
    · subst hc
      exact AtMostOne.set_append_singleton hnone (by simp [Task.listensTo])
    · refine (h.exclusive client').set_append ht (fun u hu => ?_) fun hc' => ?_
      · obtain rfl := List.mem_singleton.mp hu
        exact fun hc' => hc (Option.some.inj hc').symm
      · exact absurd hc' (by simp [Task.listensTo])
  · intro u hu client' sid' hc
    rcases mem_set_append hu with rfl | hu | hu
    · exact absurd hc (by simp [Task.loops])
    · rcases h.mapped u hu client' sid' hc with hlookup | ⟨v, hv, hins⟩
      · exact Or.inl hlookup
      · refine Or.inr ⟨v, mem_set_append_of_ne ht hv ?_ _ _, hins⟩
        rintro rfl
        exact absurd hins (by simp [Task.insertsEntry])
    · obtain rfl := List.mem_singleton.mp hu
      obtain ⟨rfl, rfl⟩ := Prod.mk.inj (Option.some.inj hc)
      exact Or.inr ⟨_, mem_set_append_self ht _ _, rfl⟩

/-- An orphanless step of a handler keeps the invariant. -/
theorem handler (h : Tracked p) {inst : ℕ} {client : SocketAddr} {data : List UInt8}
    {pc pc' : HandlerPc} (ht : p.tasks[i]? = some (.handler inst client data pc))
    (hstep : HandlerStep F D p.tasks p.shared inst client pc e sh' pc' new)
    (ho : OrphanlessStep D p (.handler inst client data pc)) :
    Tracked ⟨sh', p.tasks.set i (.handler inst client data pc') ++ new⟩ := by
  have hlistens : ∀ c, (Task.handler inst client data pc').listensTo = some c →
      (Task.handler inst client data pc).listensTo = some c := fun _ hc => by
    simp [Task.listensTo] at hc
  have hloops : ∀ c, (Task.handler inst client data pc').loops = some c →
      (Task.handler inst client data pc).loops = some c := fun _ hc => by simp [Task.loops] at hc
  cases hstep with
  | remove hguard =>
      rw [guarded_of_removing (List.mem_of_getElem? ht)] at hguard
      exact absurd hguard (by decide)
  | listen => exact h.listen ht ho
  | @insert sid =>
      refine h.move ht hlistens hloops (by simp) (fun client' sid' hc => Or.inr ?_)
        fun u hu client' sid' hc hlookup => ?_
      · obtain ⟨rfl, rfl⟩ := Prod.mk.inj (Option.some.inj hc)
        exact AList.lookup_insert _
      · by_cases hclient : client' = client
        · subst hclient
          by_cases hsid : sid = sid'
          · subst hsid
            exact AList.lookup_insert _
          · exact absurd hc (ho.drop client' sid' ⟨rfl, hsid⟩ hlookup u hu)
        · rwa [AList.lookup_insert_ne hclient]
  | start | countExpired | decActive | countCreated | incActive =>
      exact h.quiet ht (Shared.count_sessions _ _) hlistens hloops rfl (by simp)
  | forward hs hsh =>
      subst hsh
      exact h.quiet ht (by simp) hlistens hloops rfl (by simp)
  | _ => exact h.quiet ht rfl hlistens hloops rfl (by simp)

/-- Every step of a listener keeps the invariant: no other listener of the client loses its entry
by a removal, as there is none. -/
theorem listener (h : Tracked p) {inst sid : ℕ} {client : SocketAddr} {pc pc' : ListenerPc}
    (ht : p.tasks[i]? = some (.listener inst client sid pc))
    (hstep : ListenerStep D p.tasks p.shared inst client sid pc e sh' pc') :
    Tracked ⟨sh', p.tasks.set i (.listener inst client sid pc') ++ []⟩ := by
  have hlive : (Task.listener inst client sid pc).listensTo = some client := by
    cases hstep with
    | failed hpc => rcases hpc with rfl | rfl <;> rfl
    | _ => rfl
  have hlistens : ∀ c, (Task.listener inst client sid pc').listensTo = some c →
      (Task.listener inst client sid pc).listensTo = some c := by
    intro c hc
    rw [hlive]
    cases pc' <;> first | exact hc | simp [Task.listensTo] at hc
  cases hstep with
  | remove =>
      refine h.move ht hlistens (by simp [Task.loops]) (by simp) (by simp [Task.insertsEntry])
        fun u hu client' sid' hc hlookup => ?_
      have hne : client' ≠ client := by
        rintro rfl
        obtain ⟨j, hj⟩ := List.getElem?_of_mem hu
        obtain rfl := h.exclusive client' i j _ u ht hj hlive (Task.listensTo_of_loops hc)
        obtain rfl := Option.some.inj (ht.symm.trans hj)
        exact absurd hc (by simp [Task.loops])
      rwa [AList.lookup_erase_ne hne]
  | received | countExpired | decActive =>
      exact h.quiet ht (Shared.count_sessions _ _) hlistens (by simp [Task.loops]) rfl (by simp)
  | _ => exact h.quiet ht rfl hlistens (by simp [Task.loops]) rfl (by simp)

/-- An orphanless step of a cleanup task keeps the invariant. -/
theorem cleanup (h : Tracked p) {inst : ℕ} {pc pc' : CleanupPc}
    (ht : p.tasks[i]? = some (.cleanup inst pc)) (ho : OrphanlessStep D p (.cleanup inst pc))
    (hstep : CleanupStep D p.tasks p.shared pc e sh' pc') :
    Tracked ⟨sh', p.tasks.set i (.cleanup inst pc') ++ []⟩ := by
  cases hstep with
  | @remove client =>
      refine h.move ht (by simp [Task.listensTo]) (by simp [Task.loops]) (by simp)
        (by simp [Task.insertsEntry]) fun u hu client' sid' hc hlookup => ?_
      have hne : client' ≠ client := by
        rintro rfl
        exact ho.drop client' sid' rfl hlookup u hu hc
      rwa [AList.lookup_erase_ne hne]
  | countExpired | decActive =>
      exact h.quiet ht (Shared.count_sessions _ _) (by simp [Task.listensTo])
        (by simp [Task.loops]) rfl (by simp)
  | _ => exact h.quiet ht rfl (by simp [Task.listensTo]) (by simp [Task.loops]) rfl (by simp)

/-- An orphanless step of a start task keeps the invariant. -/
theorem server (h : Tracked p) {inst : ℕ} {pc pc' : ServerPc}
    (ht : p.tasks[i]? = some (.server inst pc)) (ho : OrphanlessStep D p (.server inst pc))
    (hstep : ServerStep D p.tasks p.shared inst pc e sh' pc' new) :
    Tracked ⟨sh', p.tasks.set i (.server inst pc') ++ new⟩ := by
  cases hstep with
  | clear =>
      refine h.move ht (by simp [Task.listensTo]) (by simp [Task.loops]) (by simp)
        (by simp [Task.insertsEntry]) fun u hu client sid hc hlookup => ?_
      refine (lookup_clearShard_of_ne fun hshard => ?_).trans hlookup
      exact ho.drop client sid hshard hlookup u hu hc
  | _ =>
      exact h.quiet ht rfl (by simp [Task.listensTo]) (by simp [Task.loops]) rfl
        (by simp [Task.listensTo])

/-- Tasks that come in without a listener keep the invariant. -/
theorem append (h : Tracked p) (hsessions : sh'.sessions = p.shared.sessions)
    (hnew : ∀ u ∈ new, u.listensTo = none) : Tracked ⟨sh', p.tasks ++ new⟩ := by
  refine ⟨fun client => (h.exclusive client).append fun u hu => ?_, fun u hu client sid hc => ?_⟩
  · rw [hnew u hu]
    exact fun hc => absurd hc (by simp)
  · rcases List.mem_append.mp hu with hu | hu
    · rcases h.mapped u hu client sid hc with hlookup | ⟨v, hv, hins⟩
      · exact Or.inl (by rwa [hsessions])
      · exact Or.inr ⟨v, List.mem_append_left new hv, hins⟩
    · have hnone := hnew u hu
      rw [Task.listensTo_of_loops hc] at hnone
      exact absurd hnone (by simp)

/-- Every orphanless step of the machine keeps the invariant. -/
theorem step (h : Tracked p) {p' : Pool Shared Task} {a : Sched Event} (ho : Orphanless D p a)
    (hstep : (machine F D).step p a = some p') : Tracked p' := by
  rcases machine_step hstep with ⟨i, e, t, sh, t', new, rfl, ht, hinv, rfl⟩ | ⟨ns, -, rfl⟩ |
    ⟨inst, -, rfl⟩ | ⟨-, rfl⟩
  · have hot := ho i e t rfl ht
    cases hinv with
    | handler hs => exact h.handler ht hs hot
    | listener hs => exact h.listener ht hs
    | cleanup hs => exact h.cleanup ht hot hs
    | server hs => exact h.server ht hot hs
    | reader =>
        exact h.quiet ht rfl (by simp [Task.listensTo]) (by simp [Task.loops]) rfl (by simp)
  · exact h.append rfl (by simp)
  · exact h.append rfl (by simp [Task.listensTo])
  · exact h.append rfl (by simp [Task.listensTo])

end Tracked

/-- **No orphaned listeners.** In every run in which a listener is started only for a client without
a live one, and in which no entry is taken from the map, by a cleanup round or a shutdown, or
replaced, whose session's listener goes on: in every state reached in which no handler is inside
`get_or_create_session`, each client has at most one live listener, and each listener that waits in
`recv` belongs to the session stored for its client. -/
theorem listeners_tracked {F : Type} [ScoreArith F] {D : Deployment} {heap : Heap}
    {routers : ℕ → Router} {es : List (Sched Event)} {p : Pool Shared Task}
    (hrun : (machine F D).run (initial heap routers) es = some p)
    (ho : (machine F D).Along (Orphanless D) (initial heap routers) es)
    (hinside : ∀ t ∈ p.tasks, t.inside = false) : ListenersTracked p := by
  have hinit : Tracked (initial heap routers) :=
    ⟨fun _ _ _ t _ ht => by simp [initial] at ht, fun u hu => absurd hu List.not_mem_nil⟩
  have htracked := (machine F D).run_preserves_along (P := Orphanless D) (I := Tracked)
    (fun q a q' hq hoq hstep => hq.step hoq hstep) hinit ho hrun
  refine ⟨htracked.exclusive, fun inst client sid hmem => ?_⟩
  rcases htracked.mapped _ hmem client sid rfl with hlookup | ⟨v, hv, hins⟩
  · exact hlookup
  · have hv := hinside v hv
    cases v with
    | handler inst' client' data pc =>
        cases pc with
        | inserting sid' => exact absurd hv (by simp [Task.inside, HandlerPc.inside])
        | _ => exact absurd hins (by simp [Task.insertsEntry])
    | _ => exact absurd hins (by simp [Task.insertsEntry])

/-! ## A cleanup round, and a single session -/

/-- After a cleanup round the client of the session that it removed has no entry, and its listener
still waits for the upstream. -/
theorem listener_orphaned :
    ∃ p, (machine ℚ exampleDeployment).run (initial exampleHeap exampleRouters)
        (idleAndSweep ++ steps 1 3) = some p ∧
      (∀ t ∈ p.tasks, t.inside = false) ∧ ¬ ListenersTracked p := by
  have hend : ((machine ℚ exampleDeployment).run (initial exampleHeap exampleRouters)
      (idleAndSweep ++ steps 1 3)).map (fun p => (p.tasks.all fun t => !t.inside, p.tasks[3]?,
        p.shared.sessions.lookup exampleClient)) =
      some (true, some (.listener 0 exampleClient 0 .receiving), none) := by decide +kernel
  obtain ⟨p, hp, hvals⟩ := Option.map_eq_some_iff.mp hend
  obtain ⟨hinside, hlistener, hlookup⟩ : _ ∧ _ ∧ _ := by simpa only [Prod.mk.injEq] using hvals
  refine ⟨p, hp, fun t ht => by simpa using List.all_eq_true.mp hinside t ht, fun h => ?_⟩
  have hmapped := h.mapped 0 exampleClient 0 (List.mem_of_getElem? hlistener)
  rw [hlookup] at hmapped
  exact absurd hmapped (by simp)

/-- A client sends its first datagram. -/
def firstPacket : List (Sched Event) :=
  starts 0 0 ++ [.task 0 (.packet exampleClient [1])] ++ connects 2 ++ insertsAndForwards 2

/-- No task removes anything, whoever starts a listener finds none, and whoever inserts finds no
entry. -/
def orphanlessTasks (p : Pool Shared Task) : Bool :=
  p.tasks.all fun
    | .handler _ client _ (.startListener _) => p.tasks.all fun u => u.listensTo ≠ some client
    | .handler _ client _ (.inserting _) => p.shared.sessions.lookup client = none
    | .cleanup _ (.removing (_ :: _)) | .server _ (.clearing _) => false
    | _ => true

/-- Every step from a state with orphanless tasks is orphanless. -/
theorem orphanless_of_orphanlessTasks {D : Deployment} {p : Pool Shared Task}
    (h : orphanlessTasks p = true) (a : Sched Event) : Orphanless D p a := by
  intro i e t _ hi
  have ht := List.all_eq_true.mp h t (List.mem_of_getElem? hi)
  constructor
  · rintro inst client data sid rfl u hu
    simpa using List.all_eq_true.mp ht u hu
  · intro client sid hdrop hlookup
    unfold Task.Drops at hdrop
    split at hdrop
    · next inst client' data sid' =>
        obtain ⟨rfl, -⟩ := hdrop
        rw [show p.shared.sessions.lookup client' = none by simpa using ht] at hlookup
        exact absurd hlookup (by simp)
    · exact absurd ht (by simp)
    · exact absurd ht (by simp)
    · exact hdrop.elim

/-- The condition at work: one session, one listener. -/
theorem listeners_tracked_firstPacket :
    ∃ p, (machine ℚ exampleDeployment).run (initial exampleHeap exampleRouters) firstPacket =
        some p ∧ ListenersTracked p := by
  have hend : ((machine ℚ exampleDeployment).run (initial exampleHeap exampleRouters)
      firstPacket).map (fun p => p.tasks.all fun t => !t.inside) = some true := by decide +kernel
  have hstates : ∀ n ≤ firstPacket.length, ((machine ℚ exampleDeployment).run
      (initial exampleHeap exampleRouters) (firstPacket.take n)).all orphanlessTasks = true := by
    decide +kernel
  obtain ⟨p, hp, hinside⟩ := Option.map_eq_some_iff.mp hend
  refine ⟨p, hp, listeners_tracked hp ?_ fun t ht => ?_⟩
  · refine (machine _ _).along_of_take fun n hn q hq a => orphanless_of_orphanlessTasks ?_ a
    have hq' := hstates n hn
    rwa [hq] at hq'
  · simpa using List.all_eq_true.mp hinside t ht

end HarbrRouter.Proxy.Udp
