import HarbrRouter.Proxy.Udp

/-!
# Which upstream a datagram is forwarded to

The sessions map is keyed by the client's address alone and shared by all UDP instances, so that a
datagram that arrives at one instance can be forwarded through a session that another instance
created, to the other one's upstream.

**Theorem** (`forwarded_own`): if no handler reuses another instance's session, every datagram is
forwarded to an upstream of the instance that received it. A session belongs to the instance whose
handler made it, and its upstream is one of that instance's (`Owned`). A handler comes by a session
in two ways: it makes one, or it reuses the one in the map, which the condition has be of its
instance; so what it has in hand is its instance's (`HandlerStep.owned`), and sessions keep their
creators whatever else happens (`OwnTask.mono`). These are the assertions of the Owicki–Gries rule,
which gives them for every run.
-/

set_option autoImplicit false

namespace HarbrRouter.Proxy.Udp

open Transition TaskPool PointRing Routing

/-- The session was created by a handler of the instance. -/
def Shared.CreatedBy (sh : Shared) (sid inst : ℕ) : Prop :=
  ∃ s, sh.objects[sid]? = some s ∧ s.createdBy = inst

/-- The session that a handler has in hand. -/
def HandlerPc.session : HandlerPc → Option ℕ
  | .startListener sid | .inserting sid | .countCreated sid | .incActive sid | .touching sid
  | .forwarding sid => some sid
  | _ => none

/-- What belongs to which instance: the lists of the routers are the given ones, each session has
an upstream of the instance that created it, and each datagram went to the instance it came to. -/
structure Owned (routers : ℕ → Router) (sh : Shared) : Prop where
  upstreams : ∀ inst, (sh.routers inst).upstreams = (routers inst).upstreams
  objects : ∀ s ∈ sh.objects, s.upstream ∈ (routers s.createdBy).upstreams
  forwarded : ∀ f ∈ sh.forwarded, f.2.2 ∈ (routers f.1).upstreams

/-- A handler has an upstream and a session of its own instance in hand. -/
def OwnTask (routers : ℕ → Router) (sh : Shared) : Task → Prop
  | .handler inst _ _ pc =>
      (∀ upstream, pc = .connecting upstream → upstream ∈ (routers inst).upstreams) ∧
        ∀ sid, pc.session = some sid → sh.CreatedBy sid inst
  | _ => True

/-- The condition on a step: if the expiry check of a packet handler finds its session unexpired, so
that the handler reuses it, the session was created by a handler of the same instance. -/
def OwnReuse (D : Deployment) (p : Pool Shared Task) (a : Sched Event) : Prop :=
  ∀ i inst client data sid, a = .task i .step →
    p.tasks[i]? = some (.handler inst client data (.checking sid)) →
    p.shared.isExpired sid (D.timeoutSecs inst) = false → p.shared.CreatedBy sid inst

section frames

variable {sh : Shared} {sid inst : ℕ}

/-- Counting leaves the sessions with the instances that made them. -/
theorem Owned.count {routers : ℕ → Router} (h : Owned routers sh)
    (f : UdpProxyMetrics → UdpProxyMetrics) : Owned routers (sh.count f) :=
  ⟨h.upstreams, h.objects, h.forwarded⟩

/-- The counters are no part of a session. -/
theorem Shared.CreatedBy.count (h : sh.CreatedBy sid inst)
    (f : UdpProxyMetrics → UdpProxyMetrics) : (sh.count f).CreatedBy sid inst := h

/-- A session's creator does not change when the session does. -/
theorem Shared.CreatedBy.modifySession (h : sh.CreatedBy sid inst) (sid' : ℕ)
    {f : UdpSession → UdpSession}
    (hf : ∀ s, (f s).createdBy = s.createdBy) : (sh.modifySession sid' f).CreatedBy sid inst := by
  obtain ⟨s, hs, hby⟩ := h
  by_cases heq : sid' = sid
  · subst heq
    exact ⟨f s, by simp [Shared.modifySession, hs], (hf s).trans hby⟩
  · exact ⟨s, by simp [Shared.modifySession, heq, hs], hby⟩

/-- A session stays where it is when another one is created. -/
theorem Shared.CreatedBy.concat (h : sh.CreatedBy sid inst) (s : UdpSession) :
    { sh with objects := sh.objects ++ [s] }.CreatedBy sid inst := by
  obtain ⟨s', hs', hby⟩ := h
  have hlt : sid < sh.objects.length := (List.getElem?_eq_some_iff.mp hs').1
  exact ⟨s', by simp [List.getElem?_append_left hlt, hs'], hby⟩

/-- A change of a session keeps what belongs to which instance. -/
theorem Owned.modifySession {routers : ℕ → Router} (h : Owned routers sh) (sid' : ℕ)
    {f : UdpSession → UdpSession} (hby : ∀ s, (f s).createdBy = s.createdBy)
    (hup : ∀ s, (f s).upstream = s.upstream) : Owned routers (sh.modifySession sid' f) := by
  refine ⟨h.upstreams, fun s hs => ?_, h.forwarded⟩
  obtain ⟨i, hi⟩ := List.getElem?_of_mem hs
  simp only [Shared.modifySession, List.getElem?_modify, Option.map_eq_map,
    Option.map_eq_some_iff] at hi
  obtain ⟨s₀, hs₀, rfl⟩ := hi
  have hmem := h.objects s₀ (List.mem_of_getElem? hs₀)
  split_ifs
  · rw [hby, hup]
    exact hmem
  · exact hmem

end frames

section step

variable {F : Type} [ScoreArith F] {D : Deployment} {routers : ℕ → Router}

/-- A handler that has no session and no upstream in hand has nothing of another instance. -/
theorem ownTask_of_empty {sh : Shared} {inst : ℕ} {client : SocketAddr} {data : List UInt8}
    {pc : HandlerPc} (hup : ∀ upstream, pc ≠ .connecting upstream) (hsid : pc.session = none) :
    OwnTask routers sh (.handler inst client data pc) :=
  ⟨fun upstream h => absurd h (hup upstream), fun sid h => by simp [hsid] at h⟩

/-- A handler with a session of its instance in hand has nothing of another instance. -/
theorem ownTask_of_session {sh : Shared} {inst sid : ℕ} {client : SocketAddr} {data : List UInt8}
    {pc : HandlerPc} (hpc : pc.session = some sid) (h : sh.CreatedBy sid inst) :
    OwnTask routers sh (.handler inst client data pc) := by
  refine ⟨fun upstream heq => ?_, fun sid' hsid' => ?_⟩
  · rw [heq] at hpc
    exact absurd hpc (by simp [HandlerPc.session])
  · obtain rfl := Option.some.inj (hpc.symm.trans hsid')
    exact h

/-- What one step of a handler does to what belongs to which instance. -/
theorem HandlerStep.owned {tasks : List Task} {sh sh' : Shared} {inst : ℕ} {client : SocketAddr}
    (data : List UInt8) {pc pc' : HandlerPc} {e : Event} {new : List Task}
    (h : HandlerStep F D tasks sh inst client pc e sh' pc' new) (hsh : Owned routers sh)
    (ht : OwnTask routers sh (.handler inst client data pc))
    (hreuse : ∀ sid, pc = .checking sid → sh.isExpired sid (D.timeoutSecs inst) = false →
      sh.CreatedBy sid inst) :
    Owned routers sh' ∧ (∀ sid i, sh.CreatedBy sid i → sh'.CreatedBy sid i) ∧
      OwnTask routers sh' (.handler inst client data pc') ∧ ∀ u ∈ new, OwnTask routers sh' u := by
  have hnil : ∀ u ∈ ([] : List Task), OwnTask routers sh' u := by simp
  have hselect : ∀ {router : Router} {upstream : Option UpstreamRef},
      (sh.routers inst).selectUpstream F D.hashKey D.search sh.heap (some client.display) =
        (router, upstream) →
      ∀ i, (Function.update sh.routers inst router i).upstreams = (routers i).upstreams :=
    fun hsel i => (Router.update_selected_keeps hsel i).1.trans (hsh.upstreams i)
  cases h with
  | start =>
      exact ⟨hsh.count _, fun _ _ h => h.count _, ownTask_of_empty (by simp) rfl, hnil⟩
  | found hsid => exact ⟨hsh, fun _ _ h => h, ownTask_of_empty (by simp) rfl, hnil⟩
  | missing hno => exact ⟨hsh, fun _ _ h => h, ownTask_of_empty (by simp) rfl, hnil⟩
  | expired hexp => exact ⟨hsh, fun _ _ h => h, ownTask_of_empty (by simp) rfl, hnil⟩
  | live hlive =>
      exact ⟨hsh, fun _ _ h => h, ownTask_of_session rfl (hreuse _ rfl hlive), hnil⟩
  | remove =>
      exact ⟨⟨hsh.upstreams, hsh.objects, hsh.forwarded⟩, fun _ _ h => h,
        ownTask_of_empty (by simp) rfl, hnil⟩
  | countExpired =>
      exact ⟨hsh.count _, fun _ _ h => h.count _, ownTask_of_empty (by simp) rfl, hnil⟩
  | decActive =>
      exact ⟨hsh.count _, fun _ _ h => h.count _, ownTask_of_empty (by simp) rfl, hnil⟩
  | selected hsel =>
      refine ⟨⟨hselect hsel, hsh.objects, hsh.forwarded⟩, fun _ _ h => h,
        ⟨fun upstream heq => ?_, by simp [HandlerPc.session]⟩, hnil⟩
      -- a selected upstream is a member of the instance's own list
      obtain rfl := HandlerPc.connecting.inj heq
      rw [← hsh.upstreams inst]
      exact Router.mem_of_selectUpstream (by rw [hsel])
  | noUpstream hsel =>
      exact ⟨⟨hselect hsel, hsh.objects, hsh.forwarded⟩, fun _ _ h => h,
        ownTask_of_empty (by simp) rfl, hnil⟩
  | notConnected => exact ⟨hsh, fun _ _ h => h, ownTask_of_empty (by simp) rfl, hnil⟩
  | connected =>
      refine ⟨⟨hsh.upstreams, fun s hs => ?_, hsh.forwarded⟩, fun _ _ h => h.concat _,
        ownTask_of_session rfl ⟨_, List.getElem?_concat_length, rfl⟩, hnil⟩
      rcases List.mem_append.mp hs with hs | hs
      · exact hsh.objects s hs
      · obtain rfl := List.mem_singleton.mp hs
        exact ht.1 _ rfl
  | listen =>
      refine ⟨hsh, fun _ _ h => h, ownTask_of_session rfl (ht.2 _ rfl), fun u hu => ?_⟩
      obtain rfl := List.mem_singleton.mp hu
      trivial
  | insert =>
      exact ⟨⟨hsh.upstreams, hsh.objects, hsh.forwarded⟩, fun _ _ h => h,
        ownTask_of_session rfl (ht.2 _ rfl), hnil⟩
  | countCreated =>
      exact ⟨hsh.count _, fun _ _ h => h.count _, ownTask_of_session rfl (ht.2 _ rfl), hnil⟩
  | incActive =>
      exact ⟨hsh.count _, fun _ _ h => h.count _, ownTask_of_session rfl (ht.2 _ rfl), hnil⟩
  | touch =>
      exact ⟨hsh.modifySession _ (fun _ => rfl) (fun _ => rfl),
        fun _ _ h => h.modifySession _ fun _ => rfl,
        ownTask_of_session rfl ((ht.2 _ rfl).modifySession _ fun _ => rfl), hnil⟩
  | @forward sid bytes s _ hs hsh' =>
      have hown := hsh.modifySession sid (f := fun s => s.recordBytesSent bytes) (fun _ => rfl)
        fun _ => rfl
      subst hsh'
      refine ⟨⟨hown.upstreams, hown.objects, fun f hf => ?_⟩,
        fun _ _ h => h.modifySession sid fun _ => rfl, ownTask_of_empty (by simp) rfl, hnil⟩
      rcases List.mem_append.mp hf with hf | hf
      · exact hsh.forwarded f hf
      · obtain rfl := List.mem_singleton.mp hf
        obtain ⟨s', hs', hby⟩ := ht.2 sid rfl
        obtain rfl := Option.some.inj (hs.symm.trans hs')
        rw [← hby]
        exact hsh.objects s (List.mem_of_getElem? hs)
  | notForwarded =>
      exact ⟨⟨hsh.upstreams, hsh.objects, hsh.forwarded⟩, fun _ _ h => h,
        ownTask_of_empty (by simp) rfl, hnil⟩

/-- What one step of a task does to what belongs to which instance. -/
theorem TaskStep.owned {tasks : List Task} {sh sh' : Shared} {e : Event} {t t' : Task}
    {new : List Task} (h : TaskStep F D tasks sh t e sh' t' new) (hsh : Owned routers sh)
    (ht : OwnTask routers sh t)
    (hreuse : ∀ inst client data sid, e = .step → t = .handler inst client data (.checking sid) →
      sh.isExpired sid (D.timeoutSecs inst) = false → sh.CreatedBy sid inst) :
    Owned routers sh' ∧ (∀ sid i, sh.CreatedBy sid i → sh'.CreatedBy sid i) ∧
      OwnTask routers sh' t' ∧ ∀ u ∈ new, OwnTask routers sh' u := by
  cases h with
  | @handler inst client data pc pc' e sh' new h =>
      refine h.owned data hsh ht fun sid hpc hlive => ?_
      subst hpc
      cases h with
      | expired hexp =>
          rw [hlive] at hexp
          exact absurd hexp (by decide)
      | live => exact hreuse inst client data sid rfl rfl hlive
  | @listener inst client sid pc pc' e sh' h =>
      cases h with
      | @received bytes =>
          have hown := hsh.modifySession sid (f := fun s => s.recordBytesReceived bytes)
            (fun _ => rfl) fun _ => rfl
          have hby : ∀ sid' i, sh.CreatedBy sid' i →
              (sh.modifySession sid fun s => s.recordBytesReceived bytes).CreatedBy sid' i :=
            fun _ _ h => h.modifySession sid fun _ => rfl
          exact ⟨hown.count _, fun _ _ h => (hby _ _ h).count _, trivial, by simp⟩
      | touch =>
          exact ⟨hsh.modifySession _ (fun _ => rfl) fun _ => rfl,
            fun _ _ h => h.modifySession _ fun _ => rfl, trivial, by simp⟩
      | remove =>
          exact ⟨⟨hsh.upstreams, hsh.objects, hsh.forwarded⟩, fun _ _ h => h, trivial, by simp⟩
      | countExpired => exact ⟨hsh.count _, fun _ _ h => h.count _, trivial, by simp⟩
      | decActive => exact ⟨hsh.count _, fun _ _ h => h.count _, trivial, by simp⟩
      | _ => exact ⟨hsh, fun _ _ h => h, trivial, by simp⟩
  | cleanup h =>
      cases h with
      | remove =>
          exact ⟨⟨hsh.upstreams, hsh.objects, hsh.forwarded⟩, fun _ _ h => h, trivial, by simp⟩
      | countExpired => exact ⟨hsh.count _, fun _ _ h => h.count _, trivial, by simp⟩
      | decActive => exact ⟨hsh.count _, fun _ _ h => h.count _, trivial, by simp⟩
      | _ => exact ⟨hsh, fun _ _ h => h, trivial, by simp⟩
  | server h =>
      cases h with
      | bound =>
          refine ⟨hsh, fun _ _ h => h, trivial, fun u hu => ?_⟩
          obtain rfl := List.mem_singleton.mp hu
          trivial
      | packet =>
          refine ⟨hsh, fun _ _ h => h, trivial, fun u hu => ?_⟩
          obtain rfl := List.mem_singleton.mp hu
          exact ownTask_of_empty (by simp) rfl
      | other => exact ⟨hsh, fun _ _ h => h, trivial, by simp⟩
      | clear =>
          exact ⟨⟨hsh.upstreams, hsh.objects, hsh.forwarded⟩, fun _ _ h => h, trivial, by simp⟩
  | reader => exact ⟨hsh, fun _ _ h => h, trivial, by simp⟩

/-- What a task has in hand stays its instance's when sessions stay their creator's. -/
theorem OwnTask.mono {sh sh' : Shared} {t : Task} (h : OwnTask routers sh t)
    (hle : ∀ sid i, sh.CreatedBy sid i → sh'.CreatedBy sid i) : OwnTask routers sh' t := by
  cases t with
  | handler inst client data pc => exact ⟨h.1, fun sid hsid => hle sid inst (h.2 sid hsid)⟩
  | _ => trivial

/-- **Datagrams stay with their instance.** In every run in which no handler reuses an unexpired
session that another instance created, each datagram was forwarded to an upstream of the router of
the instance that received it. -/
theorem forwarded_own {heap : Heap} {es : List (Sched Event)} {p : Pool Shared Task}
    (hrun : (machine F D).run (initial heap routers) es = some p)
    (hown : (machine F D).Along (OwnReuse D) (initial heap routers) es) :
    ∀ f ∈ p.shared.forwarded, f.2.2 ∈ (routers f.1).upstreams := by
  have hinv := (system F D).run_owickiGries (P := OwnReuse D) (I := Owned routers)
    (J := OwnTask routers) ?_ ?_ ⟨fun _ => rfl, by simp [initial, Shared.new],
      by simp [initial, Shared.new]⟩ (by simp [initial]) hown hrun
  · exact hinv.1.forwarded
  · intro q i e t sh t' new hI hJ hP ht hact
    obtain ⟨hI', hle, ht', hnew⟩ := (Task.step_inv hact).owned hI
      (hJ t (List.mem_of_getElem? ht)) fun inst client data sid he hchk hlive =>
        hP i inst client data sid (by rw [he]) (hchk ▸ ht) hlive
    exact ⟨hI', ht', hnew, fun u _ hu => hu.mono hle⟩
  · intro q e sh new hI hJ _ henv
    rcases env_cases henv with ⟨ns, -, rfl, rfl⟩ | ⟨inst, -, rfl, rfl⟩ | ⟨-, rfl, rfl⟩
    · exact ⟨⟨hI.upstreams, hI.objects, hI.forwarded⟩, by simp,
        fun u _ hu => hu.mono fun _ _ h => h⟩
    · refine ⟨hI, fun u hu => ?_, fun u _ hu => hu⟩
      obtain rfl := List.mem_singleton.mp hu
      trivial
    · refine ⟨hI, fun u hu => ?_, fun u _ hu => hu⟩
      obtain rfl := List.mem_singleton.mp hu
      trivial

end step

/-! ## One client, two instances -/

/-- A client sends to the first instance and, within the timeout, to the second. -/
def twoInstances : List (Sched Event) :=
  starts 0 0 ++ starts 1 2 ++ [.task 0 (.packet exampleClient [1])] ++ connects 4 ++
    insertsAndForwards 4 ++ [.task 2 (.packet exampleClient [2])] ++ steps 6 4 ++
    [.task 6 (.sent 1)]

/-- The second datagram goes to the first instance's upstream. -/
theorem forwarded_foreign :
    ∃ p, (machine ℚ exampleDeployment).run (initial exampleHeap exampleRouters) twoInstances =
        some p ∧ (1, exampleClient, 0) ∈ p.shared.forwarded ∧
      0 ∉ (exampleRouters 1).upstreams := by
  have hend : ((machine ℚ exampleDeployment).run (initial exampleHeap exampleRouters)
      twoInstances).map (fun p => p.shared.forwarded) =
        some [(0, exampleClient, 0), (1, exampleClient, 0)] := by decide +kernel
  obtain ⟨p, hp, hf⟩ := Option.map_eq_some_iff.mp hend
  exact ⟨p, hp, by rw [hf]; simp, by decide⟩

/-- Two clients, one at each instance. -/
def twoClients : List (Sched Event) :=
  starts 0 0 ++ starts 1 2 ++ [.task 0 (.packet exampleClient [1])] ++ connects 4 ++
    insertsAndForwards 4 ++ [.task 2 (.packet (.v4 ⟨10, 0, 0, 2⟩ 4000) [2])] ++ connects 6 ++
    insertsAndForwards 6

/-- With a client at each instance, each has its own upstream. -/
theorem forwarded_own_twoClients :
    ∃ p, (machine ℚ exampleDeployment).run (initial exampleHeap exampleRouters) twoClients =
        some p ∧ p.shared.forwarded.length = 2 ∧
      ∀ f ∈ p.shared.forwarded, f.2.2 ∈ (exampleRouters f.1).upstreams := by
  have hend : ((machine ℚ exampleDeployment).run (initial exampleHeap exampleRouters)
      twoClients).map (fun p => p.shared.forwarded.length) = some 2 := by decide +kernel
  -- no handler of this run ever finds a session
  have hstates : ∀ n ≤ twoClients.length, ((machine ℚ exampleDeployment).run
      (initial exampleHeap exampleRouters) (twoClients.take n)).all (fun q => q.tasks.all fun
        | .handler _ _ _ (.checking _) => false
        | _ => true) = true := by decide +kernel
  obtain ⟨p, hp, hlen⟩ := Option.map_eq_some_iff.mp hend
  refine ⟨p, hp, hlen, forwarded_own hp ?_⟩
  refine (machine _ _).along_of_take fun n hn q hq a i inst client data sid _ hi => ?_
  have hq' := hstates n hn
  rw [hq] at hq'
  exact absurd (List.all_eq_true.mp hq' _ (List.mem_of_getElem? hi)) (by simp)

end HarbrRouter.Proxy.Udp
