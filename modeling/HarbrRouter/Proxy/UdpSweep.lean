import HarbrRouter.Proxy.UdpRemoval
import HarbrRouter.Proxy.UdpTurns

/-!
# A cleanup round misses nothing

`proxy/udp.rs`, `run_session_cleanup`: a round goes through the shards one after another, collects
the clients whose sessions are expired and then removes them, each step in its own turn between the
steps of all other tasks. An entry that is expired when the round begins, and that nobody touches or
replaces, is gone when the round is over.

**Theorem** (`swept`): the entry of a client that was ahead at the start is gone at the end. While
the entry is there, the round has the client still before it, or among those it is going to remove
(`CleanupPc.Ahead`): the turn at the shard of the client finds its session expired and takes the
client along (`EntryExpired.findsExpired`, `CleanupPc.ahead_of_step`), and the steps of all others
leave the entry expired where it is, or remove it (`Chased.step`, from
`TaskStep.lookup_of_not_inserts` and `TaskStep.isExpired_of_not_touches`).
-/

set_option autoImplicit false

namespace HarbrRouter.Proxy.Udp

open Transition TaskPool PointRing Routing

variable {F : Type} [ScoreArith F] {D : Deployment} {tasks new : List Task} {sh sh' : Shared}
  {e : Event} {t t' : Task} {client : SocketAddr}

/-! ## What a step leaves alone -/

/-- Who does not insert for a client gives it no new entry. -/
theorem TaskStep.lookup_of_not_inserts (h : TaskStep F D tasks sh t e sh' t' new)
    (hinserts : t.inserts ≠ some client) {sid : ℕ} (hsid : sh'.sessions.lookup client = some sid) :
    sh.sessions.lookup client = some sid := by
  have hcount : ∀ f : UdpProxyMetrics → UdpProxyMetrics,
      (sh.count f).sessions.lookup client = some sid → sh.sessions.lookup client = some sid :=
    fun f hf => by rwa [sh.count_sessions] at hf
  cases h with
  | handler h =>
      cases h with
      | start | countExpired | decActive | countCreated | incActive => exact hcount _ hsid
      | remove => exact lookup_of_erase hsid
      | insert =>
          have hne : client ≠ _ := fun heq => hinserts (congrArg some heq.symm)
          rwa [AList.lookup_insert_ne hne] at hsid
      | forward hs hsh =>
          subst hsh
          dsimp only at hsid
          rwa [Shared.count_sessions, Shared.modifySession_sessions] at hsid
      | _ => exact hsid
  | listener h =>
      cases h with
      | received => rwa [Shared.count_sessions, Shared.modifySession_sessions] at hsid
      | countExpired | decActive => exact hcount _ hsid
      | remove => exact lookup_of_erase hsid
      | _ => exact hsid
  | cleanup h =>
      cases h with
      | countExpired | decActive => exact hcount _ hsid
      | remove => exact lookup_of_erase hsid
      | _ => exact hsid
  | server h =>
      cases h with
      | clear => exact lookup_of_clearShard hsid
      | _ => exact hsid
  | reader h => exact hsid

/-- A client that has an entry only if it had that one is in the map only if it was. -/
theorem mem_of_lookup {sessions sessions' : Sessions} (h : ∀ sid,
    sessions'.lookup client = some sid → sessions.lookup client = some sid)
    (hmem : client ∈ sessions') : client ∈ sessions := by
  obtain ⟨sid, hsid⟩ := Option.isSome_iff_exists.mp (AList.lookup_isSome.mpr hmem)
  exact AList.lookup_isSome.mp (Option.isSome_iff_exists.mpr ⟨sid, h sid hsid⟩)

/-- Who does not touch an expired session leaves it expired. -/
theorem TaskStep.isExpired_of_not_touches (h : TaskStep F D tasks sh t e sh' t' new) {sid : ℕ}
    (htouches : t.touches ≠ some sid) {timeoutSecs : ℕ}
    (hexp : sh.isExpired sid timeoutSecs = true) : sh'.isExpired sid timeoutSecs = true := by
  have hcount : ∀ (sh₁ : Shared) (f : UdpProxyMetrics → UdpProxyMetrics),
      sh₁.isExpired sid timeoutSecs = true → (sh₁.count f).isExpired sid timeoutSecs = true :=
    fun sh₁ f => isExpired_of_le (by simp) (by simp)
  cases h with
  | handler h =>
      cases h with
      | start | countExpired | decActive | countCreated | incActive => exact hcount _ _ hexp
      | connected => exact isExpired_append hexp _
      | touch => exact isExpired_touch_of_ne (fun heq => htouches (congrArg some heq)) _ hexp
      | @forward sid' bytes _ _ hs hsh =>
          subst hsh
          have hsent := isExpired_modifySession (f := fun s => s.recordBytesSent bytes)
            (fun _ => rfl) sid' hexp
          exact isExpired_of_le rfl le_rfl (hcount _ (fun m =>
            { m with bytesSent := wrappingAdd m.bytesSent bytes }) hsent)
      | _ => exact isExpired_of_le rfl le_rfl hexp
  | listener h =>
      cases h with
      | received =>
          exact hcount _ _ (isExpired_modifySession (f := fun s => s.recordBytesReceived _)
            (fun _ => rfl) _ hexp)
      | touch => exact isExpired_touch_of_ne (fun heq => htouches (congrArg some heq)) _ hexp
      | countExpired | decActive => exact hcount _ _ hexp
      | _ => exact isExpired_of_le rfl le_rfl hexp
  | cleanup h =>
      cases h with
      | countExpired | decActive => exact hcount _ _ hexp
      | _ => exact isExpired_of_le rfl le_rfl hexp
  | server h => cases h <;> exact isExpired_of_le rfl le_rfl hexp
  | reader h => exact hexp

/-! ## A round of the cleanup -/

/-- The round has the client before it: in a shard that it has not been through, or among the
clients that it is going to remove. -/
def CleanupPc.Ahead (D : Deployment) (client : SocketAddr) : CleanupPc → Prop
  | .waiting => False
  | .entering shard expired => shard ≤ D.shardOf client ∨ client ∈ expired
  | .sweeping shard rest expired =>
      shard < D.shardOf client ∨ shard = D.shardOf client ∧ client ∈ rest ∨ client ∈ expired
  | .removing expired | .countExpired expired | .decActive expired => client ∈ expired

/-- The check finds the entry of a client whose session is expired. -/
theorem EntryExpired.findsExpired {inst : ℕ} (h : EntryExpired D sh (inst, client))
    (hmem : client ∈ sh.sessions) : sh.findsExpired D inst client = true := by
  obtain ⟨sid, hsid⟩ := Option.isSome_iff_exists.mp (AList.lookup_isSome.mpr hmem)
  exact (Option.any_eq_true _ _).mpr ⟨sid, hsid, h sid hsid⟩

/-- A step of the round keeps a client with an expired entry ahead, unless it removes the entry. -/
theorem CleanupPc.ahead_of_step {inst : ℕ} {pc pc' : CleanupPc}
    (h : pc.step D tasks sh inst e = some (sh', pc')) (hahead : pc.Ahead D client)
    (hexp : EntryExpired D sh (inst, client)) (hmem : client ∈ sh'.sessions) :
    pc'.Ahead D client := by
  cases CleanupPc.step_turn h with
  | tick => exact hahead.elim
  | enter hperm =>
      rcases hahead with hle | hfound
      · rcases Nat.lt_or_eq_of_le hle with hlt | heq
        · exact Or.inl hlt
        · -- the iterator visits the shard of the client, whose entry is there
          refine Or.inr (Or.inl ⟨heq, hperm.mem_iff.mpr (List.mem_filter.mpr ⟨hmem, ?_⟩)⟩)
          exact decide_eq_true heq.symm
      · exact Or.inr (Or.inr hfound)
  | swept hlast =>
      rcases hahead with hle | hfound
      · exact absurd (lt_of_le_of_lt hle (D.shardOf_lt client)) hlast
      · exact hfound
  | found hcheck =>
      rcases hahead with hlt | ⟨heq, hrest⟩ | hfound
      · exact Or.inl hlt
      · rcases List.mem_cons.mp hrest with rfl | hrest
        · exact Or.inr (Or.inr (List.mem_append_right _ (List.mem_singleton_self _)))
        · exact Or.inr (Or.inl ⟨heq, hrest⟩)
      · exact Or.inr (Or.inr (List.mem_append_left _ hfound))
  | live hcheck =>
      rcases hahead with hlt | ⟨heq, hrest⟩ | hfound
      · exact Or.inl hlt
      · rcases List.mem_cons.mp hrest with rfl | hrest
        · exact absurd (hexp.findsExpired hmem) hcheck
        · exact Or.inr (Or.inl ⟨heq, hrest⟩)
      · exact Or.inr (Or.inr hfound)
  | leave =>
      rcases hahead with hlt | ⟨-, hnil⟩ | hfound
      · exact Or.inl hlt
      · exact absurd hnil List.not_mem_nil
      · exact Or.inr hfound
  | remove =>
      have hne : client ≠ _ := (AList.mem_erase.mp hmem).1
      exact (List.mem_cons.mp hahead).resolve_left hne
  | gone hgone =>
      rename_i client' rest
      have hne : client ≠ client' := by
        rintro rfl
        exact hgone hmem
      exact (List.mem_cons.mp hahead).resolve_left hne
  | removed => exact absurd hahead List.not_mem_nil
  | countExpired | decActive => exact hahead

/-! ## Runs -/

/-- The step neither inserts an entry for the client nor touches the session of its entry. -/
def LeavesAlone (client : SocketAddr) (p : Pool Shared Task) (a : Sched Event) : Prop :=
  ∀ (j : ℕ) (e : Event) (t : Task), a = .task j e → p.tasks[j]? = some t →
    t.inserts ≠ some client ∧
      ∀ sid, t.touches = some sid → p.shared.sessions.lookup client ≠ some sid

/-- While the client has an entry it is expired, and the round of the cleanup task has it ahead. -/
def Chased (D : Deployment) (i inst : ℕ) (client : SocketAddr) (p : Pool Shared Task) : Prop :=
  ∃ pc, p.tasks[i]? = some (.cleanup inst pc) ∧
    (client ∈ p.shared.sessions → EntryExpired D p.shared (inst, client) ∧ pc.Ahead D client)

/-- What is known of the entry of a chased client is known after a step that leaves it alone. -/
theorem Chased.mono {i inst : ℕ} {p p' : Pool Shared Task} {pc pc' : CleanupPc}
    (h : Chased D i inst client p) (hpc : p.tasks[i]? = some (.cleanup inst pc))
    (hpc' : p'.tasks[i]? = some (.cleanup inst pc'))
    (hlookup : ∀ sid, p'.shared.sessions.lookup client = some sid →
      p.shared.sessions.lookup client = some sid)
    (hexpired : ∀ sid, p.shared.sessions.lookup client = some sid →
      p.shared.isExpired sid (D.timeoutSecs inst) = true →
      p'.shared.isExpired sid (D.timeoutSecs inst) = true)
    (hahead : client ∈ p'.shared.sessions → EntryExpired D p.shared (inst, client) →
      pc.Ahead D client → pc'.Ahead D client) : Chased D i inst client p' := by
  obtain ⟨pc₀, hpc₀, hchased⟩ := h
  obtain rfl : pc = pc₀ := by simpa using hpc.symm.trans hpc₀
  refine ⟨pc', hpc', fun hmem => ?_⟩
  obtain ⟨hexp, hold⟩ := hchased (mem_of_lookup hlookup hmem)
  exact ⟨hexp.mono hlookup hexpired, hahead hmem hexp hold⟩

/-- A step that leaves the client's entry alone keeps the client chased. -/
theorem Chased.step {i inst : ℕ} {p p' : Pool Shared Task} {a : Sched Event}
    (h : Chased D i inst client p) (halone : LeavesAlone client p a)
    (hstep : (machine F D).step p a = some p') : Chased D i inst client p' := by
  obtain ⟨pc, hpc, -⟩ := id h
  rcases (system F D).step_cases hstep with ⟨j, e, t, sh, t', new, rfl, ht, hact, rfl⟩ |
    ⟨e, sh, new, rfl, henv, rfl⟩
  · have htask := Task.step_inv hact
    obtain ⟨hinserts, htouches⟩ := halone j e t rfl ht
    have hlookup : ∀ sid, sh.sessions.lookup client = some sid →
        p.shared.sessions.lookup client = some sid := fun sid =>
      htask.lookup_of_not_inserts hinserts
    have hexpired : ∀ sid, p.shared.sessions.lookup client = some sid →
        p.shared.isExpired sid (D.timeoutSecs inst) = true →
        sh.isExpired sid (D.timeoutSecs inst) = true := fun sid hsid =>
      htask.isExpired_of_not_touches fun heq => htouches sid heq hsid
    by_cases hji : j = i
    · -- the round itself goes on
      subst hji
      obtain rfl : t = .cleanup inst pc := Option.some.inj (ht.symm.trans hpc)
      obtain ⟨⟨sh₁, pc'⟩, hpc', heq⟩ := Option.map_eq_some_iff.mp hact
      obtain ⟨rfl, rfl, rfl⟩ : _ ∧ _ ∧ _ := by simpa using heq
      exact h.mono hpc (getElem?_set_append_self hpc _ _) hlookup hexpired
        fun hmem hexp hahead => CleanupPc.ahead_of_step hpc' hahead hexp hmem
    · have hkeep : (p.tasks.set j t' ++ new)[i]? = some (.cleanup inst pc) := by
        refine getElem?_append_of_some ?_ new
        rw [List.getElem?_set_ne hji, hpc]
      exact h.mono hpc hkeep hlookup hexpired fun _ _ hahead => hahead
  · have hkeep := getElem?_append_of_some hpc new
    rcases env_cases henv with ⟨ns, rfl, rfl, rfl⟩ | ⟨inst', rfl, rfl, rfl⟩ | ⟨rfl, rfl, rfl⟩
    · refine h.mono hpc hkeep (fun _ hsid => hsid) ?_ fun _ _ hahead => hahead
      intro sid _ hexp
      apply isExpired_of_le _ _ hexp
      · rfl
      · exact Nat.le_add_right _ _
    · exact h.mono hpc hkeep (fun _ hsid => hsid) (fun _ _ hexp => hexp) fun _ _ hahead => hahead
    · exact h.mono hpc hkeep (fun _ hsid => hsid) (fun _ _ hexp => hexp) fun _ _ hahead => hahead

/-- **A cleanup round misses nothing.** When a round begins and the session of a client is expired
for its instance, then under every interleaving that neither touches this session nor inserts
another one for the client, the client has no entry any more when the round is over. -/
theorem swept {i inst : ℕ} {p q : Pool Shared Task} {es : List (Sched Event)}
    (hbegin : p.tasks[i]? = some (.cleanup inst (.entering 0 [])))
    (hexp : EntryExpired D p.shared (inst, client))
    (halone : (machine F D).Along (LeavesAlone client) p es)
    (hrun : (machine F D).run p es = some q) (hover : q.tasks[i]? = some (.cleanup inst .waiting)) :
    client ∉ q.shared.sessions := by
  have hstart : Chased D i inst client p :=
    ⟨_, hbegin, fun _ => ⟨hexp, Or.inl (Nat.zero_le _)⟩⟩
  obtain ⟨pc, hpc, hchased⟩ := (machine F D).run_preserves_along
    (fun s a s' hs ha hstep => hs.step ha hstep) hstart halone hrun
  obtain rfl : .waiting = pc := by simpa using hover.symm.trans hpc
  exact fun hmem => (hchased hmem).2

/-- The rest of `idleAndSweep` is a round over the idle session, to its end. -/
def roundOverIdle : List (Sched Event) := [.task 1 (.order [exampleClient])] ++ steps 1 7

/-- The cleanup round leaves no entry of the idle client. -/
theorem swept_idle :
    ∃ p q, (machine ℚ exampleDeployment).run (initial exampleHeap exampleRouters)
        (idleAndSweep.take 15) = some p ∧
      exampleClient ∈ p.shared.sessions ∧
      (machine ℚ exampleDeployment).run p roundOverIdle = some q ∧
      exampleClient ∉ q.shared.sessions := by
  have hbegin : ((machine ℚ exampleDeployment).run (initial exampleHeap exampleRouters)
      (idleAndSweep.take 15)).map (fun p => (p.tasks[1]?,
        p.shared.sessions.lookup exampleClient, p.shared.isExpired 0 30)) =
      some (some (.cleanup 0 (.entering 0 [])), some 0, true) := by decide +kernel
  have hover : ((machine ℚ exampleDeployment).run (initial exampleHeap exampleRouters)
      (idleAndSweep.take 15 ++ roundOverIdle)).map (fun p => p.tasks[1]?) =
      some (some (.cleanup 0 .waiting)) := by decide +kernel
  have hquiet : ∀ n ≤ roundOverIdle.length, ((machine ℚ exampleDeployment).run
      (initial exampleHeap exampleRouters) (idleAndSweep.take 15 ++ roundOverIdle.take n)).all
        (fun p => p.tasks.all fun t => t.inserts.isNone && t.touches.isNone) = true := by
    decide +kernel
  obtain ⟨p, hp, hvals⟩ := Option.map_eq_some_iff.mp hbegin
  obtain ⟨htask, hlookup, hexpired⟩ : _ ∧ _ ∧ _ := by simpa only [Prod.mk.injEq] using hvals
  obtain ⟨q, hq, hwaiting⟩ := Option.map_eq_some_iff.mp hover
  obtain ⟨p', hp', hrest⟩ := (machine ℚ exampleDeployment).run_append_eq_some.mp hq
  obtain rfl : p = p' := Option.some.inj (hp.symm.trans hp')
  have hmem : exampleClient ∈ p.shared.sessions :=
    AList.lookup_isSome.mp (Option.isSome_iff_exists.mpr ⟨0, hlookup⟩)
  refine ⟨p, q, hp, hmem, hrest, swept htask ?_ ?_ hrest hwaiting⟩
  · intro sid hsid
    obtain rfl : 0 = sid := Option.some.inj (hlookup.symm.trans hsid)
    exact hexpired
  · apply (machine ℚ exampleDeployment).along_of_take
    intro n hn s hs a j e t _ ht
    have hs' := hquiet n hn
    rw [(machine ℚ exampleDeployment).run_append_eq_some.mpr ⟨p, hp, hs⟩] at hs'
    have hnone := List.all_eq_true.mp hs' t (List.mem_of_getElem? ht)
    obtain ⟨hinserts, htouches⟩ : t.inserts = none ∧ t.touches = none := by simpa using hnone
    exact ⟨by simp [hinserts], by simp [htouches]⟩

end HarbrRouter.Proxy.Udp
