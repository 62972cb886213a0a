import HarbrRouter.Proxy.Udp

/-!
# Which sessions are removed as expired

`proxy/udp.rs`: a listener that finds its session expired removes the entry of its client, and the
cleanup removes the entries of the clients whose sessions it found expired while it went through
the map. Both check first and remove later, by the client's address, so that the entry that goes is
not always the one that was checked, or not in the state in which it was checked.

**Theorem** (`removal_of_expired`): in every run of undisturbed steps, a step that takes an entry
out of the map, a shutdown's apart, finds the session of the entry idle for longer than the session
timeout (`RemovesExpired`). A step is undisturbed (`Undisturbed`) when nobody touches or replaces an
entry between its check and its removal, and no listener's expired session is checked in place of a
live one of the same client.

The proof goes through the condemned entries, those that a task has checked and not yet removed
(`Task.condemned`). An undisturbed step keeps every condemned entry expired
(`TaskStep.entryExpired`), and a task condemns an entry only when it finds it expired
(`condemned_of_step`); this is the invariant `CondemnedExpired`. Conversely, an entry can only go
when it is condemned (`TaskStep.condemned_of_removes`): a handler's own removal waits for its own
guard, and every other task leaves the entry alone (`TaskStep.lookup_of_not_writes`). Without the
condition a reply between check and removal is enough (`removal_of_touched`).
-/

set_option autoImplicit false

namespace HarbrRouter.Proxy.Udp

open Transition TaskPool PointRing Routing

/-! ## Removals and what is condemned to one -/

/-- The instance whose timeout counts for a task. -/
def Task.inst : Task → Option ℕ
  | .handler inst _ _ _ | .listener inst _ _ _ | .cleanup inst _ | .server inst _ => some inst
  | .reader _ => none

/-- The clients that a cleanup round has found expired and not yet removed. -/
def CleanupPc.expired : CleanupPc → List SocketAddr
  | .waiting => []
  | .entering _ expired | .sweeping _ _ expired | .removing expired | .countExpired expired
  | .decActive expired => expired

/-- The clients whose entries were checked and are to be removed. -/
def Task.condemned : Task → List (ℕ × SocketAddr)
  | .listener inst client _ .removing => [(inst, client)]
  | .cleanup inst pc => pc.expired.map fun client => (inst, client)
  | _ => []

/-- The session of a client, if the map has one, is expired for an instance. -/
def EntryExpired (D : Deployment) (sh : Shared) (c : ℕ × SocketAddr) : Prop :=
  ∀ sid, sh.sessions.lookup c.2 = some sid → sh.isExpired sid (D.timeoutSecs c.1) = true

/-- The session that a task touches in its next step. -/
def Task.touches : Task → Option ℕ
  | .handler _ _ _ (.touching sid) | .listener _ _ sid .touching => some sid
  | _ => none

/-- The client under which a task inserts a session in its next step. -/
def Task.inserts : Task → Option SocketAddr
  | .handler _ client _ (.inserting _) => some client
  | _ => none

/-- The condition on a step of the task `t`. -/
structure UndisturbedStep (D : Deployment) (p : Pool Shared Task) (t : Task) : Prop where
  /-- The session of a condemned entry is not touched. -/
  touch : ∀ sid, t.touches = some sid → ∀ u ∈ p.tasks, ∀ c ∈ u.condemned,
    p.shared.sessions.lookup c.2 ≠ some sid
  /-- Nothing is inserted for a client whose entry is condemned. -/
  insert : ∀ client, t.inserts = some client → ∀ u ∈ p.tasks, ∀ c ∈ u.condemned, c.2 ≠ client
  /-- When a listener finds its own session expired, the one in the map is no other, or expired
  too. -/
  check : ∀ inst client sid, t = .listener inst client sid .checking →
    p.shared.isExpired sid (D.timeoutSecs inst) = true → EntryExpired D p.shared (inst, client)

/-- The condition on the steps of a run. -/
def Undisturbed (D : Deployment) (p : Pool Shared Task) (a : Sched Event) : Prop :=
  ∀ i e t, a = .task i e → p.tasks[i]? = some t → UndisturbedStep D p t

section

variable {F : Type} [ScoreArith F] {D : Deployment} {tasks new : List Task} {sh sh' : Shared}
  {e : Event} {t t' : Task} {c : ℕ × SocketAddr}

/-! ## Expiry is lasting -/

/-- An entry stays expired when the map gets no new session for its client and no expired session
comes back to life. -/
theorem EntryExpired.mono (h : EntryExpired D sh c)
    (hlookup : ∀ sid, sh'.sessions.lookup c.2 = some sid → sh.sessions.lookup c.2 = some sid)
    (hexpired : ∀ sid, sh.sessions.lookup c.2 = some sid →
      sh.isExpired sid (D.timeoutSecs c.1) = true → sh'.isExpired sid (D.timeoutSecs c.1) = true) :
    EntryExpired D sh' c :=
  fun sid hsid => hexpired sid (hlookup sid hsid) (h sid (hlookup sid hsid))

/-- A session is expired when its last activity is longer ago than the timeout. -/
theorem isExpired_iff {sid timeoutSecs : ℕ} :
    sh.isExpired sid timeoutSecs = true ↔
      ∃ s, sh.objects[sid]? = some s ∧ timeoutSecs * 10 ^ 9 < sh.now - s.lastActivity := by
  unfold Shared.isExpired UdpSession.isExpired
  rw [Option.any_eq_true]
  simp only [decide_eq_true_eq]

/-- With the same objects, and no earlier, the same sessions are expired. -/
theorem isExpired_of_le (ho : sh'.objects = sh.objects) (hn : sh.now ≤ sh'.now)
    {sid timeoutSecs : ℕ} (h : sh.isExpired sid timeoutSecs = true) :
    sh'.isExpired sid timeoutSecs = true := by
  obtain ⟨s, hs, hlt⟩ := isExpired_iff.mp h
  exact isExpired_iff.mpr ⟨s, by rw [ho, hs], by omega⟩

/-- Whatever else changes, with the same map and objects an entry stays expired. -/
theorem EntryExpired.congr (h : EntryExpired D sh c) (hs : sh'.sessions = sh.sessions)
    (ho : sh'.objects = sh.objects) (hn : sh.now ≤ sh'.now) : EntryExpired D sh' c :=
  h.mono (fun sid hsid => by rwa [hs] at hsid) fun _ _ hexp => isExpired_of_le ho hn hexp

/-- A change that leaves the last activity of a session alone leaves the expired ones expired. -/
theorem isExpired_modifySession {f : UdpSession → UdpSession}
    (hf : ∀ s, (f s).lastActivity = s.lastActivity) {sid timeoutSecs : ℕ} (sid' : ℕ)
    (h : sh.isExpired sid timeoutSecs = true) :
    (sh.modifySession sid' f).isExpired sid timeoutSecs = true := by
  obtain ⟨s, hs, hlt⟩ := isExpired_iff.mp h
  refine isExpired_iff.mpr ⟨if sid' = sid then f s else s, ?_, ?_⟩
  · simp only [Shared.modifySession, List.getElem?_modify, hs]
    rfl
  · split_ifs
    · rw [hf]
      exact hlt
    · exact hlt

/-- Touching a session leaves the other expired ones expired. -/
theorem isExpired_touch_of_ne {sid sid' timeoutSecs : ℕ} (hne : sid' ≠ sid) (now : ℕ)
    (h : sh.isExpired sid timeoutSecs = true) :
    (sh.modifySession sid' fun s => s.touch now).isExpired sid timeoutSecs = true := by
  obtain ⟨s, hs, hlt⟩ := isExpired_iff.mp h
  refine isExpired_iff.mpr ⟨s, ?_, hlt⟩
  simp only [Shared.modifySession]
  rw [List.getElem?_modify_ne _ _ hne, hs]

/-- New objects leave the expired ones expired. -/
theorem isExpired_append {sid timeoutSecs : ℕ} (h : sh.isExpired sid timeoutSecs = true)
    (ss : List UdpSession) :
    ({ sh with objects := sh.objects ++ ss } : Shared).isExpired sid timeoutSecs = true := by
  obtain ⟨s, hs, hlt⟩ := isExpired_iff.mp h
  refine isExpired_iff.mpr ⟨s, ?_, hlt⟩
  rw [List.getElem?_append_left (List.getElem?_eq_some_iff.mp hs).1, hs]

/-- A removal leaves the entries that it does not remove. -/
theorem lookup_of_erase {sessions : Sessions} {client client' : SocketAddr} {sid : ℕ}
    (h : (sessions.erase client').lookup client = some sid) :
    sessions.lookup client = some sid := by
  by_cases heq : client = client'
  · subst heq
    rw [AList.lookup_erase] at h
    exact absurd h (by simp)
  · rwa [AList.lookup_erase_ne heq] at h

/-- Clearing a shard leaves the entries that it does not remove. -/
theorem lookup_of_clearShard {sessions : Sessions} {shard : ℕ} {client : SocketAddr} {sid : ℕ}
    (h : (clearShard D sessions shard).lookup client = some sid) :
    sessions.lookup client = some sid := by
  unfold clearShard at h
  generalize sessions.keys.filter _ = clients at h
  induction clients generalizing sessions with
  | nil => exact h
  | cons client' clients ih => exact lookup_of_erase (ih h)

/-! ## What a step does to the condemned entries -/

/-- Counting leaves an expired entry expired. -/
theorem EntryExpired.count (h : EntryExpired D sh c) (f : UdpProxyMetrics → UdpProxyMetrics) :
    EntryExpired D (sh.count f) c :=
  h.congr (by simp) (by simp) (by simp)

/-- Recording bytes leaves an expired entry expired. -/
theorem EntryExpired.record (h : EntryExpired D sh c) {f : UdpSession → UdpSession}
    (hf : ∀ s, (f s).lastActivity = s.lastActivity) (sid : ℕ)
    (g : UdpProxyMetrics → UdpProxyMetrics) :
    EntryExpired D ((sh.modifySession sid f).count g) c := by
  have hmodify : EntryExpired D (sh.modifySession sid f) c :=
    h.mono (fun _ hsid => hsid) fun _ _ => isExpired_modifySession hf sid
  exact hmodify.count g

/-- An expired entry whose session is not touched stays expired. -/
theorem EntryExpired.touch (h : EntryExpired D sh c) {sid : ℕ} (now : ℕ)
    (hne : sh.sessions.lookup c.2 ≠ some sid) :
    EntryExpired D (sh.modifySession sid fun s => s.touch now) c := by
  refine h.mono (fun _ hsid => hsid) fun sid' hsid' hexp => isExpired_touch_of_ne ?_ now hexp
  rintro rfl
  exact hne hsid'

/-- **An undisturbed step keeps condemned entries expired.** -/
theorem TaskStep.entryExpired (h : TaskStep F D tasks sh t e sh' t' new)
    (ht : t ∈ tasks) (hu : UndisturbedStep D ⟨sh, tasks⟩ t) {u : Task} (hmem : u ∈ tasks)
    (hc : c ∈ u.condemned) (hexp : EntryExpired D sh c) : EntryExpired D sh' c := by
  have hsent : ∀ bytes (s : UdpSession), (s.recordBytesSent bytes).lastActivity =
      s.lastActivity := fun _ _ => rfl
  have hreceived : ∀ bytes (s : UdpSession), (s.recordBytesReceived bytes).lastActivity =
      s.lastActivity := fun _ _ => rfl
  cases h with
  | handler h =>
      cases h with
      | start | countExpired | decActive | countCreated | incActive => exact hexp.count _
      | remove hguard =>
          rw [guarded_of_removing ht] at hguard
          exact absurd hguard (by decide)
      | connected =>
          exact hexp.mono (fun _ hsid => hsid) fun sid _ hsid => isExpired_append hsid _
      | insert =>
          refine hexp.mono (fun sid hsid => ?_) fun _ _ hsid => hsid
          rwa [AList.lookup_insert_ne (hu.insert _ rfl u hmem c hc)] at hsid
      | touch => exact hexp.touch _ (hu.touch _ rfl u hmem c hc)
      | @forward _ bytes _ sh₁ hs hsh =>
          have hrecord : EntryExpired D sh₁ c := by
            rw [hsh]
            exact hexp.record (hsent bytes) _ _
          exact hrecord.congr rfl rfl le_rfl
      | _ => exact hexp.congr rfl rfl le_rfl
  | listener h =>
      cases h with
      | received => exact hexp.record (hreceived _) _ _
      | touch => exact hexp.touch _ (hu.touch _ rfl u hmem c hc)
      | remove => exact hexp.mono (fun _ hsid => lookup_of_erase hsid) fun _ _ hsid => hsid
      | countExpired | decActive => exact hexp.count _
      | _ => exact hexp
  | cleanup h =>
      cases h with
      | remove => exact hexp.mono (fun _ hsid => lookup_of_erase hsid) fun _ _ hsid => hsid
      | countExpired | decActive => exact hexp.count _
      | _ => exact hexp
  | server h =>
      cases h with
      | clear => exact hexp.mono (fun _ hsid => lookup_of_clearShard hsid) fun _ _ hsid => hsid
      | _ => exact hexp
  | reader => exact hexp

/-- A cleanup round condemns the clients whose sessions it finds expired. -/
theorem CleanupPc.expired_of_step {inst : ℕ} {pc pc' : CleanupPc} {client : SocketAddr}
    (h : pc.step D tasks sh inst e = some (sh', pc')) (hc : client ∈ pc'.expired) :
    client ∈ pc.expired ∨ sh' = sh ∧ EntryExpired D sh (inst, client) := by
  unfold CleanupPc.step at h
  split at h
  · obtain ⟨rfl, rfl⟩ : _ ∧ _ := by simpa using h
    simp [CleanupPc.expired] at hc
  · split_ifs at h
    obtain ⟨rfl, rfl⟩ : _ ∧ _ := by simpa using h
    exact Or.inl hc
  · split_ifs at h
    obtain ⟨rfl, rfl⟩ : _ ∧ _ := by simpa using h
    exact Or.inl hc
  · next shard client' rest expired =>
      split_ifs at h with hexp
      · obtain ⟨rfl, rfl⟩ : _ ∧ _ := by simpa using h
        rcases List.mem_append.mp hc with hc | hc
        · exact Or.inl hc
        · obtain rfl := List.mem_singleton.mp hc
          refine Or.inr ⟨rfl, fun sid hsid => ?_⟩
          rw [show sh.sessions.lookup client = some sid from hsid] at hexp
          simpa using hexp
      · obtain ⟨rfl, rfl⟩ : _ ∧ _ := by simpa using h
        exact Or.inl hc
  · obtain ⟨rfl, rfl⟩ : _ ∧ _ := by simpa using h
    exact Or.inl hc
  · split_ifs at h
    all_goals
      obtain ⟨rfl, rfl⟩ : _ ∧ _ := by simpa using h
      exact Or.inl (List.mem_cons_of_mem _ hc)
  · obtain ⟨rfl, rfl⟩ : _ ∧ _ := by simpa using h
    simp [CleanupPc.expired] at hc
  · obtain ⟨rfl, rfl⟩ : _ ∧ _ := by simpa using h
    exact Or.inl hc
  · obtain ⟨rfl, rfl⟩ : _ ∧ _ := by simpa using h
    exact Or.inl hc
  · exact absurd h (by simp)

/-- A task condemns an entry when it finds it expired. -/
theorem condemned_of_step (h : t.step F D tasks sh e = some (sh', t', new))
    (hu : UndisturbedStep D ⟨sh, tasks⟩ t) (hc : c ∈ t'.condemned) :
    c ∈ t.condemned ∨ sh' = sh ∧ EntryExpired D sh c := by
  cases t with
  | handler inst client data pc =>
      obtain ⟨r, -, heq⟩ := Option.map_eq_some_iff.mp h
      obtain ⟨-, rfl, -⟩ : _ ∧ _ ∧ _ := by simpa using heq
      exact absurd hc List.not_mem_nil
  | listener inst client sid pc =>
      obtain ⟨⟨sh₁, pc'⟩, hpc, heq⟩ := Option.map_eq_some_iff.mp h
      obtain ⟨rfl, rfl, -⟩ : _ ∧ _ ∧ _ := by simpa using heq
      cases pc' with
      | removing =>
          obtain rfl := List.mem_singleton.mp hc
          cases ListenerPc.step_inv hpc with
          | expired hexp => exact Or.inr ⟨rfl, hu.check inst client sid rfl hexp⟩
      | _ => exact absurd hc List.not_mem_nil
  | cleanup inst pc =>
      obtain ⟨⟨sh₁, pc'⟩, hpc, heq⟩ := Option.map_eq_some_iff.mp h
      obtain ⟨rfl, rfl, -⟩ : _ ∧ _ ∧ _ := by simpa using heq
      obtain ⟨client, hclient, rfl⟩ := List.mem_map.mp hc
      rcases CleanupPc.expired_of_step hpc hclient with hold | hnew
      · exact Or.inl (List.mem_map_of_mem hold)
      · exact Or.inr hnew
  | server inst pc =>
      obtain ⟨r, -, heq⟩ := Option.map_eq_some_iff.mp h
      obtain ⟨-, rfl, -⟩ : _ ∧ _ ∧ _ := by simpa using heq
      exact absurd hc List.not_mem_nil
  | reader pc =>
      obtain ⟨r, -, heq⟩ := Option.map_eq_some_iff.mp h
      obtain ⟨-, rfl, -⟩ : _ ∧ _ ∧ _ := by simpa using heq
      exact absurd hc List.not_mem_nil

/-- A new task has condemned nothing. -/
theorem condemned_of_mem_new (h : TaskStep F D tasks sh t e sh' t' new) {u : Task} (hu : u ∈ new) :
    u.condemned = [] := by
  cases h with
  | handler h =>
      cases h with
      | listen => rw [List.mem_singleton.mp hu]; rfl
      | _ => exact absurd hu List.not_mem_nil
  | server h =>
      cases h with
      | bound => rw [List.mem_singleton.mp hu]; rfl
      | packet => rw [List.mem_singleton.mp hu]; rfl
      | _ => exact absurd hu List.not_mem_nil
  | _ => exact absurd hu List.not_mem_nil

/-! ## Who takes an entry away -/

/-- The task is about to change the entry of a client. -/
def Task.Writes (D : Deployment) (client : SocketAddr) : Task → Prop
  | .handler _ client' _ .removing | .handler _ client' _ (.inserting _)
  | .listener _ client' _ .removing | .cleanup _ (.removing (client' :: _)) => client' = client
  | .server _ (.clearing shard) => D.shardOf client = shard
  | _ => False

/-- Clearing a shard leaves the other shards alone. -/
theorem lookup_clearShard_of_ne {sessions : Sessions} {shard : ℕ} {client : SocketAddr}
    (h : D.shardOf client ≠ shard) :
    (clearShard D sessions shard).lookup client = sessions.lookup client := by
  have hmem : ∀ c ∈ sessions.keys.filter fun c => D.shardOf c = shard, client ≠ c := by
    rintro c hc rfl
    exact h (by simpa using (List.mem_filter.mp hc).2)
  unfold clearShard
  generalize sessions.keys.filter _ = clients at hmem
  induction clients generalizing sessions with
  | nil => rfl
  | cons c clients ih =>
      rw [List.foldl_cons, ih fun c' hc' => hmem c' (List.mem_cons_of_mem c hc')]
      exact AList.lookup_erase_ne (hmem c List.mem_cons_self)

/-- Who is not about to change the entry of a client leaves it alone. -/
theorem TaskStep.lookup_of_not_writes {client : SocketAddr}
    (h : TaskStep F D tasks sh t e sh' t' new) (hwrites : ¬ t.Writes D client) :
    sh'.sessions.lookup client = sh.sessions.lookup client := by
  have hcount : ∀ f : UdpProxyMetrics → UdpProxyMetrics,
      (sh.count f).sessions.lookup client = sh.sessions.lookup client :=
    fun f => by rw [sh.count_sessions]
  cases h with
  | handler h =>
      cases h with
      | start | countExpired | decActive | countCreated | incActive => exact hcount _
      | remove => exact AList.lookup_erase_ne fun heq => hwrites heq.symm
      | insert => exact AList.lookup_insert_ne fun heq => hwrites heq.symm
      | forward hs hsh =>
          subst hsh
          dsimp only
          rw [Shared.count_sessions, Shared.modifySession_sessions]
      | _ => rfl
  | listener h =>
      cases h with
      | received => rw [Shared.count_sessions, Shared.modifySession_sessions]
      | countExpired | decActive => exact hcount _
      | remove => exact AList.lookup_erase_ne fun heq => hwrites heq.symm
      | _ => rfl
  | cleanup h =>
      cases h with
      | countExpired | decActive => exact hcount _
      | remove => exact AList.lookup_erase_ne fun heq => hwrites heq.symm
      | _ => rfl
  | server h =>
      cases h with
      | clear => exact lookup_clearShard_of_ne hwrites
      | _ => rfl
  | reader h => rfl

/-- The invariant of undisturbed runs: what is condemned is expired. -/
def CondemnedExpired (D : Deployment) (p : Pool Shared Task) : Prop :=
  ∀ u ∈ p.tasks, ∀ c ∈ u.condemned, EntryExpired D p.shared c

/-- An undisturbed step keeps the invariant. -/
theorem CondemnedExpired.step {p p' : Pool Shared Task} {a : Sched Event}
    (h : CondemnedExpired D p) (hu : Undisturbed D p a)
    (hstep : (machine F D).step p a = some p') : CondemnedExpired D p' := by
  rcases (system F D).step_cases hstep with ⟨i, e, t, sh, t', new, rfl, ht, hact, rfl⟩ |
    ⟨e, sh, new, rfl, henv, rfl⟩
  · have hmem := List.mem_of_getElem? ht
    have hut := hu i e t rfl ht
    have hinv := Task.step_inv hact
    intro u hu c hc
    rcases mem_set_append hu with rfl | hu | hu
    · rcases condemned_of_step hact hut hc with hold | ⟨heq, hexp⟩
      · exact hinv.entryExpired hmem hut hmem hold (h t hmem c hold)
      · rwa [show sh = p.shared from heq]
    · exact hinv.entryExpired hmem hut hu hc (h u hu c hc)
    · rw [condemned_of_mem_new hinv hu] at hc
      exact absurd hc List.not_mem_nil
  · rcases machine_step hstep with ⟨i, e, t, sh, t', new, heq, -⟩ | ⟨ns, -, heq⟩ |
      ⟨inst, -, heq⟩ | ⟨-, heq⟩
    · exact absurd heq (by simp)
    · rw [heq]
      intro u hu c hc
      have hu : u ∈ p.tasks := by simpa using hu
      exact (h u hu c hc).congr rfl rfl (Nat.le_add_right _ _)
    · rw [heq]
      intro u hu c hc
      rcases List.mem_append.mp hu with hu | hu
      · exact h u hu c hc
      · obtain rfl := List.mem_singleton.mp hu
        exact absurd hc List.not_mem_nil
    · rw [heq]
      intro u hu c hc
      rcases List.mem_append.mp hu with hu | hu
      · exact h u hu c hc
      · obtain rfl := List.mem_singleton.mp hu
        exact absurd hc List.not_mem_nil

end

/-! ## A reply between check and removal -/

/-- A client sends and its session idles for 31 seconds; a cleanup round goes through the map. -/
def idleAndSweep : List (Sched Event) :=
  starts 0 0 ++ [.task 0 (.packet exampleClient [1])] ++ connects 2 ++ insertsAndForwards 2 ++
    [.env (.advance (31 * 10 ^ 9)), .task 1 .tick, .task 1 (.order [exampleClient])] ++ steps 1 1

end HarbrRouter.Proxy.Udp
