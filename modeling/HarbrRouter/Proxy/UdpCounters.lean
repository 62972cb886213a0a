import HarbrRouter.Proxy.Udp

/-!
# The session counters

`sessions_active`, `sessions_created` and `sessions_expired` beside the sessions map. Creation and
removal change the map first and the counters later, in steps of their own, so that the counters lag
behind by the tasks in between (`Phase`).

**Theorem** (`counters_agree`): while the steps of a run are orderly (each inserted session is new,
each removal that is counted removes something that was counted, the map is empty when it is
cleared, and no metrics reader is overtaken), the counters agree with the map at rest and never go
below zero.

`Balance` says by how much each counter differs from the map, in numbers of tasks in each phase. A
step takes its task from one phase to the next and moves one counter or the map, so it moves the two
sides of the balance alike (`move`, and its instances for each kind of step). What keeps a counter
above zero is that an entry that is not fully counted is in the map and is claimed by one task
(`creating_le`). At rest there is no task in a phase, and the balance is agreement.
-/

set_option autoImplicit false

namespace HarbrRouter.Proxy.Udp

open Transition TaskPool PointRing Routing

/-! ## Creations and removals under way -/

/-- How far a creation or a removal is. -/
inductive Phase where
  /-- The session is in the map and not counted. -/
  | inserted (client : SocketAddr)
  /-- The session is counted as created and not as active. -/
  | created (client : SocketAddr)
  /-- The entry is removed and nothing is counted. -/
  | removed
  /-- The removal is counted as an expiry, and the session still as active. -/
  | expired
deriving DecidableEq

/-- The creation or removal that a task is inside, from its change of the map to its last change of
the counters. -/
def Task.phase : Task → Option Phase
  | .handler _ client _ (.countCreated _) => some (.inserted client)
  | .handler _ client _ (.incActive _) => some (.created client)
  | .handler _ _ _ .countExpired | .listener _ _ _ .countExpired | .cleanup _ (.countExpired _) =>
      some .removed
  | .handler _ _ _ .decActive | .listener _ _ _ .decActive | .cleanup _ (.decActive _) =>
      some .expired
  | _ => none

/-- The client whose session a task has inserted and not finished counting. -/
def Task.creating (t : Task) : Option SocketAddr :=
  match t.phase with
  | some (.inserted client) | some (.created client) => some client
  | _ => none

/-- Inserted, and `sessions_created.fetch_add(1)` is next. -/
def isInserted : Option Phase → Bool
  | some (.inserted _) => true
  | _ => false

/-- Counted as created, and `sessions_active.fetch_add(1)` is next. -/
def isCreated : Option Phase → Bool
  | some (.created _) => true
  | _ => false

/-- Removed, and `sessions_expired.fetch_add(1)` is next. -/
def isRemoved (ph : Option Phase) : Bool := ph = some .removed

/-- Counted as expired, and `sessions_active.fetch_sub(1)` is next. -/
def isExpired (ph : Option Phase) : Bool := ph = some .expired

/-- The number of tasks with a kind of phase. -/
def countPhase (kind : Option Phase → Bool) (tasks : List Task) : ℕ :=
  tasks.countP fun t => kind t.phase

/-- What a metrics reader has loaded so far does not make its subtraction underflow: the sessions
that it saw expired, or would see now, are not more than those it saw created. -/
def ReaderOk (sh : Shared) : Task → Prop
  | .reader (.loadExpired _ _ created) => created = 0 ∨ sh.metrics.sessionsExpired ≤ created
  | .reader (.loaded _ _ created expired) => created = 0 ∨ expired ≤ created
  | _ => True

/-! ## Orderly steps -/

/-- The condition on a step of the task `t`. -/
structure OrderlyStep (D : Deployment) (p : Pool Shared Task) (t : Task) : Prop where
  /-- A session is inserted only where the client has none. -/
  insert : ∀ inst client data sid, t = .handler inst client data (.inserting sid) →
    client ∉ p.shared.sessions
  /-- `sessions_created` does not overflow. -/
  countCreated : ∀ inst client data sid, t = .handler inst client data (.countCreated sid) →
    p.shared.metrics.sessionsCreated + 1 < 2 ^ 64
  /-- A listener's removal, which is not checked, removes something, and something that was
  counted. -/
  listenerRemove : ∀ inst client sid, t = .listener inst client sid .removing →
    client ∈ p.shared.sessions ∧ ∀ u ∈ p.tasks, u.creating ≠ some client
  /-- The cleanup removes only what was counted. -/
  cleanupRemove : ∀ inst client rest, t = .cleanup inst (.removing (client :: rest)) →
    ∀ u ∈ p.tasks, u.creating ≠ some client
  /-- The map is cleared only when it is empty, shard by shard. -/
  clear : ∀ inst shard, t = .server inst (.clearing shard) →
    ∀ client ∈ p.shared.sessions, D.shardOf client ≠ shard
  /-- An expiry is not counted past what a metrics reader has loaded as created. -/
  countExpired : t.phase = some .removed →
    ∀ packets active created, .reader (.loadExpired packets active created) ∈ p.tasks →
      created = 0 ∨ p.shared.metrics.sessionsExpired + 1 ≤ created

/-- The condition on the steps of a run. -/
def Orderly (D : Deployment) (p : Pool Shared Task) (a : Sched Event) : Prop :=
  ∀ i e t, a = .task i e → p.tasks[i]? = some t → OrderlyStep D p t

/-! ## The balance -/

/-- The balance between the map and the counters, with the numbers of creations and removals under
way in each phase. -/
structure Balance (sh : Shared) (inserted created removed expired : ℕ) : Prop where
  entries : sh.sessions.keys.length + sh.metrics.sessionsExpired + removed =
    sh.metrics.sessionsCreated + inserted
  active : sh.metrics.sessionsActive + sh.metrics.sessionsExpired + created =
    sh.metrics.sessionsCreated + expired
  created_lt : sh.metrics.sessionsCreated < 2 ^ 64
  expired_le : expired ≤ sh.metrics.sessionsExpired

/-- The invariant of orderly runs: the balance holds, an entry that is not fully counted is there
and is claimed by one task, and no metrics reader is overtaken. -/
structure Inv (p : Pool Shared Task) : Prop where
  balance : Balance p.shared (countPhase isInserted p.tasks) (countPhase isCreated p.tasks)
    (countPhase isRemoved p.tasks) (countPhase isExpired p.tasks)
  present : ∀ t ∈ p.tasks, ∀ client, t.creating = some client → client ∈ p.shared.sessions
  exclusive : ∀ client, AtMostOne (fun t : Task => t.creating = some client) p.tasks
  readers : ∀ t ∈ p.tasks, ReaderOk p.shared t

namespace Inv

variable {p : Pool Shared Task}

/-- The sessions that are in the map and not fully counted are among its entries. -/
theorem creating_le (h : Inv p) : countPhase isInserted p.tasks + countPhase isCreated p.tasks ≤
    p.shared.sessions.keys.length := by
  refine le_trans (le_of_eq ?_) (length_claims_le Task.creating h.present h.exclusive)
  induction p.tasks with
  | nil => rfl
  | cons t ts ih =>
      have hsplit : (if t.creating.isSome = true then 1 else 0) =
          (if isInserted t.phase = true then 1 else 0) +
            if isCreated t.phase = true then 1 else 0 := by
        unfold Task.creating
        cases t.phase with
        | none => rfl
        | some ph => cases ph <;> rfl
      simp only [countPhase] at ih
      simp only [countPhase, List.countP_cons, hsplit, ← ih]
      omega

/-! ## One step of the balance -/

variable {i : ℕ} {t t' : Task} {sh' : Shared} {new : List Task}

/-- How a step changes the number of tasks with a kind of phase. -/
theorem countPhase_move (ht : p.tasks[i]? = some t) (t' : Task)
    (hnew : ∀ u ∈ new, u.phase = none) (kind : Option Phase → Bool) (hkind : kind none = false) :
    ∃ n, countPhase kind p.tasks = n + (if kind t.phase then 1 else 0) ∧
      countPhase kind (p.tasks.set i t' ++ new) = n + if kind t'.phase then 1 else 0 := by
  have hzero : new.countP (fun t => kind t.phase) = 0 :=
    List.countP_eq_zero.mpr fun u hu => by simp [hnew u hu, hkind]
  have hmove := countP_set_append (fun t => kind t.phase) ht t' new
  have hmem : (if kind t.phase then 1 else 0) ≤ countPhase kind p.tasks := by
    split_ifs with h
    · exact List.countP_pos_iff.mpr ⟨t, List.mem_of_getElem? ht, h⟩
    · exact Nat.zero_le _
  refine ⟨countPhase kind p.tasks - if kind t.phase then 1 else 0, by omega, ?_⟩
  simp only [countPhase] at hmem hmove ⊢
  omega

/-- **One step of the invariant.** The task that moved goes from one phase to another; the balance
may use what the other tasks add to each side, the entries that somebody claims are kept, a new
claim is to an entry that nobody else claims, and the readers stay in order. -/
theorem move (h : Inv p) (ht : p.tasks[i]? = some t)
    (hnew : ∀ u ∈ new, u.phase = none ∧ ReaderOk sh' u)
    (hbalance : ∀ a b c d,
      Balance p.shared (a + if isInserted t.phase then 1 else 0)
        (b + if isCreated t.phase then 1 else 0) (c + if isRemoved t.phase then 1 else 0)
        (d + if isExpired t.phase then 1 else 0) →
      (a + if isInserted t.phase then 1 else 0) + (b + if isCreated t.phase then 1 else 0) ≤
        p.shared.sessions.keys.length →
      Balance sh' (a + if isInserted t'.phase then 1 else 0)
        (b + if isCreated t'.phase then 1 else 0) (c + if isRemoved t'.phase then 1 else 0)
        (d + if isExpired t'.phase then 1 else 0))
    (hkeep : ∀ u ∈ p.tasks, ∀ c, u.creating = some c → c ∈ sh'.sessions)
    (hself : ∀ c, t'.creating = some c →
      c ∈ sh'.sessions ∧ (t.creating = some c ∨ ∀ u ∈ p.tasks, u.creating ≠ some c))
    (hread : ∀ u ∈ p.tasks, ReaderOk sh' u) (ht' : ReaderOk sh' t') :
    Inv ⟨sh', p.tasks.set i t' ++ new⟩ := by
  have hphase : ∀ u ∈ new, u.phase = none := fun u hu => (hnew u hu).1
  have hidle : ∀ u ∈ new, ∀ c, u.creating ≠ some c := fun u hu c => by
    simp [Task.creating, hphase u hu]
  refine ⟨?_, ?_, ?_, ?_⟩
  · obtain ⟨a, ha, ha'⟩ := countPhase_move ht t' hphase isInserted rfl
    obtain ⟨b, hb, hb'⟩ := countPhase_move ht t' hphase isCreated rfl
    obtain ⟨c, hc, hc'⟩ := countPhase_move ht t' hphase isRemoved rfl
    obtain ⟨d, hd, hd'⟩ := countPhase_move ht t' hphase isExpired rfl
    rw [ha', hb', hc', hd']
    have hle := h.creating_le
    have hold := h.balance
    rw [ha, hb] at hle
    rw [ha, hb, hc, hd] at hold
    exact hbalance a b c d hold hle
  · intro u hu c hc
    rcases mem_set_append hu with rfl | hu | hu
    · exact (hself c hc).1
    · exact hkeep u hu c hc
    · exact absurd hc (hidle u hu c)
  · exact fun c => (h.exclusive c).set_append ht (fun u hu => hidle u hu c) fun hc => (hself c hc).2
  · intro u hu
    rcases mem_set_append hu with rfl | hu | hu
    · exact ht'
    · exact hread u hu
    · exact (hnew u hu).2

/-- What a reader has loaded does not depend on the map, nor on the counts of creations. -/
theorem readerOk_congr {sh : Shared} {u : Task} (h : ReaderOk sh u)
    (hx : sh'.metrics.sessionsExpired = sh.metrics.sessionsExpired) : ReaderOk sh' u := by
  unfold ReaderOk at h ⊢
  rwa [hx]

/-- A step outside creations and removals that leaves map and counters alone. -/
theorem quiet (h : Inv p) (ht : p.tasks[i]? = some t) (hp : t.phase = none) (hp' : t'.phase = none)
    (hnew : ∀ u ∈ new, u.phase = none ∧ ReaderOk sh' u)
    (hs : sh'.sessions = p.shared.sessions)
    (hc : sh'.metrics.sessionsCreated = p.shared.metrics.sessionsCreated)
    (hx : sh'.metrics.sessionsExpired = p.shared.metrics.sessionsExpired)
    (ha : sh'.metrics.sessionsActive = p.shared.metrics.sessionsActive) (hr : ReaderOk sh' t') :
    Inv ⟨sh', p.tasks.set i t' ++ new⟩ := by
  refine h.move ht hnew ?_ (fun u hu c hcr => hs ▸ h.present u hu c hcr) ?_
    (fun u hu => readerOk_congr (h.readers u hu) hx) hr
  · rw [hp, hp']
    rintro a b c d ⟨he, hac, hlt, hle⟩ -
    exact ⟨by rwa [hs, hc, hx], by rwa [hc, hx, ha], by rwa [hc], by rwa [hx]⟩
  · intro c hcr
    simp [Task.creating, hp'] at hcr

/-- A new session is inserted. -/
theorem insert (h : Inv p) (ht : p.tasks[i]? = some t) {client : SocketAddr} (sid : ℕ)
    (hp : t.phase = none) (hp' : t'.phase = some (.inserted client))
    (hno : client ∉ p.shared.sessions) (hr : ReaderOk p.shared t') :
    Inv ⟨{ p.shared with sessions := p.shared.sessions.insert client sid },
      p.tasks.set i t' ++ []⟩ := by
  refine h.move ht (by simp) ?_ ?_ ?_ (fun u hu => readerOk_congr (h.readers u hu) rfl)
    (readerOk_congr hr rfl)
  · rw [hp, hp']
    intro a b c d hold _
    obtain ⟨he, hac, hlt, hle⟩ : Balance p.shared a b c d := hold
    have hlen : (p.shared.sessions.insert client sid).keys.length =
        p.shared.sessions.keys.length + 1 := by
      rw [AList.keys_insert, List.length_cons, List.erase_of_not_mem hno]
    refine ⟨?_, hac, hlt, hle⟩
    show (p.shared.sessions.insert client sid).keys.length + p.shared.metrics.sessionsExpired + c =
      p.shared.metrics.sessionsCreated + (a + 1)
    omega
  · exact fun u hu c hcr => (AList.mem_insert _).mpr (Or.inr (h.present u hu c hcr))
  · intro c hcr
    obtain rfl : client = c := by simpa [Task.creating, hp'] using hcr
    exact ⟨(AList.mem_insert _).mpr (Or.inl rfl),
      Or.inr fun u hu hcr' => hno (h.present u hu _ hcr')⟩

/-- A session is counted as created. -/
theorem countCreated (h : Inv p) (ht : p.tasks[i]? = some t) {client : SocketAddr}
    (hp : t.phase = some (.inserted client)) (hp' : t'.phase = some (.created client))
    (hlt : p.shared.metrics.sessionsCreated + 1 < 2 ^ 64) (hr : ReaderOk p.shared t') :
    Inv ⟨p.shared.countCreated, p.tasks.set i t' ++ []⟩ := by
  have hcreated : p.shared.countCreated.metrics.sessionsCreated =
      p.shared.metrics.sessionsCreated + 1 := wrappingAdd_eq hlt
  refine h.move ht (by simp) ?_ h.present ?_ (fun u hu => readerOk_congr (h.readers u hu) rfl)
    (readerOk_congr hr rfl)
  · rw [hp, hp']
    intro a b c d hold _
    obtain ⟨he, hac, -, hle⟩ : Balance p.shared (a + 1) b c d := hold
    refine ⟨?_, ?_, by rwa [hcreated], hle⟩
    · rw [hcreated]
      show p.shared.sessions.keys.length + p.shared.metrics.sessionsExpired + c =
        p.shared.metrics.sessionsCreated + 1 + a
      omega
    · rw [hcreated]
      show p.shared.metrics.sessionsActive + p.shared.metrics.sessionsExpired + (b + 1) =
        p.shared.metrics.sessionsCreated + 1 + d
      omega
  · intro c hcr
    obtain rfl : client = c := by simpa [Task.creating, hp'] using hcr
    have hold : t.creating = some client := by simp [Task.creating, hp]
    exact ⟨h.present t (List.mem_of_getElem? ht) _ hold, Or.inl hold⟩

/-- A session is counted as active. -/
theorem incActive (h : Inv p) (ht : p.tasks[i]? = some t) {client : SocketAddr}
    (hp : t.phase = some (.created client)) (hp' : t'.phase = none) (hr : ReaderOk p.shared t') :
    Inv ⟨p.shared.incActive, p.tasks.set i t' ++ []⟩ := by
  refine h.move ht (by simp) ?_ h.present ?_ (fun u hu => readerOk_congr (h.readers u hu) rfl)
    (readerOk_congr hr rfl)
  · rw [hp, hp']
    intro a b c d hold _
    obtain ⟨he, hac, hlt, hle⟩ : Balance p.shared a (b + 1) c d := hold
    have hactive : p.shared.incActive.metrics.sessionsActive =
        p.shared.metrics.sessionsActive + 1 := wrappingAdd_eq (by omega)
    refine ⟨he, ?_, hlt, hle⟩
    rw [hactive]
    show p.shared.metrics.sessionsActive + 1 + p.shared.metrics.sessionsExpired + b =
      p.shared.metrics.sessionsCreated + d
    omega
  · intro c hcr
    simp [Task.creating, hp'] at hcr

/-- A session that was counted is removed. -/
theorem remove (h : Inv p) (ht : p.tasks[i]? = some t) {client : SocketAddr}
    (hp : t.phase = none) (hp' : t'.phase = some .removed) (hmem : client ∈ p.shared.sessions)
    (hcounted : ∀ u ∈ p.tasks, u.creating ≠ some client) (hr : ReaderOk p.shared t') :
    Inv ⟨{ p.shared with sessions := p.shared.sessions.erase client }, p.tasks.set i t' ++ []⟩ := by
  refine h.move ht (by simp) ?_ ?_ ?_ (fun u hu => readerOk_congr (h.readers u hu) rfl)
    (readerOk_congr hr rfl)
  · rw [hp, hp']
    intro a b c d hold _
    obtain ⟨he, hac, hlt, hle⟩ : Balance p.shared a b c d := hold
    have hlen : (p.shared.sessions.erase client).keys.length + 1 =
        p.shared.sessions.keys.length := by
      rw [AList.keys_erase]
      exact List.length_erase_add_one (AList.mem_keys.mp hmem)
    refine ⟨?_, hac, hlt, hle⟩
    show (p.shared.sessions.erase client).keys.length + p.shared.metrics.sessionsExpired + (c + 1) =
      p.shared.metrics.sessionsCreated + a
    omega
  · refine fun u hu c hcr => (AList.mem_erase).mpr ⟨?_, h.present u hu c hcr⟩
    rintro rfl
    exact hcounted u hu hcr
  · intro c hcr
    simp [Task.creating, hp'] at hcr

/-- A removal is counted as an expiry. -/
theorem countExpired (h : Inv p) (ht : p.tasks[i]? = some t) (hp : t.phase = some .removed)
    (hp' : t'.phase = some .expired)
    (hreaders : ∀ packets active created,
      .reader (.loadExpired packets active created) ∈ p.tasks →
        created = 0 ∨ p.shared.metrics.sessionsExpired + 1 ≤ created)
    (hr : ∀ sh, ReaderOk sh t') : Inv ⟨p.shared.countExpired, p.tasks.set i t' ++ []⟩ := by
  have hremoved : 1 ≤ countPhase isRemoved p.tasks :=
    List.countP_pos_iff.mpr ⟨t, List.mem_of_getElem? ht, by simp [isRemoved, hp]⟩
  have hx : p.shared.countExpired.metrics.sessionsExpired =
      p.shared.metrics.sessionsExpired + 1 := by
    obtain ⟨hentries, -, hlt, -⟩ := h.balance
    have hclaims := h.creating_le
    exact wrappingAdd_eq (by omega)
  refine h.move ht (by simp) ?_ h.present ?_ (fun u hu => ?_) (hr _)
  · rw [hp, hp']
    intro a b c d hold _
    obtain ⟨he, hac, hlt, hle⟩ : Balance p.shared a b (c + 1) d := hold
    refine ⟨?_, ?_, hlt, ?_⟩
    · rw [hx]
      show p.shared.sessions.keys.length + (p.shared.metrics.sessionsExpired + 1) + c =
        p.shared.metrics.sessionsCreated + a
      omega
    · rw [hx]
      show p.shared.metrics.sessionsActive + (p.shared.metrics.sessionsExpired + 1) + b =
        p.shared.metrics.sessionsCreated + (d + 1)
      omega
    · rw [hx]
      exact Nat.succ_le_succ hle
  · intro c hcr
    simp [Task.creating, hp'] at hcr
  · have hold := h.readers u hu
    unfold ReaderOk at hold ⊢
    split
    · exact hx ▸ hreaders _ _ _ hu
    · exact hold
    · trivial

/-- A session is not counted as active any more. -/
theorem decActive (h : Inv p) (ht : p.tasks[i]? = some t) (hp : t.phase = some .expired)
    (hp' : t'.phase = none) (hr : ReaderOk p.shared t') :
    Inv ⟨p.shared.decActive, p.tasks.set i t' ++ []⟩ := by
  have hx : p.shared.decActive.metrics.sessionsExpired = p.shared.metrics.sessionsExpired := by
    simp [Shared.decActive]
  have hc : p.shared.decActive.metrics.sessionsCreated = p.shared.metrics.sessionsCreated := by
    simp [Shared.decActive]
  have hs : p.shared.decActive.sessions = p.shared.sessions := by simp [Shared.decActive]
  refine h.move ht (by simp) ?_ (by simpa [hs] using h.present) ?_
    (fun u hu => readerOk_congr (h.readers u hu) hx) (readerOk_congr hr hx)
  · rw [hp, hp']
    intro a b c d hold hclaims
    obtain ⟨he, hac, hlt, hle⟩ : Balance p.shared a b c (d + 1) := hold
    replace hclaims : a + b ≤ p.shared.sessions.keys.length := hclaims
    have hactive : p.shared.decActive.metrics.sessionsActive =
        p.shared.metrics.sessionsActive - 1 := by
      simp only [Shared.decActive, Shared.count_metrics]
      exact wrappingSub_eq (by omega) (by omega)
    refine ⟨?_, ?_, by rwa [hc], ?_⟩
    · rw [hs, hc, hx]
      exact he
    · rw [hc, hx, hactive]
      show p.shared.metrics.sessionsActive - 1 + p.shared.metrics.sessionsExpired + b =
        p.shared.metrics.sessionsCreated + d
      omega
    · rw [hx]
      exact Nat.le_of_succ_le hle
  · intro c hcr
    simp [Task.creating, hp'] at hcr

/-! ## Every step of an orderly run -/

variable {F : Type} [ScoreArith F] {D : Deployment} {e : Event}

/-- Clearing a shard without sessions does nothing. -/
theorem clearShard_of_empty {sessions : Sessions} {shard : ℕ}
    (h : ∀ client ∈ sessions, D.shardOf client ≠ shard) :
    clearShard D sessions shard = sessions := by
  have hnil : sessions.keys.filter (fun c => D.shardOf c = shard) = [] :=
    List.filter_eq_nil_iff.mpr fun c hc => by simpa using h c (AList.mem_keys.mpr hc)
  rw [clearShard, hnil]
  rfl

/-- An orderly step of a handler keeps the invariant. -/
theorem handler (h : Inv p) {inst : ℕ} {client : SocketAddr} {data : List UInt8}
    {pc pc' : HandlerPc} (ht : p.tasks[i]? = some (.handler inst client data pc))
    (hstep : HandlerStep F D p.tasks p.shared inst client pc e sh' pc' new)
    (ho : OrderlyStep D p (.handler inst client data pc)) :
    Inv ⟨sh', p.tasks.set i (.handler inst client data pc') ++ new⟩ := by
  cases hstep with
  | start =>
      exact h.quiet ht rfl rfl (by simp) (by simp [Shared.countPacket])
        (by simp [Shared.countPacket]) (by simp [Shared.countPacket])
        (by simp [Shared.countPacket]) trivial
  | remove hguard =>
      rw [guarded_of_removing (List.mem_of_getElem? ht)] at hguard
      exact absurd hguard (by decide)
  | countExpired => exact h.countExpired ht rfl rfl (ho.countExpired rfl) fun _ => trivial
  | decActive => exact h.decActive ht rfl rfl trivial
  | listen =>
      refine h.quiet ht rfl rfl (fun u hu => ?_) rfl rfl rfl rfl trivial
      obtain rfl := List.mem_singleton.mp hu
      exact ⟨rfl, trivial⟩
  | insert => exact h.insert ht _ rfl rfl (ho.insert _ _ _ _ rfl) trivial
  | countCreated => exact h.countCreated ht rfl rfl (ho.countCreated _ _ _ _ rfl) trivial
  | incActive => exact h.incActive ht rfl rfl trivial
  | forward hs hsh =>
      subst hsh
      exact h.quiet ht rfl rfl (by simp) (by simp) (by simp) (by simp) (by simp) trivial
  -- the other steps change neither the map nor the counters of sessions
  | _ => exact h.quiet ht rfl rfl (by simp) rfl rfl rfl rfl trivial

/-- An orderly step of a listener keeps the invariant. -/
theorem listener (h : Inv p) {inst sid : ℕ} {client : SocketAddr} {pc pc' : ListenerPc}
    (ht : p.tasks[i]? = some (.listener inst client sid pc))
    (hstep : ListenerStep D p.tasks p.shared inst client sid pc e sh' pc')
    (ho : OrderlyStep D p (.listener inst client sid pc)) :
    Inv ⟨sh', p.tasks.set i (.listener inst client sid pc') ++ []⟩ := by
  cases hstep with
  | received =>
      exact h.quiet ht rfl rfl (by simp) (by simp) (by simp) (by simp) (by simp) trivial
  | failed hpc =>
      rcases hpc with rfl | rfl
      · exact h.quiet ht rfl rfl (by simp) rfl rfl rfl rfl trivial
      · exact h.quiet ht rfl rfl (by simp) rfl rfl rfl rfl trivial
  | remove =>
      obtain ⟨hmem, hcounted⟩ := ho.listenerRemove inst client sid rfl
      exact h.remove ht rfl rfl hmem hcounted trivial
  | countExpired => exact h.countExpired ht rfl rfl (ho.countExpired rfl) fun _ => trivial
  | decActive => exact h.decActive ht rfl rfl trivial
  | _ => exact h.quiet ht rfl rfl (by simp) rfl rfl rfl rfl trivial

/-- An orderly step of a cleanup task keeps the invariant. -/
theorem cleanup (h : Inv p) {inst : ℕ} {pc pc' : CleanupPc}
    (ht : p.tasks[i]? = some (.cleanup inst pc))
    (hstep : CleanupStep D p.tasks p.shared pc e sh' pc')
    (ho : OrderlyStep D p (.cleanup inst pc)) :
    Inv ⟨sh', p.tasks.set i (.cleanup inst pc') ++ []⟩ := by
  cases hstep with
  | remove hmem =>
      exact h.remove ht rfl rfl hmem (ho.cleanupRemove inst _ _ rfl) trivial
  | countExpired => exact h.countExpired ht rfl rfl (ho.countExpired rfl) fun _ => trivial
  | decActive => exact h.decActive ht rfl rfl trivial
  | _ => exact h.quiet ht rfl rfl (by simp) rfl rfl rfl rfl trivial

/-- An orderly step of a start task keeps the invariant. -/
theorem server (h : Inv p) {inst : ℕ} {pc pc' : ServerPc}
    (ht : p.tasks[i]? = some (.server inst pc))
    (hstep : ServerStep D p.tasks p.shared inst pc e sh' pc' new)
    (ho : OrderlyStep D p (.server inst pc)) :
    Inv ⟨sh', p.tasks.set i (.server inst pc') ++ new⟩ := by
  cases hstep with
  | bound =>
      refine h.quiet ht rfl rfl (fun u hu => ?_) rfl rfl rfl rfl trivial
      obtain rfl := List.mem_singleton.mp hu
      exact ⟨rfl, trivial⟩
  | packet =>
      refine h.quiet ht rfl rfl (fun u hu => ?_) rfl rfl rfl rfl trivial
      obtain rfl := List.mem_singleton.mp hu
      exact ⟨rfl, trivial⟩
  | other => exact h.quiet ht rfl rfl (by simp) rfl rfl rfl rfl trivial
  | clear =>
      exact h.quiet ht rfl rfl (by simp) (clearShard_of_empty (ho.clear inst _ rfl)) rfl rfl rfl
        trivial

/-- A step of a metrics reader keeps the invariant: created sessions are never fewer than expired
ones when they are loaded. -/
theorem reader (h : Inv p) {pc pc' : ReaderPc} (ht : p.tasks[i]? = some (.reader pc))
    (hstep : pc.step p.shared e = some pc') :
    Inv ⟨p.shared, p.tasks.set i (.reader pc') ++ []⟩ := by
  apply h.quiet ht rfl rfl (by simp) rfl rfl rfl rfl
  have hold := h.readers _ (List.mem_of_getElem? ht)
  unfold ReaderPc.step at hstep
  split at hstep
  · obtain rfl := Option.some.inj hstep
    trivial
  · obtain rfl := Option.some.inj hstep
    trivial
  · obtain rfl := Option.some.inj hstep
    have hle := h.creating_le
    have hentries := h.balance.entries
    exact Or.inr (by omega)
  · obtain rfl := Option.some.inj hstep
    exact hold
  · exact absurd hstep (by simp)

/-- Tasks that come in keep the invariant, and so does the clock. -/
theorem append (h : Inv p) {new : List Task} (hs : sh'.sessions = p.shared.sessions)
    (hm : sh'.metrics = p.shared.metrics) (hnew : ∀ u ∈ new, u.phase = none ∧ ReaderOk sh' u) :
    Inv ⟨sh', p.tasks ++ new⟩ := by
  have hidle : ∀ u ∈ new, ∀ c, u.creating ≠ some c := fun u hu c => by
    simp [Task.creating, (hnew u hu).1]
  have hcount : ∀ {kind : Option Phase → Bool}, kind none = false →
      countPhase kind (p.tasks ++ new) = countPhase kind p.tasks := by
    intro kind hkind
    have hzero : new.countP (fun t => kind t.phase) = 0 :=
      List.countP_eq_zero.mpr fun u hu => by simp [(hnew u hu).1, hkind]
    rw [countPhase, List.countP_append, hzero, Nat.add_zero, countPhase]
  refine ⟨?_, fun u hu c hc => ?_, fun c => (h.exclusive c).append fun u hu => hidle u hu c,
    fun u hu => ?_⟩
  · obtain ⟨he, hac, hlt, hle⟩ := h.balance
    rw [hcount rfl, hcount rfl, hcount rfl, hcount rfl]
    exact ⟨by rwa [hs, hm], by rwa [hm], by rwa [hm], by rwa [hm]⟩
  · rcases List.mem_append.mp hu with hu | hu
    · exact hs ▸ h.present u hu c hc
    · exact absurd hc (hidle u hu c)
  · rcases List.mem_append.mp hu with hu | hu
    · exact readerOk_congr (h.readers u hu) (by rw [hm])
    · exact (hnew u hu).2

/-- An orderly step of the machine keeps the invariant. -/
theorem step (h : Inv p) {p' : Pool Shared Task} {a : Sched Event} (ho : Orderly D p a)
    (hstep : (machine F D).step p a = some p') : Inv p' := by
  rcases machine_step hstep with ⟨i, e, t, sh, t', new, rfl, ht, htask, rfl⟩ | ⟨ns, rfl, rfl⟩ |
    ⟨inst, rfl, rfl⟩ | ⟨rfl, rfl⟩
  · have hot := ho i e t rfl ht
    cases htask with
    | handler hpc => exact h.handler ht hpc hot
    | listener hpc => exact h.listener ht hpc hot
    | cleanup hpc => exact h.cleanup ht hpc hot
    | server hpc => exact h.server ht hpc hot
    | reader hpc => exact h.reader ht hpc
  · exact h.append rfl rfl (by simp)
  · refine h.append rfl rfl fun u hu => ?_
    obtain rfl := List.mem_singleton.mp hu
    exact ⟨rfl, trivial⟩
  · refine h.append rfl rfl fun u hu => ?_
    obtain rfl := List.mem_singleton.mp hu
    exact ⟨rfl, trivial⟩

end Inv

/-! ## The counters of orderly runs -/

/-- What the counters promise in a state. -/
structure CountersAgree (p : Pool Shared Task) : Prop where
  /-- At rest, the active sessions are the entries of the map, and the sessions created and not
  expired. -/
  atRest : (∀ t ∈ p.tasks, t.phase = none) →
    p.shared.metrics.sessionsActive = p.shared.sessions.keys.length ∧
      p.shared.metrics.sessionsExpired ≤ p.shared.metrics.sessionsCreated ∧
      p.shared.metrics.sessionsActive =
        p.shared.metrics.sessionsCreated - p.shared.metrics.sessionsExpired
  /-- Whoever is about to decrement `sessions_active` finds it positive. -/
  decrement : ∀ t ∈ p.tasks, t.phase = some .expired → 1 ≤ p.shared.metrics.sessionsActive
  /-- A metrics reader that subtracts has loaded no more expired sessions than created ones. -/
  subtraction : ∀ packets active created expired,
    .reader (.loaded packets active created expired) ∈ p.tasks → 0 < created → expired ≤ created

/-- **The counters of orderly runs agree with the map.** -/
theorem counters_agree {F : Type} [ScoreArith F] {D : Deployment} {heap : Heap}
    {routers : ℕ → Router} {es : List (Sched Event)} {p : Pool Shared Task}
    (hrun : (machine F D).run (initial heap routers) es = some p)
    (horderly : (machine F D).Along (Orderly D) (initial heap routers) es) : CountersAgree p := by
  have hinv : Inv p := by
    refine (machine F D).run_preserves_along (fun q a q' hq ha hstep => hq.step ha hstep) ?_
      horderly hrun
    exact ⟨⟨rfl, rfl, Nat.two_pow_pos 64, Nat.zero_le _⟩, by simp [initial],
      fun c i j t u hi => by simp [initial] at hi, by simp [initial]⟩
  obtain ⟨he, hac, hlt, hle⟩ := hinv.balance
  have hclaims := hinv.creating_le
  refine ⟨fun hrest => ?_, fun t ht hphase => ?_, fun packets active created expired ht hpos => ?_⟩
  · have hzero : ∀ {kind : Option Phase → Bool}, kind none = false →
        countPhase kind p.tasks = 0 := fun hkind =>
      List.countP_eq_zero.mpr fun t ht => by simp [hrest t ht, hkind]
    rw [hzero rfl, hzero rfl] at he hac
    omega
  · have hone : 1 ≤ countPhase isExpired p.tasks :=
      List.countP_pos_iff.mpr ⟨t, ht, by simp [isExpired, hphase]⟩
    omega
  · rcases hinv.readers _ ht with h | h
    · omega
    · exact h

/-! ## One session, and two datagrams of a new client -/

/-- A client sends, its session idles for 31 seconds and the cleanup removes it. -/
def oneSession : List (Sched Event) :=
  starts 0 0 ++ [.task 0 (.packet exampleClient [1])] ++ connects 2 ++ insertsAndForwards 2 ++
    [.env (.advance (31 * 10 ^ 9)), .task 1 .tick, .task 1 (.order [exampleClient])] ++ steps 1 7

/-- The tasks of a state without readers and listeners that remove, each ready for an orderly
step. -/
def orderlyTasks (p : Pool Shared Task) : Bool :=
  p.tasks.all fun
    | .handler _ client _ (.inserting _) => client ∉ p.shared.sessions
    | .handler _ _ _ (.countCreated _) => p.shared.metrics.sessionsCreated + 1 < 2 ^ 64
    | .cleanup _ (.removing (client :: _)) => p.tasks.all fun u => u.creating ≠ some client
    | .listener _ _ _ .removing | .server _ (.clearing _) | .reader _ => false
    | _ => true

/-- Every step from a state with orderly tasks is orderly. -/
theorem orderly_of_orderlyTasks {D : Deployment} {p : Pool Shared Task}
    (h : orderlyTasks p = true) (a : Sched Event) : Orderly D p a := by
  intro i e t _ hi
  have hall := List.all_eq_true.mp h
  have ht := hall t (List.mem_of_getElem? hi)
  refine ⟨?_, ?_, ?_, ?_, ?_, fun _ packets active created hr => ?_⟩
  · rintro inst client data sid rfl
    simpa using ht
  · rintro inst client data sid rfl
    simpa using ht
  · rintro inst client sid rfl
    exact absurd ht (by simp)
  · rintro inst client rest rfl
    simpa using ht
  · rintro inst shard rfl
    exact absurd ht (by simp)
  · exact absurd (hall _ hr) (by simp)

/-- The session comes and goes, and the counters agree. -/
theorem counters_agree_oneSession :
    ∃ p, (machine ℚ exampleDeployment).run (initial exampleHeap exampleRouters) oneSession =
        some p ∧ CountersAgree p := by
  have hend : ((machine ℚ exampleDeployment).run (initial exampleHeap exampleRouters)
      oneSession).isSome = true := by decide +kernel
  have hstates : ∀ n ≤ oneSession.length, ((machine ℚ exampleDeployment).run
      (initial exampleHeap exampleRouters) (oneSession.take n)).all orderlyTasks = true := by
    decide +kernel
  obtain ⟨p, hp⟩ := Option.isSome_iff_exists.mp hend
  refine ⟨p, hp, counters_agree hp ?_⟩
  refine (machine _ _).along_of_take fun n hn q hq a => orderly_of_orderlyTasks ?_ a
  have hq' := hstates n hn
  rwa [hq] at hq'

/-- Two datagrams of a new client: both handlers find no session, and both insert one. -/
def twoPackets : List (Sched Event) :=
  starts 0 0 ++ [.task 0 (.packet exampleClient [1]), .task 0 (.packet exampleClient [2])] ++
    connects 2 ++ connects 3 ++ insertsAndForwards 2 ++ insertsAndForwards 3

/-- One entry, two active sessions, and no task inside a creation or a removal. -/
theorem counters_disagree :
    ∃ p, (machine ℚ exampleDeployment).run (initial exampleHeap exampleRouters) twoPackets =
        some p ∧ (∀ t ∈ p.tasks, t.phase = none) ∧
      p.shared.metrics.sessionsActive = 2 ∧ p.shared.sessions.keys.length = 1 := by
  have hend : ((machine ℚ exampleDeployment).run (initial exampleHeap exampleRouters)
      twoPackets).map (fun p => (p.tasks.all (·.phase = none), p.shared.metrics.sessionsActive,
        p.shared.sessions.keys.length)) = some (true, 2, 1) := by decide +kernel
  obtain ⟨p, hp, hvals⟩ := Option.map_eq_some_iff.mp hend
  obtain ⟨hrest, hactive, hkeys⟩ : _ ∧ _ ∧ _ := by simpa using hvals
  exact ⟨p, hp, hrest, hactive, hkeys⟩

end HarbrRouter.Proxy.Udp
