import HarbrRouter.Proxy.Manager
import HarbrRouter.Proxy.TcpCopy
import HarbrRouter.Proxy.TcpCounters

/-!
# The bytes that a TCP proxy reports

`proxy/tcp.rs`: both directions of every connection add to one counter, `bytes_transferred`, and
`get_metrics` gives its value twice, as the bytes sent and as the bytes received.

**Theorem** (`bytes_reported_iff`): in a run in which no write fails and no chunk is cut, whenever
no chunk is being written, the two values are right exactly when no read has given any data.

Every step of a handler accounts for what it reads, writes and counts (`Handler.accounts`), so what
was read is written or still to write, and what was written is counted or still to count
(`accounts_of_run`). With nothing being written, the counter is the sum over both directions
(`Accounted.settled`); it is the number of each of them, as the report has it, only if both are
zero, and then nothing was read (`noData_of_bytesRead`).
-/

set_option autoImplicit false

namespace HarbrRouter.Proxy.Tcp

open Routing

/-- Source: `proxy/tcp.rs`, `TcpProxy::get_metrics` -/
def TcpProxyMetrics.getMetrics (F : Type) [ScoreArith F] (self : TcpProxyMetrics) :
    ProxyMetrics F where
  totalRequests := self.connectionsTotal
  activeConnections := self.connectionsActive
  bytesSent := self.bytesTransferred
  bytesReceived := self.bytesTransferred
  requestRate := 0.0
  errorRate := 0.0
  avgResponseTimeMs :=
    if 0 < self.connectionDurationCount then
      (self.connectionDurationSum : F) / (self.connectionDurationCount : F)
    else 0.0

namespace Connection

open Transition TaskPool

/-! ## What is asked of the report -/

/-- The bytes that a step gives to the upstream, or to the client. -/
def Event.bytesWritten (d : Direction) : Event → ℕ
  | .io d' e => if d' = d then e.bytesWritten else 0
  | _ => 0

/-- The bytes that a step reads. -/
def Event.bytesRead : Event → ℕ
  | .io _ e => e.bytesRead
  | _ => 0

/-- A number of the event that a task moves with. -/
def ofTask (f : Event → ℕ) : Sched Event → ℕ
  | .task _ e => f e
  | .env _ => 0

/-- The bytes written in a direction in the course of a run. -/
def bytesWritten (d : Direction) (es : List (Sched Event)) : ℕ :=
  (es.map (ofTask (Event.bytesWritten d))).sum

/-- The bytes read in the course of a run. -/
def bytesRead (es : List (Sched Event)) : ℕ := (es.map (ofTask Event.bytesRead)).sum

/-- What `get_metrics` gives are the bytes written to the upstreams and those written to the
clients, and together they are the bytes relayed. -/
structure BytesReported (F : Type) [ScoreArith F] (p : Pool ProxyState Handler)
    (es : List (Sched Event)) : Prop where
  sent : (p.shared.metrics.getMetrics F).bytesSent = bytesWritten .toUpstream es
  received : (p.shared.metrics.getMetrics F).bytesReceived = bytesWritten .toClient es
  relayed : (p.shared.metrics.getMetrics F).bytesSent +
    (p.shared.metrics.getMetrics F).bytesReceived =
      bytesWritten .toUpstream es + bytesWritten .toClient es

/-- No write fails. -/
def NoWriteError (es : List (Sched Event)) : Prop :=
  ∀ i d text, .task i (.io d (.writeError text)) ∉ es

/-- The bytes that a handler has still to write of the chunks it is writing. -/
def HandlerPc.pending : HandlerPc → ℕ
  | .streaming _ _ _ copy => (copy .toUpstream).pending + (copy .toClient).pending
  | _ => 0

/-- A streaming does not end in the middle of a chunk. -/
def NotCut (p : Pool ProxyState Handler) : Sched Event → Prop
  | .task i .step => ∀ t, p.tasks[i]? = some t → t.pc.pending = 0
  | _ => True

/-- No read gives any data. -/
def NoData (es : List (Sched Event)) : Prop := ∀ i d n, .task i (.io d (.read n)) ∉ es

/-! ## What a step counts -/

/-- The bytes that a handler has written and not counted yet. -/
def HandlerPc.uncounted : HandlerPc → ℕ
  | .streaming _ _ _ copy => (copy .toUpstream).uncounted + (copy .toClient).uncounted
  | _ => 0

/-- The chunks that a handler is writing have something to write. -/
def HandlerPc.WellFormed : HandlerPc → Prop
  | .streaming _ _ _ copy => ∀ d, (copy d).WellFormed
  | _ => True

/-- With nothing to write, everything written is counted. -/
theorem HandlerPc.uncounted_eq_zero {pc : HandlerPc} (h : pc.WellFormed)
    (hpending : pc.pending = 0) : pc.uncounted = 0 := by
  cases pc with
  | streaming u stream since copy =>
      obtain ⟨hup, hdown⟩ : (copy .toUpstream).pending = 0 ∧ (copy .toClient).pending = 0 := by
        simpa [pending] using hpending
      simp only [uncounted, (h .toUpstream).uncounted_eq_zero hup,
        (h .toClient).uncounted_eq_zero hdown]
  | _ => rfl

/-- A sum over both directions changes by the direction that changes. -/
theorem sum_update (f : CopyStream → ℕ) (copy : Direction → CopyStream) (d : Direction)
    (c : CopyStream) :
    f (Function.update copy d c .toUpstream) + f (Function.update copy d c .toClient) +
        f (copy d) = f (copy .toUpstream) + f (copy .toClient) + f c := by
  cases d with
  | toUpstream => simp [Function.update]; omega
  | toClient => simp [Function.update]; omega

/-- What a step of a handler reads, writes and counts. -/
structure Accounts (sh sh' : ProxyState) (t t' : Handler) (e : Event) : Prop where
  wellFormed : t'.pc.WellFormed
  read : t.pc.pending + e.bytesRead =
    t'.pc.pending + (e.bytesWritten .toUpstream + e.bytesWritten .toClient)
  counted : ∃ k, t.pc.uncounted + (e.bytesWritten .toUpstream + e.bytesWritten .toClient) =
      t'.pc.uncounted + k ∧
    ∀ n, sh.metrics.bytesTransferred = n % 2 ^ 64 →
      sh'.metrics.bytesTransferred = (n + k) % 2 ^ 64

/-- A step that neither reads nor writes accounts for nothing. -/
theorem Accounts.quiet {sh sh' : ProxyState} {t t' : Handler} {e : Event}
    (hwellFormed : t'.pc.WellFormed) (hpending : t'.pc.pending = t.pc.pending)
    (huncounted : t'.pc.uncounted = t.pc.uncounted)
    (hread : e.bytesRead = 0) (hwritten : ∀ d, e.bytesWritten d = 0)
    (hsame : sh'.metrics.bytesTransferred = sh.metrics.bytesTransferred) :
    Accounts sh sh' t t' e := by
  refine ⟨hwellFormed, ?_, 0, ?_, fun n hn => by rw [hsame, hn, Nat.add_zero]⟩
  · rw [hpending, hread, hwritten, hwritten]
  · rw [huncounted, hwritten, hwritten]

variable {F : Type} [ScoreArith F] {D : Deployment}

/-- Every step accounts for what it reads, writes and counts, unless a write fails or a chunk is
cut. -/
theorem Handler.accounts {sh sh' : ProxyState} {t t' : Handler} {e : Event}
    (hwellFormed : t.pc.WellFormed) (hwrites : ∀ d text, e ≠ .io d (.writeError text))
    (hcut : e = .step → t.pc.pending = 0) (h : t.step F D sh e = some (sh', t')) :
    Accounts sh sh' t t' e := by
  have hstep := t.step_inv h
  generalize hpc : t.pc = pc at hstep
  cases hstep with
  | copy hrace hcopy =>
      next upstream since bytes copy d e c =>
      rw [hpc] at hwellFormed
      obtain ⟨hc, hread, hcounted⟩ := (hwellFormed d).step hcopy fun text he =>
        hwrites d text (by rw [he])
      have hpending := sum_update CopyStream.pending copy d c
      have huncounted := sum_update CopyStream.uncounted copy d c
      have hwritten : Event.bytesWritten .toUpstream (.io d e) +
          Event.bytesWritten .toClient (.io d e) = e.bytesWritten := by
        cases d <;> simp [Event.bytesWritten]
      refine ⟨fun d' => ?_, ?_, bytes, ?_, fun n hn => ?_⟩
      · by_cases hd : d' = d
        · subst hd
          rwa [Function.update_self]
        · rw [Function.update_of_ne hd]
          exact hwellFormed d'
      · simp only [hpc, HandlerPc.pending, hwritten, Event.bytesRead]
        omega
      · simp only [hpc, HandlerPc.uncounted, hwritten]
        omega
      · simp only [ProxyState.countBytes, ProxyState.count, Shared.count, hn, wrappingAdd]
        omega
  | raced hresult =>
      have hpending := hcut rfl
      have huncounted := HandlerPc.uncounted_eq_zero hwellFormed hpending
      exact .quiet trivial hpending.symm huncounted.symm rfl (fun _ => rfl) rfl
  | get hget =>
      obtain ⟨hits, misses, hmetrics⟩ := metrics_of_get hget
      have hidle : ∀ u get, (HandlerPc.afterGet u get).WellFormed ∧
          (HandlerPc.afterGet u get).pending = 0 ∧ (HandlerPc.afterGet u get).uncounted = 0 := by
        intro u get
        unfold HandlerPc.afterGet
        split <;> exact ⟨trivial, rfl, rfl⟩
      obtain ⟨hafter, hpending, huncounted⟩ := hidle _ _
      refine .quiet hafter ?_ ?_ rfl (fun _ => rfl) (by simp [hmetrics])
      · rw [hpc]
        exact hpending
      · rw [hpc]
        exact huncounted
  | decActive =>
      refine .quiet trivial (by rw [hpc]; rfl) (by rw [hpc]; rfl) rfl (fun _ => rfl) ?_
      rw [decActive_metrics]
  | increment =>
      refine .quiet (fun d => trivial) ?_ ?_ rfl (fun _ => rfl) rfl
      · rw [hpc]
        rfl
      · rw [hpc]
        rfl
  | start | incActive | selected | noUpstream | decrement | success | failure | addDuration |
    countDuration =>
      exact .quiet trivial (by rw [hpc]; rfl) (by rw [hpc]; rfl) rfl (fun _ => rfl) rfl

/-! ## Runs -/

section run

variable {heap : Heap} {routers : ℕ → Router} {es : List (Sched Event)}
  {p : Pool ProxyState Handler}

/-- The bytes written in a run with a last step are those so far and those of that step. -/
theorem bytesWritten_concat (d : Direction) (es : List (Sched Event)) (e : Sched Event) :
    bytesWritten d (es ++ [e]) = bytesWritten d es + ofTask (Event.bytesWritten d) e := by
  simp [bytesWritten]

/-- The bytes read in a run with a last step are those so far and those of that step. -/
theorem bytesRead_concat (es : List (Sched Event)) (e : Sched Event) :
    bytesRead (es ++ [e]) = bytesRead es + ofTask Event.bytesRead e := by
  simp [bytesRead]

/-- What was read is written or still to write, and what was written is counted or still to
count. -/
structure Accounted (p : Pool ProxyState Handler) (es : List (Sched Event)) : Prop where
  wellFormed : ∀ t ∈ p.tasks, t.pc.WellFormed
  read : bytesRead es = (p.tasks.map fun t => t.pc.pending).sum +
    (bytesWritten .toUpstream es + bytesWritten .toClient es)
  counted : ∃ n, bytesWritten .toUpstream es + bytesWritten .toClient es =
      (p.tasks.map fun t => t.pc.uncounted).sum + n ∧
    p.shared.metrics.bytesTransferred = n % 2 ^ 64

/-- A step of a handler keeps the accounts. -/
theorem Accounted.task {i : ℕ} {e : Event} {t t' : Handler} {sh : ProxyState}
    (h : Accounted p es) (ht : p.tasks[i]? = some t) (haccounts : Accounts p.shared sh t t' e) :
    Accounted ⟨sh, p.tasks.set i t'⟩ (es ++ [.task i e]) := by
  obtain ⟨hwellFormed, hread, k, hcounted, htransferred⟩ := haccounts
  obtain ⟨n, hn, hbytes⟩ := h.counted
  have hpending := sum_map_set_append (fun t : Handler => t.pc.pending) ht t' []
  have huncounted := sum_map_set_append (fun t : Handler => t.pc.uncounted) ht t' []
  rw [List.append_nil, List.map_nil, List.sum_nil, Nat.add_zero] at hpending huncounted
  refine ⟨fun u hu => ?_, ?_, n + k, ?_, htransferred n hbytes⟩
  · rcases List.mem_or_eq_of_mem_set hu with hu | rfl
    · exact h.wellFormed u hu
    · exact hwellFormed
  · rw [bytesRead_concat, bytesWritten_concat, bytesWritten_concat, h.read]
    simp only [ofTask]
    omega
  · rw [bytesWritten_concat, bytesWritten_concat]
    simp only [ofTask]
    omega

/-- **The accounts of a run**: unless a write fails or a chunk is cut, no byte is lost or counted
twice. -/
theorem accounts_of_run (hrun : (machine F D).run (initial heap routers) es = some p)
    (hwrites : NoWriteError es)
    (hwhole : (machine F D).Along NotCut (initial heap routers) es) : Accounted p es := by
  refine (machine F D).run_induction (Q := fun es p => NoWriteError es →
    (machine F D).Along NotCut (initial heap routers) es → Accounted p es) ?_ ?_ hrun hwrites hwhole
  · exact fun _ _ => ⟨fun t ht => absurd ht List.not_mem_nil, rfl, 0, rfl, rfl⟩
  · intro es a q q' hq ih hstep hwrites hwhole
    rw [(machine F D).along_concat hq] at hwhole
    have h := ih (fun i d text hmem => hwrites i d text (List.mem_append_left _ hmem)) hwhole.1
    rcases machine_step hstep with ⟨i, e, t, sh, t', rfl, ht, hmove, rfl⟩ | ⟨ns, rfl, rfl⟩ |
      ⟨inst, client, rfl, rfl⟩
    · apply h.task ht
      apply t.accounts (h.wellFormed t (List.mem_of_getElem? ht)) _ _ hmove
      · rintro d text rfl
        exact hwrites i d text (by simp)
      · rintro rfl
        exact hwhole.2 t ht
    · obtain ⟨n, hn, hbytes⟩ := h.counted
      refine ⟨h.wellFormed, ?_, n, ?_, hbytes⟩
      · rw [bytesRead_concat, bytesWritten_concat, bytesWritten_concat, h.read]
        rfl
      · rw [bytesWritten_concat, bytesWritten_concat, ← hn]
        rfl
    · -- the new handler has nothing yet
      obtain ⟨n, hn, hbytes⟩ := h.counted
      refine ⟨fun t ht => ?_, ?_, n, ?_, hbytes⟩
      · rcases List.mem_append.mp ht with ht | ht
        · exact h.wellFormed t ht
        · obtain rfl := List.mem_singleton.mp ht
          trivial
      · rw [bytesRead_concat, bytesWritten_concat, bytesWritten_concat, h.read]
        simp [ofTask, HandlerPc.pending]
      · rw [bytesWritten_concat, bytesWritten_concat]
        simpa [ofTask, HandlerPc.uncounted] using hn

/-- With no chunk being written, everything read is written and counted. -/
theorem Accounted.settled (h : Accounted p es) (hidle : ∀ t ∈ p.tasks, t.pc.pending = 0) :
    bytesRead es = bytesWritten .toUpstream es + bytesWritten .toClient es ∧
      p.shared.metrics.bytesTransferred =
        (bytesWritten .toUpstream es + bytesWritten .toClient es) % 2 ^ 64 := by
  have hpending : (p.tasks.map fun t => t.pc.pending).sum = 0 :=
    List.sum_eq_zero (List.forall_mem_map.mpr hidle)
  have huncounted : (p.tasks.map fun t => t.pc.uncounted).sum = 0 :=
    List.sum_eq_zero (List.forall_mem_map.mpr fun t ht =>
      HandlerPc.uncounted_eq_zero (h.wellFormed t ht) (hidle t ht))
  obtain ⟨n, hn, hbytes⟩ := h.counted
  refine ⟨by rw [h.read, hpending, Nat.zero_add], ?_⟩
  rw [hbytes, hn, huncounted, Nat.zero_add]

/-- What the steps of a handler need: a read gives something, and a write that fails is one of a
chunk. -/
theorem io_cases {sh sh' : ProxyState} {t t' : Handler} {d : Direction} {i : IoEvent}
    (hwellFormed : t.pc.WellFormed) (h : t.step F D sh (.io d i) = some (sh', t')) :
    (∀ n, i = .read n → 0 < n) ∧ ∀ text, i = .writeError text → 0 < t.pc.pending := by
  have hstep := t.step_inv h
  generalize hpc : t.pc = pc at hstep
  cases hstep with
  | copy hrace hcopy =>
      next upstream since bytes copy c =>
      rw [hpc] at hwellFormed
      have hd := hwellFormed d
      have hcases := CopyStream.step_inv hcopy
      generalize hphase : (copy d).phase = phase at hcases
      cases hcases with
      | read hpos =>
          refine ⟨fun n hn => ?_, fun text h => absurd h (by simp)⟩
          obtain rfl := IoEvent.read.inj hn
          exact hpos
      | @writeError rest bytesRead text =>
          refine ⟨fun n h => absurd h (by simp), fun _ _ => ?_⟩
          simp only [CopyStream.WellFormed, hphase] at hd
          have hpos : 0 < (copy d).pending := by
            simp only [CopyStream.pending, hphase]
            exact List.length_pos_of_ne_nil hd.1
          simp only [HandlerPc.pending]
          cases d <;> omega
      | eof | unexpectedEof | readError | wrotePart | wroteRest =>
          exact ⟨fun n h => absurd h (by simp), fun text h => absurd h (by simp)⟩

/-- Whoever read nothing was given no data. -/
theorem noData_of_bytesRead (hrun : (machine F D).run (initial heap routers) es = some p)
    (hwrites : NoWriteError es)
    (hwhole : (machine F D).Along NotCut (initial heap routers) es)
    (hzero : bytesRead es = 0) : NoData es := by
  intro i d n hmem
  obtain ⟨es₁, es₂, rfl⟩ := List.append_of_mem hmem
  obtain ⟨q, hq, hrest⟩ := (machine F D).run_append_eq_some.mp hrun
  obtain ⟨q', hstep, -⟩ := (machine F D).run_cons_eq_some.mp hrest
  have haccounted := accounts_of_run hq
    (fun i d text hmem => hwrites i d text (List.mem_append_left _ hmem)) hwhole.of_append
  rcases machine_step hstep with ⟨j, e, t, sh, t', heq, ht, hmove, -⟩ | ⟨ns, heq, -⟩ |
    ⟨inst, client, heq, -⟩
  · obtain ⟨rfl, rfl⟩ := Sched.task.inj heq
    have hpos := (io_cases (haccounted.wellFormed t (List.mem_of_getElem? ht)) hmove).1 n rfl
    simp only [bytesRead, List.map_append, List.map_cons, List.sum_append, List.sum_cons, ofTask,
      Event.bytesRead, IoEvent.bytesRead] at hzero
    omega
  · exact absurd heq (by simp)
  · exact absurd heq (by simp)

/-- A handler that writes no chunk and is given no data writes no chunk after its step either. -/
theorem idle_of_step {sh sh' : ProxyState} {t t' : Handler} {e : Event}
    (hwellFormed : t.pc.WellFormed) (hpending : t.pc.pending = 0)
    (hdata : ∀ d n, e ≠ .io d (.read n)) (h : t.step F D sh e = some (sh', t')) :
    (∀ d text, e ≠ .io d (.writeError text)) ∧ t'.pc.WellFormed ∧ t'.pc.pending = 0 := by
  have hwrites : ∀ d text, e ≠ .io d (.writeError text) := by
    rintro d text rfl
    have hpos := (io_cases hwellFormed h).2 text rfl
    omega
  have haccounts := t.accounts hwellFormed hwrites (fun _ => hpending) h
  have hread : e.bytesRead = 0 := by
    cases e with
    | io d i =>
        cases i with
        | read n => exact absurd rfl (hdata d n)
        | _ => rfl
    | _ => rfl
  have hsum := haccounts.read
  exact ⟨hwrites, haccounts.wellFormed, by omega⟩

/-- Without data no chunk is ever written, or cut. -/
theorem settled_of_noData (hrun : (machine F D).run (initial heap routers) es = some p)
    (hdata : NoData es) :
    NoWriteError es ∧ (machine F D).Along NotCut (initial heap routers) es ∧
      ∀ t ∈ p.tasks, t.pc.WellFormed ∧ t.pc.pending = 0 := by
  refine (machine F D).run_induction (Q := fun es p => NoData es → NoWriteError es ∧
    (machine F D).Along NotCut (initial heap routers) es ∧
      ∀ t ∈ p.tasks, t.pc.WellFormed ∧ t.pc.pending = 0) ?_ ?_ hrun hdata
  · exact fun _ => ⟨fun i d text h => absurd h (by simp), trivial,
      fun t h => absurd h List.not_mem_nil⟩
  · intro es a q q' hq ih hstep hdata
    rw [(machine F D).along_concat hq]
    obtain ⟨hwrites, hwhole, hidle⟩ := ih fun i d n h => hdata i d n (List.mem_append_left _ h)
    have hcut : NotCut q a := by
      cases a with
      | env e => trivial
      | task i e =>
          cases e with
          | step => exact fun t ht => (hidle t (List.mem_of_getElem? ht)).2
          | _ => trivial
    rcases machine_step hstep with ⟨i, e, t, sh, t', rfl, ht, hmove, rfl⟩ | ⟨ns, rfl, rfl⟩ |
      ⟨inst, client, rfl, rfl⟩
    · obtain ⟨hwellFormed, hpending⟩ := hidle t (List.mem_of_getElem? ht)
      have hread : ∀ d n, e ≠ .io d (.read n) := by
        rintro d n rfl
        exact hdata i d n (by simp)
      obtain ⟨hwrite, hidle'⟩ := idle_of_step hwellFormed hpending hread hmove
      refine ⟨fun j d text h => ?_, ⟨hwhole, hcut⟩, fun u hu => ?_⟩
      · rcases List.mem_append.mp h with h | h
        · exact hwrites j d text h
        · exact hwrite d text (Sched.task.inj (List.mem_singleton.mp h)).2.symm
      · rcases List.mem_or_eq_of_mem_set hu with hu | rfl
        · exact hidle u hu
        · exact hidle'
    · refine ⟨fun j d text h => hwrites j d text (by simpa using h), ⟨hwhole, hcut⟩, hidle⟩
    · refine ⟨fun j d text h => hwrites j d text (by simpa using h), ⟨hwhole, hcut⟩, fun u hu => ?_⟩
      rcases List.mem_append.mp hu with hu | hu
      · exact hidle u hu
      · obtain rfl := List.mem_singleton.mp hu
        exact ⟨trivial, rfl⟩

/-- Without data nothing is read. -/
theorem bytesRead_of_noData (hdata : NoData es) : bytesRead es = 0 := by
  refine List.sum_eq_zero (List.forall_mem_map.mpr fun a ha => ?_)
  cases a with
  | env e => rfl
  | task i e =>
      cases e with
      | io d i' =>
          cases i' with
          | read n => exact absurd ha (hdata i d n)
          | _ => rfl
      | _ => rfl

/-- **When the reported bytes are right.** In a run in which no write fails and no chunk is cut,
whenever no chunk is being written, the bytes sent and the bytes received that `get_metrics` gives
are those written to the upstreams and those written to the clients if and only if no read has given
any data; without data they are right in every state. -/
theorem bytes_reported_iff (F : Type) [ScoreArith F] (D : Deployment) (heap : Heap)
    (routers : ℕ → Router) (es : List (Sched Event)) (p : Pool ProxyState Handler)
    (hrun : (machine F D).run (initial heap routers) es = some p) :
    (NoData es → BytesReported F p es) ∧
      (NoWriteError es → (machine F D).Along NotCut (initial heap routers) es →
        (∀ t ∈ p.tasks, t.pc.pending = 0) → (BytesReported F p es ↔ NoData es)) := by
  have hsent : (p.shared.metrics.getMetrics F).bytesSent = p.shared.metrics.bytesTransferred := rfl
  have hreceived : (p.shared.metrics.getMetrics F).bytesReceived =
      p.shared.metrics.bytesTransferred := rfl
  have hright : NoData es → BytesReported F p es := by
    intro hdata
    obtain ⟨hwrites, hwhole, hidle⟩ := settled_of_noData hrun hdata
    obtain ⟨hread, hbytes⟩ := (accounts_of_run hrun hwrites hwhole).settled fun t ht =>
      (hidle t ht).2
    have hzero := bytesRead_of_noData hdata
    refine ⟨?_, ?_, ?_⟩ <;> omega
  refine ⟨hright, fun hwrites hwhole hidle => ⟨fun h => ?_, hright⟩⟩
  obtain ⟨hread, hbytes⟩ := (accounts_of_run hrun hwrites hwhole).settled hidle
  have hup := h.sent
  have hdown := h.received
  -- each of the two numbers is the sum of both
  exact noData_of_bytesRead hrun hwrites hwhole (by omega)

end run

/-! ## Three bytes in two directions -/

/-- The client closes without having sent anything. -/
def closesAtOnce : List (Sched Event) :=
  untilSelected 0 ++ untilStreaming 0 ++ [.task 0 (.io .toUpstream .eof), .task 0 .step]

/-- Nothing is reported of a connection without data. -/
theorem bytes_reported_iff_closesAtOnce :
    ∃ p, (machine ℚ exampleDeployment).run (initial exampleUpstreams.2 exampleRouters)
        closesAtOnce = some p ∧ BytesReported ℚ p closesAtOnce := by
  obtain ⟨p, hp⟩ : ∃ p, (machine ℚ exampleDeployment).run
      (initial exampleUpstreams.2 exampleRouters) closesAtOnce = some p := ⟨_, rfl⟩
  refine ⟨p, hp, (bytes_reported_iff ℚ exampleDeployment _ _ _ p hp).1 ?_⟩
  intro i d n h
  simp [closesAtOnce, untilSelected, untilStreaming] at h

/-- The client sends one byte and the upstream two. -/
def relaysBothWays : List (Sched Event) :=
  untilSelected 0 ++ (untilStreaming 0).take 4 ++
    [.task 0 (.streamStart fun | .toUpstream => [1] | .toClient => [2, 3]),
      .task 0 (.io .toUpstream (.read 1)), .task 0 (.io .toUpstream (.wrote 1)),
      .task 0 (.io .toClient (.read 2)), .task 0 (.io .toClient (.wrote 2)),
      .task 0 (.io .toUpstream .eof)]

/-- One byte was sent and two were received, and `get_metrics` gives three and three. -/
theorem bytes_reported_twice :
    ∃ p, (machine ℚ exampleDeployment).run (initial exampleUpstreams.2 exampleRouters)
        relaysBothWays = some p ∧
      (∀ i d, ∀ e, .task i (.io d e) ∈ relaysBothWays → e.fails = false) ∧
      (machine ℚ exampleDeployment).Along NotCut (initial exampleUpstreams.2 exampleRouters)
        relaysBothWays ∧
      (∀ t ∈ p.tasks, t.pc.pending = 0) ∧
      bytesWritten .toUpstream relaysBothWays = 1 ∧ bytesWritten .toClient relaysBothWays = 2 ∧
      (p.shared.metrics.getMetrics ℚ).bytesSent = 3 ∧
      (p.shared.metrics.getMetrics ℚ).bytesReceived = 3 ∧
      ¬ BytesReported ℚ p relaysBothWays := by
  obtain ⟨p, hp, hidle, hsent, hreceived⟩ : ∃ p, (machine ℚ exampleDeployment).run
      (initial exampleUpstreams.2 exampleRouters) relaysBothWays = some p ∧
      (p.tasks.all fun t => t.pc.pending == 0) = true ∧
      (p.shared.metrics.getMetrics ℚ).bytesSent = 3 ∧
      (p.shared.metrics.getMetrics ℚ).bytesReceived = 3 := ⟨_, rfl, rfl, rfl, rfl⟩
  refine ⟨p, hp, ?_, ?_, fun t ht => by simpa using List.all_eq_true.mp hidle t ht, rfl, rfl,
    hsent, hreceived, fun h => ?_⟩
  · intro i d e h
    have hio : e = .read 1 ∨ e = .wrote 1 ∨ e = .read 2 ∨ e = .wrote 2 ∨ e = .eof := by
      simp [relaysBothWays, untilSelected, untilStreaming] at h
      tauto
    rcases hio with rfl | rfl | rfl | rfl | rfl
    all_goals rfl
  · -- a chunk is in flight in two states only, and what follows there is its write
    have hidle : ∀ n < 14, n ≠ 10 → n ≠ 12 → (((machine ℚ exampleDeployment).run
        (initial exampleUpstreams.2 exampleRouters) (relaysBothWays.take n)).all fun q =>
          q.tasks.all fun t => t.pc.pending == 0) = true := by decide +kernel
    apply (machine ℚ exampleDeployment).along_of_getElem
    intro n e q he hq
    by_cases hsecond : n = 12
    · subst hsecond
      obtain rfl := Option.some.inj he
      trivial
    by_cases hfirst : n = 10
    · subst hfirst
      obtain rfl := Option.some.inj he
      trivial
    have hn := hidle n (List.getElem?_eq_some_iff.mp he).1 hfirst hsecond
    rw [hq] at hn
    unfold NotCut
    split
    · intro t ht
      simpa using List.all_eq_true.mp hn t (List.mem_of_getElem? ht)
    · trivial
  · have := h.sent
    rw [hsent] at this
    exact absurd this (by decide)

end Connection

end HarbrRouter.Proxy.Tcp
