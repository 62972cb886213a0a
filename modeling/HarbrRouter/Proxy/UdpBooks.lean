import HarbrRouter.Counter
import HarbrRouter.Proxy.UdpIsolation

/-!
# The books of the UDP proxy

`proxy/udp.rs` keeps each number twice: what a session has sent and received in the session, and
what all of them have in the metrics of the proxy; and a handler counts its datagram when it starts
and forwards it when it ends. The two sides are written by any number of handlers and listeners, a
session goes on counting after its entry is gone from the map, and all counters are words.

**Theorem** (`datagrams_booked`): in every reachable state both sides agree, modulo `2 ^ 64`.

For the bytes: what one session counts, the total of all sessions there ever were counts
(`sessionTotal_modify_add`), and the proxy in the same step (`TaskStep.bytes`), so the two stay
equal (`bytes_of_run`). For the datagrams: a handler forwards its datagram in the one step in which
it ends with `Ok` (`Task.forwards_of_step`), so those forwarded for a client are its handlers that
have ended so, step by step (`counts_of_step`).
-/

set_option autoImplicit false

namespace HarbrRouter.Proxy.Udp

open Transition TaskPool PointRing Routing

/-! ## The totals of the sessions -/

section totals

variable (π : UdpSession → ℕ)

/-- What the sessions have counted together, as far as a word can hold it. -/
def sessionTotal (objects : List UdpSession) : ℕ := (objects.map π).sum % 2 ^ 64

variable {π} {f : UdpSession → UdpSession} {objects : List UdpSession} {sid n : ℕ}

/-- A change of a session that its count does not show. -/
theorem sessionTotal_modify (hf : ∀ s, π (f s) = π s) (objects : List UdpSession) (sid : ℕ) :
    sessionTotal π (objects.modify sid f) = sessionTotal π objects := by
  have hmap : (objects.modify sid f).map π = objects.map π := by
    induction objects generalizing sid with
    | nil => rw [List.modify_nil]
    | cons s objects ih =>
        cases sid with
        | zero => rw [List.modify_zero_cons, List.map_cons, List.map_cons, hf]
        | succ sid => rw [List.modify_succ_cons, List.map_cons, List.map_cons, ih]
  rw [sessionTotal, hmap, sessionTotal]

/-- What one session counts, the total counts. -/
theorem sessionTotal_modify_add (hf : ∀ s, π (f s) = wrappingAdd (π s) n)
    (hlt : sid < objects.length) :
    sessionTotal π (objects.modify sid f) = wrappingAdd (sessionTotal π objects) n := by
  unfold sessionTotal wrappingAdd
  rw [Nat.mod_add_mod]
  induction objects generalizing sid with
  | nil => exact absurd hlt (Nat.not_lt_zero sid)
  | cons s objects ih =>
      cases sid with
      | zero =>
          rw [List.modify_zero_cons, List.map_cons, List.map_cons, List.sum_cons, List.sum_cons, hf,
            wrappingAdd, Nat.mod_add_mod, Nat.add_right_comm]
      | succ sid =>
          have hrest := ih (Nat.lt_of_succ_lt_succ hlt)
          rw [List.modify_succ_cons, List.map_cons, List.map_cons, List.sum_cons, List.sum_cons,
            Nat.add_assoc, Nat.add_mod, hrest, ← Nat.add_mod]

/-- A new session has counted nothing. -/
theorem sessionTotal_append {s : UdpSession} (hs : π s = 0) (objects : List UdpSession) :
    sessionTotal π (objects ++ [s]) = sessionTotal π objects := by
  rw [sessionTotal, List.map_append, List.sum_append, List.map_singleton, List.sum_singleton, hs,
    Nat.add_zero, sessionTotal]

end totals

/-! ## Bytes -/

/-- The byte counters of the proxy are the totals of the sessions. -/
structure BytesAgree (sh : Shared) : Prop where
  sent : sh.metrics.bytesSent = sessionTotal UdpSession.bytesSent sh.objects
  received : sh.metrics.bytesReceived = sessionTotal UdpSession.bytesReceived sh.objects

/-- The session that a listener works for, or is going to. -/
def Task.listensFor : Task → Option ℕ
  | .handler _ _ _ (.startListener sid) | .listener _ _ sid _ => some sid
  | _ => none

/-- The session that a listener works for exists. -/
def ListensRight (sh : Shared) (t : Task) : Prop :=
  ∀ sid, t.listensFor = some sid → sid < sh.objects.length

section step

variable {F : Type} [ScoreArith F] {D : Deployment} {tasks new : List Task} {sh sh' : Shared}
  {e : Event} {t t' : Task}

/-- A task that listens for no session listens for none that does not exist. -/
theorem ListensRight.of_none (h : t.listensFor = none) : ListensRight sh t := by
  intro sid hsid
  rw [h] at hsid
  exact absurd hsid (by simp)

/-- The byte counters agree when they and the sessions are as before. -/
theorem BytesAgree.congr (h : BytesAgree sh) (hsent : sh'.metrics.bytesSent = sh.metrics.bytesSent)
    (hreceived : sh'.metrics.bytesReceived = sh.metrics.bytesReceived)
    (hobjects : sh'.objects = sh.objects) : BytesAgree sh' := by
  refine ⟨?_, ?_⟩
  · rw [hsent, hobjects]
    exact h.sent
  · rw [hreceived, hobjects]
    exact h.received

/-- A touch counts no bytes. -/
theorem BytesAgree.touch (h : BytesAgree sh) (sid now : ℕ) :
    BytesAgree (sh.modifySession sid fun s => s.touch now) := by
  have hsame : ∀ π : UdpSession → ℕ, (∀ s : UdpSession, π (s.touch now) = π s) →
      sessionTotal π (sh.objects.modify sid fun s => s.touch now) = sessionTotal π sh.objects :=
    fun π hπ => sessionTotal_modify hπ sh.objects sid
  exact ⟨h.sent.trans (hsame _ fun _ => rfl).symm, h.received.trans (hsame _ fun _ => rfl).symm⟩

/-- What a session has sent is counted on both sides. -/
theorem BytesAgree.send (h : BytesAgree sh) {sid : ℕ} (hlt : sid < sh.objects.length)
    (bytes : ℕ) : BytesAgree ((sh.modifySession sid fun s => s.recordBytesSent bytes).count fun m =>
      { m with bytesSent := wrappingAdd m.bytesSent bytes }) := by
  have hreceived : sessionTotal UdpSession.bytesReceived
      (sh.objects.modify sid fun s => s.recordBytesSent bytes) =
        sessionTotal UdpSession.bytesReceived sh.objects :=
    sessionTotal_modify (f := fun s => s.recordBytesSent bytes) (fun _ => rfl) sh.objects sid
  refine ⟨?_, ?_⟩ <;> rw [Shared.count_metrics, Shared.count_objects] <;>
    dsimp only [Shared.modifySession]
  · rw [sessionTotal_modify_add (fun _ => rfl) hlt, h.sent]
  · rw [hreceived, h.received]

/-- What a session has received is counted on both sides. -/
theorem BytesAgree.receive (h : BytesAgree sh) {sid : ℕ} (hlt : sid < sh.objects.length)
    (bytes : ℕ) :
    BytesAgree ((sh.modifySession sid fun s => s.recordBytesReceived bytes).count fun m =>
      { m with bytesReceived := wrappingAdd m.bytesReceived bytes }) := by
  have hsent : sessionTotal UdpSession.bytesSent
      (sh.objects.modify sid fun s => s.recordBytesReceived bytes) =
        sessionTotal UdpSession.bytesSent sh.objects :=
    sessionTotal_modify (f := fun s => s.recordBytesReceived bytes) (fun _ => rfl) sh.objects sid
  refine ⟨?_, ?_⟩ <;> rw [Shared.count_metrics, Shared.count_objects] <;>
    dsimp only [Shared.modifySession]
  · rw [hsent, h.sent]
  · rw [sessionTotal_modify_add (fun _ => rfl) hlt, h.received]

/-- A new session has sent and received nothing. -/
theorem BytesAgree.connect (h : BytesAgree sh) (upstream now inst : ℕ) :
    BytesAgree { sh with objects := sh.objects ++ [.new upstream now inst] } := by
  refine ⟨?_, ?_⟩
  · exact h.sent.trans (sessionTotal_append rfl sh.objects).symm
  · exact h.received.trans (sessionTotal_append rfl sh.objects).symm

/-- What a step keeps: the byte counters, and every session. -/
structure KeepsBytes (sh sh' : Shared) (t' : Task) (new : List Task) : Prop where
  agree : BytesAgree sh'
  sessions : sh.objects.length ≤ sh'.objects.length
  right : ListensRight sh' t'
  new : ∀ u ∈ new, ListensRight sh' u

/-- **A step keeps the byte counters and the totals of the sessions equal.** -/
theorem TaskStep.bytes (h : TaskStep F D tasks sh t e sh' t' new) (hagree : BytesAgree sh)
    (hright : ListensRight sh t) : KeepsBytes sh sh' t' new := by
  have hcount : ∀ f : UdpProxyMetrics → UdpProxyMetrics, (∀ m, (f m).bytesSent = m.bytesSent) →
      (∀ m, (f m).bytesReceived = m.bytesReceived) → BytesAgree (sh.count f) := by
    intro f hsent hreceived
    refine hagree.congr ?_ ?_ (sh.count_objects f)
    · rw [Shared.count_metrics, hsent]
    · rw [Shared.count_metrics, hreceived]
  have hquiet : ∀ {sh' : Shared} {t' : Task}, BytesAgree sh' → sh'.objects = sh.objects →
      (∀ sid, t'.listensFor = some sid → t.listensFor = some sid) → KeepsBytes sh sh' t' [] := by
    intro sh' t' hagree' hobjects ht'
    refine ⟨hagree', le_of_eq (congrArg List.length hobjects).symm, fun sid hsid => ?_, by simp⟩
    rw [hobjects]
    exact hright sid (ht' sid hsid)
  cases h with
  | handler h =>
      cases h with
      | start | countExpired | decActive | countCreated | incActive =>
          exact hquiet (hcount _ (fun _ => rfl) fun _ => rfl) (sh.count_objects _)
            (by simp [Task.listensFor])
      | touch =>
          exact ⟨hagree.touch _ _, by simp [Shared.modifySession], .of_none rfl, by simp⟩
      | connected =>
          refine ⟨hagree.connect _ _ _, by simp, fun sid hsid => ?_, by simp⟩
          obtain rfl : sh.objects.length = sid := by simpa [Task.listensFor] using hsid
          simp
      | listen =>
          refine ⟨hagree, le_rfl, .of_none rfl, fun u hu => ?_⟩
          obtain rfl := List.mem_singleton.mp hu
          exact hright
      | forward hs hsh =>
          subst hsh
          rename_i sid bytes s
          have hsend := hagree.send (List.getElem?_eq_some_iff.mp hs).1 bytes
          exact ⟨hsend.congr rfl rfl rfl, by simp [Shared.modifySession], .of_none rfl, by simp⟩
      | _ => exact hquiet (hagree.congr rfl rfl rfl) rfl (by simp [Task.listensFor])
  | listener h =>
      have hlt := hright _ rfl
      cases h with
      | received =>
          refine ⟨hagree.receive hlt _, by simp [Shared.modifySession], ?_, by simp⟩
          intro sid hsid
          obtain rfl : _ = sid := by simpa [Task.listensFor] using hsid
          simpa [Shared.modifySession] using hlt
      | countExpired | decActive =>
          exact hquiet (hcount _ (fun _ => rfl) fun _ => rfl) (sh.count_objects _) fun _ => id
      | touch =>
          refine ⟨hagree.touch _ _, by simp [Shared.modifySession], ?_, by simp⟩
          intro sid hsid
          obtain rfl : _ = sid := by simpa [Task.listensFor] using hsid
          simpa [Shared.modifySession] using hlt
      | _ => exact hquiet (hagree.congr rfl rfl rfl) rfl fun _ => id
  | cleanup h =>
      cases h with
      | countExpired | decActive =>
          exact hquiet (hcount _ (fun _ => rfl) fun _ => rfl) (sh.count_objects _) fun _ => id
      | _ => exact hquiet (hagree.congr rfl rfl rfl) rfl fun _ => id
  | server h =>
      cases h with
      | bound | packet =>
          refine ⟨hagree, le_rfl, .of_none rfl, fun u hu => ?_⟩
          obtain rfl := List.mem_singleton.mp hu
          exact .of_none rfl
      | _ => exact hquiet (hagree.congr rfl rfl rfl) rfl fun _ => id
  | reader h => exact hquiet hagree rfl fun _ => id

/-! ## Datagrams -/

/-- Has the handler counted its datagram? -/
def Task.started : Task → Bool
  | .handler _ _ _ .start => false
  | .handler _ _ _ _ => true
  | _ => false

/-- Is the task a handler of the instance for the client that has ended with `Ok`? -/
def Task.delivered (inst : ℕ) (client : SocketAddr) : Task → Bool
  | .handler i c _ (.finished (.ok ())) => i = inst ∧ c = client
  | _ => false

/-- The datagrams that were forwarded for a client of an instance. -/
def forwardsFor (inst : ℕ) (client : SocketAddr) (sh : Shared) : ℕ :=
  sh.forwarded.countP fun f => f.1 = inst ∧ f.2.1 = client

/-- The packet counter follows whether the task is a handler that has started. -/
def CountsPacket (sh sh' : Shared) (t t' : Task) : Prop :=
  Follows t.started t'.started sh.metrics.packetsTotal sh'.metrics.packetsTotal

/-- A handler counts its datagram when it starts, and no other step does. -/
theorem TaskStep.packets (h : TaskStep F D tasks sh t e sh' t' new) : CountsPacket sh sh' t t' := by
  have hcount : ∀ {t t' : Task} (f : UdpProxyMetrics → UdpProxyMetrics),
      t'.started = t.started → (∀ m, (f m).packetsTotal = m.packetsTotal) →
      CountsPacket sh (sh.count f) t t' := by
    intro t t' f hsame hf
    rw [CountsPacket, Shared.count_metrics, hf]
    exact .same hsame _
  cases h with
  | handler h =>
      cases h with
      | start =>
          rw [CountsPacket, Shared.countPacket, Shared.count_metrics]
          exact .enter rfl rfl _
      | countExpired | decActive | countCreated | incActive => exact hcount _ rfl fun _ => rfl
      | forward hs hsh =>
          subst hsh
          exact .same rfl _
      | _ => exact .same rfl _
  | listener h =>
      cases h with
      | countExpired | decActive => exact hcount _ rfl fun _ => rfl
      | _ => exact .same rfl _
  | cleanup h =>
      cases h with
      | countExpired | decActive => exact hcount _ rfl fun _ => rfl
      | _ => exact .same rfl _
  | server h => cases h <;> exact .same rfl _
  | reader h => exact .same rfl _

/-- Who a step starts has neither started nor forwarded anything. -/
theorem TaskStep.new_task (h : TaskStep F D tasks sh t e sh' t' new) {u : Task} (hu : u ∈ new) :
    u.started = false ∧ ∀ inst client, u.delivered inst client = false := by
  cases h with
  | handler h =>
      cases h with
      | listen =>
          obtain rfl := List.mem_singleton.mp hu
          exact ⟨rfl, fun _ _ => rfl⟩
      | _ => exact absurd hu List.not_mem_nil
  | server h =>
      cases h with
      | bound | packet =>
          obtain rfl := List.mem_singleton.mp hu
          exact ⟨rfl, fun _ _ => rfl⟩
      | _ => exact absurd hu List.not_mem_nil
  | listener | cleanup | reader => exact absurd hu List.not_mem_nil

/-- A handler that ends with `Ok` has just forwarded its datagram. -/
theorem HandlerPc.forwarded_of_ok {inst : ℕ} {client : SocketAddr} {pc : HandlerPc}
    (h : pc.step F D tasks sh inst client e = some (sh', .finished (.ok ()), new)) :
    ∃ u, sh'.forwarded = sh.forwarded ++ [(inst, client, u)] := by
  unfold HandlerPc.step at h
  split at h
  case h_17 =>
    obtain ⟨s, -, heq⟩ := Option.map_eq_some_iff.mp h
    obtain ⟨rfl, -⟩ := Prod.mk.inj heq
    exact ⟨s.upstream, rfl⟩
  -- no other step ends with `Ok`
  case h_2 | h_3 | h_4 | h_13 => split at h <;> exact absurd h (by simp)
  case h_7 =>
    split at h
    dsimp only at h
    split at h <;> exact absurd h (by simp)
  all_goals exact absurd h (by simp)

/-- A handler that does not end with `Ok` forwards nothing. -/
theorem HandlerStep.forwarded {inst : ℕ} {client : SocketAddr} {pc pc' : HandlerPc}
    (h : HandlerStep F D tasks sh inst client pc e sh' pc' new) (hend : pc' ≠ .finished (.ok ())) :
    sh'.forwarded = sh.forwarded := by
  have hcount : ∀ f : UdpProxyMetrics → UdpProxyMetrics, (sh.count f).forwarded = sh.forwarded := by
    intro f
    cases sh
    rfl
  cases h with
  | start | countExpired | decActive | countCreated | incActive => exact hcount _
  | forward => exact absurd rfl hend
  | _ => rfl

/-- A task that is no handler forwards nothing. -/
theorem TaskStep.forwarded (h : TaskStep F D tasks sh t e sh' t' new)
    (hother : ∀ inst client data pc, t ≠ .handler inst client data pc) :
    sh'.forwarded = sh.forwarded := by
  have hcount : ∀ f : UdpProxyMetrics → UdpProxyMetrics, (sh.count f).forwarded = sh.forwarded := by
    intro f
    cases sh
    rfl
  cases h with
  | handler => exact absurd rfl (hother _ _ _ _)
  | listener h =>
      cases h with
      | countExpired | decActive => exact hcount _
      | _ => rfl
  | cleanup h =>
      cases h with
      | countExpired | decActive => exact hcount _
      | _ => rfl
  | server h => cases h <;> rfl
  | reader h => rfl

/-- Who has not ended with `Ok` has delivered nothing. -/
theorem delivered_of_ne {i inst : ℕ} {c client : SocketAddr} {data : List UInt8} {pc : HandlerPc}
    (h : pc ≠ .finished (.ok ())) : (Task.handler i c data pc).delivered inst client = false := by
  unfold Task.delivered
  split
  · next heq =>
      cases heq
      exact absurd rfl h
  · rfl

/-- **A handler forwards its datagram in the one step in which it ends with `Ok`.** -/
theorem Task.forwards_of_step (h : t.step F D tasks sh e = some (sh', t', new)) (inst : ℕ)
    (client : SocketAddr) :
    forwardsFor inst client sh' + (if t.delivered inst client then 1 else 0) =
      forwardsFor inst client sh + (if t'.delivered inst client then 1 else 0) := by
  have htask := Task.step_inv h
  cases t with
  | handler i c data pc =>
      obtain ⟨⟨sh₁, pc', new₁⟩, hpc, heq⟩ := Option.map_eq_some_iff.mp h
      obtain ⟨rfl, rfl, rfl⟩ : _ ∧ _ ∧ _ := by simpa using heq
      have hbefore : pc ≠ .finished (.ok ()) := by
        rintro rfl
        exact absurd hpc (by simp [HandlerPc.step])
      rw [delivered_of_ne hbefore]
      by_cases hend : pc' = .finished (.ok ())
      · subst hend
        obtain ⟨u, hu⟩ := HandlerPc.forwarded_of_ok hpc
        rw [forwardsFor, hu, List.countP_append, List.countP_singleton, forwardsFor]
        rfl
      · rw [delivered_of_ne hend, forwardsFor, (HandlerPc.step_inv hpc).forwarded hend, forwardsFor]
  | listener | cleanup | server | reader =>
      obtain ⟨r, -, heq⟩ := Option.map_eq_some_iff.mp h
      obtain ⟨-, rfl, -⟩ : _ ∧ _ ∧ _ := by simpa using heq
      rw [forwardsFor, htask.forwarded (by simp), forwardsFor]
      rfl

end step

/-! ## Runs -/

variable {F : Type} [ScoreArith F] {D : Deployment} {heap : Heap} {routers : ℕ → Router}
  {es : List (Sched Event)} {p : Pool Shared Task}

/-- **The byte counters of the proxy are the totals of its sessions**, of those in the map and of
those that are gone. -/
theorem bytes_of_run (hrun : (machine F D).run (initial heap routers) es = some p) :
    BytesAgree p.shared := by
  have hinv := (system F D).run_owickiGries (P := fun _ _ => True) (I := BytesAgree)
    (J := ListensRight) ?_ ?_ ⟨rfl, rfl⟩ (by simp [initial]) ?_ hrun
  · exact hinv.1
  · intro q i e t sh t' new hI hJ _ ht hact
    have hkeeps := (Task.step_inv hact).bytes hI (hJ t (List.mem_of_getElem? ht))
    exact ⟨hkeeps.agree, hkeeps.right, hkeeps.new, fun u _ hu sid hsid =>
      (hu sid hsid).trans_le hkeeps.sessions⟩
  · intro q e sh new hI hJ _ henv
    rcases env_cases henv with ⟨ns, -, rfl, rfl⟩ | ⟨inst, -, rfl, rfl⟩ | ⟨-, rfl, rfl⟩
    · exact ⟨hI.congr rfl rfl rfl, by simp, fun u _ hu => hu⟩
    · refine ⟨hI, fun u hu => ?_, fun u _ hu => hu⟩
      obtain rfl := List.mem_singleton.mp hu
      exact .of_none rfl
    · refine ⟨hI, fun u hu => ?_, fun u _ hu => hu⟩
      obtain rfl := List.mem_singleton.mp hu
      exact .of_none rfl
  · exact (machine F D).along_of_take fun _ _ _ _ _ => trivial

/-- Each step keeps the number of forwards and of started handlers right. -/
theorem counts_of_step {p p' : Pool Shared Task} {a : Sched Event} {inst : ℕ} {client : SocketAddr}
    (hstep : (machine F D).step p a = some p')
    (hforwards : forwardsFor inst client p.shared = p.tasks.countP (Task.delivered inst client))
    (hpackets : p.shared.metrics.packetsTotal = (0 + p.tasks.countP Task.started) % 2 ^ 64) :
    forwardsFor inst client p'.shared = p'.tasks.countP (Task.delivered inst client) ∧
      p'.shared.metrics.packetsTotal = (0 + p'.tasks.countP Task.started) % 2 ^ 64 := by
  rcases (system F D).step_cases hstep with ⟨i, e, t, sh, t', new, rfl, ht, hact, rfl⟩ |
    ⟨e, sh, new, rfl, henv, rfl⟩
  · have htask := Task.step_inv hact
    have hnew : new.countP (Task.delivered inst client) = 0 ∧ new.countP Task.started = 0 := by
      refine ⟨List.countP_eq_zero.mpr fun u hu => ?_, List.countP_eq_zero.mpr fun u hu => ?_⟩
      · rw [(htask.new_task hu).2]
        exact Bool.false_ne_true
      · rw [(htask.new_task hu).1]
        exact Bool.false_ne_true
    refine ⟨?_, ?_⟩
    · have hstep := Task.forwards_of_step hact inst client
      have htasks := countP_set_append (Task.delivered inst client) ht t' new
      dsimp only
      omega
    · have hfollows := Follows.countP_mod htask.packets ht hpackets
      rw [List.countP_append, hnew.2, Nat.add_zero]
      exact hfollows
  · have hnew : new.countP (Task.delivered inst client) = 0 ∧ new.countP Task.started = 0 ∧
        forwardsFor inst client sh = forwardsFor inst client p.shared ∧
        sh.metrics = p.shared.metrics := by
      rcases env_cases henv with ⟨ns, -, rfl, rfl⟩ | ⟨inst, -, rfl, rfl⟩ | ⟨-, rfl, rfl⟩
      · exact ⟨rfl, rfl, rfl, rfl⟩
      · exact ⟨rfl, rfl, rfl, rfl⟩
      · exact ⟨rfl, rfl, rfl, rfl⟩
    obtain ⟨hdelivered, hstarted, hsame, hmetrics⟩ := hnew
    dsimp only
    rw [List.countP_append, List.countP_append, hdelivered, hstarted, hsame, hmetrics]
    exact ⟨hforwards, hpackets⟩

/-- **No datagram is forwarded twice, or counted on one side only.** In every state that any
interleaving of handlers, listeners, cleanup rounds, shutdowns and metric reads reaches: the
datagrams that were forwarded for a client of an instance are as many as its handlers that have
ended with `Ok`; the packet counter is the number of handlers that have started; and the byte
counters are the totals of all sessions that were ever opened, counters being words. -/
theorem datagrams_booked (hrun : (machine F D).run (initial heap routers) es = some p) :
    (∀ inst client, forwardsFor inst client p.shared =
        p.tasks.countP (Task.delivered inst client)) ∧
      p.shared.metrics.packetsTotal = p.tasks.countP Task.started % 2 ^ 64 ∧
      p.shared.metrics.bytesSent = sessionTotal UdpSession.bytesSent p.shared.objects ∧
      p.shared.metrics.bytesReceived = sessionTotal UdpSession.bytesReceived p.shared.objects := by
  have hcounts : ∀ inst client, forwardsFor inst client p.shared =
        p.tasks.countP (Task.delivered inst client) ∧
      p.shared.metrics.packetsTotal = (0 + p.tasks.countP Task.started) % 2 ^ 64 := by
    intro inst client
    exact (machine F D).run_preserves (I := fun q => forwardsFor inst client q.shared =
        q.tasks.countP (Task.delivered inst client) ∧
      q.shared.metrics.packetsTotal = (0 + q.tasks.countP Task.started) % 2 ^ 64)
      (fun q a q' hq hstep => counts_of_step hstep hq.1 hq.2) ⟨rfl, rfl⟩ hrun
  have hbytes := bytes_of_run hrun
  refine ⟨fun inst client => (hcounts inst client).1, ?_, hbytes.sent, hbytes.received⟩
  have hpackets := (hcounts 0 exampleClient).2
  rwa [Nat.zero_add] at hpackets

/-- The first client's upstream answers with 7 bytes. -/
def oneReply : List (Sched Event) := twoClients ++ [.task 5 (.received 7)]

/-- With a datagram forwarded at each instance and a reply to one of them, both sides agree. -/
theorem datagrams_booked_oneReply :
    ∃ p, (machine ℚ exampleDeployment).run (initial exampleHeap exampleRouters) oneReply = some p ∧
      forwardsFor 0 exampleClient p.shared = 1 ∧ p.shared.metrics.packetsTotal = 2 ∧
      p.shared.metrics.bytesReceived = 7 := by
  have hend : ((machine ℚ exampleDeployment).run (initial exampleHeap exampleRouters)
      oneReply).map (fun p => (p.tasks.countP (Task.delivered 0 exampleClient),
        p.tasks.countP Task.started, p.shared.objects.map UdpSession.bytesReceived)) =
      some (1, 2, [7, 0]) := by decide +kernel
  obtain ⟨p, hp, hfacts⟩ := Option.map_eq_some_iff.mp hend
  obtain ⟨hdelivered, hstarted, hreceived⟩ : _ ∧ _ ∧ _ := by simpa using hfacts
  obtain ⟨hforwards, hpackets, -, hbytes⟩ := datagrams_booked hp
  refine ⟨p, hp, ?_, ?_, ?_⟩
  · rw [hforwards, hdelivered]
  · rw [hpackets, hstarted]
    rfl
  · rw [hbytes, sessionTotal, hreceived]
    rfl

end HarbrRouter.Proxy.Udp
