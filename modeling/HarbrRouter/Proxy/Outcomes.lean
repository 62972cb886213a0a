import HarbrRouter.Proxy.Books
import HarbrRouter.Proxy.HttpCounters
import HarbrRouter.Proxy.TcpConnection
import HarbrRouter.Proxy.Udp

/-!
# The outcomes that the three proxies record

`proxy/http.rs`, `proxy/tcp.rs` and `proxy/udp.rs` side by side, over the same upstreams: each
handler is in a phase, each of its steps is a move of the books, and so the books of every upstream
are kept in every run.

**Theorem** (`outcomes_accounted_iff`): with all handlers finished, the statistics of an upstream
account for all that it was chosen for exactly when no step left an outcome unrecorded.

The steps of each proxy are moves (`http_moves`, `tcp_moves`, `udp_moves`), so the three together
keep the books (`keepsBooks`): what was chosen is recorded, unrecorded or on its way with some task,
and at rest it is one of the first two. Which steps leave a mark of the second kind is read off the
program points (`http_abandons_iff`, `tcp_abandons_iff`, `udp_forgets_iff`).
-/

set_option autoImplicit false

namespace HarbrRouter.Proxy.Outcomes

open Transition TaskPool PointRing Routing

/-! ## HTTP -/

/-- The phase of a handler of a request. -/
def httpPhase : Http.HandlerPc → Phase
  | .start | .incActive | .selecting => .unrouted
  | .preparing upstream | .countSent upstream _ | .requesting upstream _ _ => .chosen upstream
  | .recording upstream _ (.ok _) => .leaving upstream true
  | .recording upstream _ (.error _) => .leaving upstream false
  | _ => .over

/-- The request can be sent: it has a URI at the upstream, and the configured headers are headers.
-/
def Prepares (D : Http.Deployment) (heap : Heap) (u : UpstreamRef) (t : Http.Handler) : Prop :=
  ∃ uri, Http.buildUpstreamUri D.crate (heap.get u).config t.req.uri = .ok uri ∧
    ∃ req, Http.transformRequest D.crate { t.req with uri } (D.config t.inst).config.http = .ok req

/-- The steps that leave a request unrecorded: it cannot be sent, or its handler is dropped. -/
def HttpAbandons (D : Http.Deployment) (heap : Heap) (u : UpstreamRef) (t : Http.Handler) :
    Http.Event → Prop
  | .step => t.pc = .preparing u ∧ ¬ Prepares D heap u t
  | .drop => ∃ since req, t.pc = .requesting u since req
  | _ => False

section http

variable {F : Type} [ScoreArith F] {D : Http.Deployment} {sh sh' : Http.ProxyState}
  {t t' : Http.Handler} {e : Http.Event}

/-- Every step of an HTTP handler is one of the moves. -/
theorem http_moves (h : t.step F D sh e = some (sh', t')) :
    Moves sh.heap sh'.heap (httpPhase t.pc) (httpPhase t'.pc)
      ((httpPhase t.pc).marks (httpPhase t'.pc)) := by
  have hstep := t.step_inv h
  generalize t.pc = pc at hstep ⊢
  cases hstep with
  | start | incActive | prepared | countSent | countReceived | addDuration | countStatus =>
      exact .quiet (.stay _) rfl
  | decActive =>
      unfold Http.ProxyState.decActive
      exact .quiet (.stay _) (sh.count_heap _)
  | selected => exact .quiet (.choose _) rfl
  | noUpstream => exact .quiet .refuse rfl
  | noUri | notTransformed | drop => exact .quiet (.fail _) rfl
  | responded | requestFailed | timedOut => exact .quiet (.leave _ _) rfl
  | success => exact .success _ _ _
  | failure => exact .failure _ _

/-- A handler loses its upstream exactly at the steps that leave its request unrecorded. -/
theorem http_abandons_iff (h : t.step F D sh e = some (sh', t')) (u : UpstreamRef) :
    (httpPhase t.pc = .chosen u ∧ httpPhase t'.pc = .over) ↔ HttpAbandons D sh.heap u t e := by
  have hstep := t.step_inv h
  unfold HttpAbandons Prepares
  generalize t.pc = pc at hstep ⊢
  cases hstep with
  | noUri huri =>
      simp only [httpPhase, Phase.chosen.injEq, Http.HandlerPc.preparing.injEq, and_true]
      refine ⟨fun hu => ⟨hu, ?_⟩, And.left⟩
      subst hu
      simp [huri]
  | notTransformed huri hreq =>
      simp only [httpPhase, Phase.chosen.injEq, Http.HandlerPc.preparing.injEq, and_true]
      refine ⟨fun hu => ⟨hu, ?_⟩, And.left⟩
      subst hu
      simp [huri, hreq]
  | prepared huri hreq =>
      simp only [httpPhase, reduceCtorEq, and_false, Http.HandlerPc.preparing.injEq, false_iff]
      rintro ⟨rfl, hnot⟩
      exact hnot ⟨_, huri, _, hreq⟩
  | _ => simp [httpPhase]

end http

/-! ## TCP -/

/-- The phase of a handler of a connection. -/
def tcpPhase : Tcp.Connection.HandlerPc → Phase
  | .start | .incActive | .selecting => .unrouted
  | .getting upstream _ | .incrementing upstream _ => .chosen upstream
  | .streaming upstream _ _ _ | .decrementing upstream _ _ => .counted upstream
  | .recording upstream _ (.ok _) => .leaving upstream true
  | .recording upstream _ (.error _) => .leaving upstream false
  | _ => .over

/-- The steps at which a call ends without a stream: the address is no address, the connect fails or
takes too long, or an option cannot be set. -/
def Refused (parse : Tcp.ParseAddr) (upstream : UpstreamConfig) : Tcp.GetPc → Tcp.GetEvent → Prop
  | .countMiss, .step => ∀ addr, Tcp.parseAddress parse upstream.address ≠ .ok addr
  | .connecting _, .connectFailed _ | .connecting _, .timedOut => True
  | .configuring _, .optionFailed _ => True
  | _, _ => False

/-- The steps that leave a connection unrecorded: there is none to the upstream. -/
def TcpAbandons (D : Tcp.Connection.Deployment) (heap : Heap) (u : UpstreamRef)
    (t : Tcp.Connection.Handler) : Tcp.Connection.Event → Prop
  | .get e => ∃ get, t.pc = .getting u get ∧ Refused D.parse (heap.get u).config get e
  | _ => False

section tcp

/-- A call ends without a stream exactly at these steps. -/
theorem refused_iff {parse : Tcp.ParseAddr} {config : TcpProxyConfig} {upstream : UpstreamConfig}
    {sh sh' : Tcp.Shared} {get get' : Tcp.GetPc} {e : Tcp.GetEvent}
    (h : get.step parse config upstream sh e = some (sh', get')) :
    (∃ error, get' = .finished (.error error)) ↔ Refused parse upstream get e := by
  unfold Tcp.GetPc.step at h
  split at h
  · split_ifs at h
    · split at h
      · obtain ⟨-, rfl⟩ : _ ∧ _ := by simpa using h
        simp [Refused]
      · obtain ⟨-, rfl⟩ : _ ∧ _ := by simpa using h
        simp [Refused]
    · obtain ⟨-, rfl⟩ : _ ∧ _ := by simpa using h
      simp [Refused]
  · obtain ⟨-, rfl⟩ : _ ∧ _ := by simpa using h
    simp [Refused]
  · split at h
    · next addr haddr =>
        obtain ⟨-, rfl⟩ : _ ∧ _ := by simpa using h
        simp [Refused, haddr]
    · next error haddr =>
        obtain ⟨-, rfl⟩ : _ ∧ _ := by simpa using h
        simp [Refused, haddr]
  · obtain ⟨-, rfl⟩ : _ ∧ _ := by simpa using h
    simp [Refused]
  · obtain ⟨-, rfl⟩ : _ ∧ _ := by simpa using h
    simp [Refused]
  · obtain ⟨-, rfl⟩ : _ ∧ _ := by simpa using h
    simp [Refused]
  · obtain ⟨-, rfl⟩ : _ ∧ _ := by simpa using h
    simp [Refused]
  · split_ifs at h
    obtain ⟨-, rfl⟩ : _ ∧ _ := by simpa using h
    simp [Refused]
  · exact absurd h (by simp)

variable {F : Type} [ScoreArith F] {D : Tcp.Connection.Deployment}
  {sh sh' : Tcp.Connection.ProxyState} {t t' : Tcp.Connection.Handler} {e : Tcp.Connection.Event}

/-- Counting a connection records nothing. -/
theorem recorded_modifyStats (sh : Tcp.Connection.ProxyState) (u : UpstreamRef)
    {f : UpstreamStats → UpstreamStats} (hf : ∀ s, ∃ n, f s = { s with activeConnections := n })
    (v : UpstreamRef) : recorded (sh.modifyStats u f).heap v = recorded sh.heap v := by
  apply Heap.get_modify_proj fun info =>
    (info.stats.requestsSent, info.stats.responsesReceived, info.stats.failures)
  intro info
  obtain ⟨n, hn⟩ := hf info.stats
  rw [hn]

/-- A call that goes on, or has a stream, keeps the handler with its upstream. -/
theorem tcpPhase_afterGet (upstream : UpstreamRef) (get : Tcp.GetPc) :
    (tcpPhase (.afterGet upstream get) = .over ∧ ∃ error, get = .finished (.error error)) ∨
      (tcpPhase (.afterGet upstream get) = .chosen upstream ∧
        ¬ ∃ error, get = .finished (.error error)) := by
  unfold Tcp.Connection.HandlerPc.afterGet
  split
  · exact Or.inr ⟨rfl, by simp⟩
  · next error => exact Or.inl ⟨rfl, error, rfl⟩
  · next herror => exact Or.inr ⟨rfl, fun ⟨error, h⟩ => herror error h⟩

/-- Every step of a TCP handler is one of the moves. -/
theorem tcp_moves (h : t.step F D sh e = some (sh', t')) :
    Moves sh.heap sh'.heap (tcpPhase t.pc) (tcpPhase t'.pc)
      ((tcpPhase t.pc).marks (tcpPhase t'.pc)) := by
  have hstep := t.step_inv h
  generalize t.pc = pc at hstep ⊢
  cases hstep with
  | start | incActive | copy | raced | countDuration => exact .quiet (.stay _) rfl
  | decActive =>
      unfold Tcp.Connection.ProxyState.decActive
      exact .quiet (.stay _) (sh.count_heap _)
  | addDuration =>
      unfold Tcp.Connection.ProxyState.addDuration
      exact .quiet (.stay _) (sh.count_heap _)
  | selected => exact .quiet (.choose _) rfl
  | noUpstream => exact .quiet .refuse rfl
  | @get upstream get get' e sh₁ =>
      rcases tcpPhase_afterGet upstream get' with ⟨hover, -⟩ | ⟨hchosen, -⟩
      · rw [hover]
        exact .quiet (.fail _) rfl
      · rw [hchosen]
        exact .quiet (.stay _) rfl
  | @increment upstream =>
      refine .pass (.count _) (Tcp.Connection.modifyStats_length _ _ _) ?_
      apply recorded_modifyStats sh upstream
      exact fun s => ⟨_, by rw [UpstreamStats.incrementConnections]⟩
  | @decrement upstream since result =>
      obtain ⟨ok, hok⟩ :
          ∃ ok, tcpPhase (.recording upstream since result) = .leaving upstream ok := by
        cases result with
        | ok => exact ⟨true, rfl⟩
        | error => exact ⟨false, rfl⟩
      rw [hok]
      refine .pass (.uncount _ _) (Tcp.Connection.modifyStats_length _ _ _) ?_
      apply recorded_modifyStats sh upstream
      exact fun s => ⟨_, by rw [UpstreamStats.decrementConnections]⟩
  | success => exact .success _ _ _
  | failure => exact .failure _ _

/-- A handler loses its upstream exactly at the steps that leave its connection unrecorded. -/
theorem tcp_abandons_iff (h : t.step F D sh e = some (sh', t')) (u : UpstreamRef) :
    (tcpPhase t.pc = .chosen u ∧ tcpPhase t'.pc = .over) ↔ TcpAbandons D sh.heap u t e := by
  have hstep := t.step_inv h
  unfold TcpAbandons
  generalize t.pc = pc at hstep ⊢
  cases hstep with
  | @get upstream get get' e sh₁ hget =>
      have hover : tcpPhase (.afterGet upstream get') = .over ↔
          Refused D.parse (sh.heap.get upstream).config get e := by
        rw [← refused_iff hget]
        rcases tcpPhase_afterGet upstream get' with ⟨hover, herror⟩ | ⟨hchosen, herror⟩
        · exact iff_of_true hover herror
        · exact iff_of_false (by simp [hchosen]) herror
      rw [hover]
      simp only [tcpPhase, Phase.chosen.injEq, Tcp.Connection.HandlerPc.getting.injEq]
      constructor
      · rintro ⟨rfl, hrefused⟩
        exact ⟨get, ⟨rfl, rfl⟩, hrefused⟩
      · rintro ⟨get, ⟨rfl, rfl⟩, hrefused⟩
        exact ⟨rfl, hrefused⟩
  | _ => simp [tcpPhase]

end tcp

/-! ## UDP -/

/-- A handler of a datagram has no upstream before the step in which it sends it. -/
def datagramPhase : Udp.HandlerPc → Phase
  | .finished _ => .over
  | _ => .unrouted

/-- The phase of a task of the UDP proxy. -/
def udpPhase : Udp.Task → Phase
  | .handler _ _ _ pc => datagramPhase pc
  | .listener _ _ _ _ | .cleanup _ _ | .server _ _ | .reader _ => .unrouted

/-- The marks of a step: the datagram is handled once there is a result of its send. -/
def datagramMarks (sh : Udp.Shared) : Udp.HandlerPc → Udp.Event → List Mark
  | .forwarding sid, e =>
      match sh.objects[sid]?, e with
      | some s, .sent _ => [.chosen s.upstream, .unrecorded s.upstream true]
      | some s, .sendFailed _ | some s, .timedOut => [.chosen s.upstream, .failed s.upstream]
      | _, _ => []
  | _, _ => []

/-- The marks of a step of a task of the UDP proxy. -/
def udpMarks (sh : Udp.Shared) (t : Udp.Task) (e : Udp.Event) (_ : Udp.Task) : List Mark :=
  match t with
  | .handler _ _ _ pc => datagramMarks sh pc e
  | .listener _ _ _ _ | .cleanup _ _ | .server _ _ | .reader _ => []

/-- The steps that leave a datagram unrecorded: it is sent. -/
def UdpForgets (sh : Udp.Shared) (u : UpstreamRef) (t : Udp.Task) (e : Udp.Event) : Prop :=
  ∃ inst client data sid s bytes, t = .handler inst client data (.forwarding sid) ∧
    e = .sent bytes ∧ sh.objects[sid]? = some s ∧ s.upstream = u

section udp

variable {F : Type} [ScoreArith F] {D : Udp.Deployment} {tasks new : List Udp.Task}
  {sh sh' : Udp.Shared} {t t' : Udp.Task} {e : Udp.Event}

/-- A datagram that cannot be sent is chosen, fails and is recorded in one step. -/
theorem moves_refused (heap : Heap) (u : UpstreamRef) (now : ℕ) :
    Moves heap (heap.modify u fun info => { info with stats := info.stats.recordFailure now })
      .unrouted .over [.chosen u, .failed u] :=
  .seq (.quiet (.choose u) rfl) (.seq (.quiet (.leave u false) rfl) (.failure u now))

/-- Sending a datagram is one of the moves. -/
theorem forwarding_moves {inst sid : ℕ} {client : SocketAddr} {pc' : Udp.HandlerPc}
    (h : (Udp.HandlerPc.forwarding sid).step F D tasks sh inst client e = some (sh', pc', new)) :
    Moves sh.heap sh'.heap .unrouted (datagramPhase pc') (datagramMarks sh (.forwarding sid) e) ∧
      new = [] := by
  cases e with
  | sent bytes =>
      obtain ⟨s, hs, heq⟩ := Option.map_eq_some_iff.mp h
      obtain ⟨rfl, rfl, rfl⟩ : _ ∧ _ ∧ _ := by simpa using heq
      simp only [datagramMarks, hs, datagramPhase]
      exact ⟨.seq (.quiet (.choose s.upstream) rfl) (.forget s.upstream), trivial⟩
  | sendFailed error =>
      obtain ⟨s, hs, heq⟩ := Option.map_eq_some_iff.mp h
      obtain ⟨rfl, rfl, rfl⟩ : _ ∧ _ ∧ _ := by simpa using heq
      simp only [datagramMarks, hs, datagramPhase]
      exact ⟨moves_refused sh.heap s.upstream sh.now, trivial⟩
  | timedOut =>
      obtain ⟨s, hs, heq⟩ := Option.map_eq_some_iff.mp h
      obtain ⟨rfl, rfl, rfl⟩ : _ ∧ _ ∧ _ := by simpa using heq
      simp only [datagramMarks, hs, datagramPhase]
      exact ⟨moves_refused sh.heap s.upstream sh.now, trivial⟩
  | _ => exact absurd h (by simp [Udp.HandlerPc.step])

/-- A step of a handler that forwards nothing leaves the upstreams alone, and the handler on no
upstream. -/
theorem handler_quiet {inst : ℕ} {client : SocketAddr} {pc pc' : Udp.HandlerPc}
    (h : Udp.HandlerStep F D tasks sh inst client pc e sh' pc' new)
    (hpc : ∀ sid, pc ≠ .forwarding sid) :
    sh'.heap = sh.heap ∧ (datagramPhase pc).Passes (datagramPhase pc') ∧
      datagramPhase pc = .unrouted ∧ ∀ v ∈ new, udpPhase v = .unrouted := by
  cases h with
  | start | countExpired | decActive | countCreated | incActive =>
      exact ⟨Udp.Shared.count_heap _ _, .stay _, rfl, by simp⟩
  | found | missing | expired | live | remove | selected | connected | insert | touch =>
      exact ⟨rfl, .stay _, rfl, by simp⟩
  | noUpstream | notConnected => exact ⟨rfl, .refuse, rfl, by simp⟩
  | listen =>
      refine ⟨rfl, .stay _, rfl, fun v hv => ?_⟩
      rw [List.mem_singleton.mp hv]
      rfl
  | forward | notForwarded => exact absurd rfl (hpc _)

/-- A task that keeps the upstreams alone is one of the moves. -/
theorem moves_of_unrouted {heap heap' : Heap} {φ φ' : Phase} (hpass : φ.Passes φ')
    (hheap : heap' = heap) (hφ : φ = .unrouted) (hnone : ∀ u, φ' ≠ .chosen u) :
    Moves heap heap' φ φ' [] := by
  have hmarks : φ.marks φ' = [] := by
    subst hφ
    cases hpass with
    | stay | refuse => rfl
    | choose u => exact absurd rfl (hnone u)
  rw [← hmarks]
  exact .quiet hpass hheap

/-- A datagram has no upstream between two steps. -/
theorem datagramPhase_ne_chosen (pc : Udp.HandlerPc) (u : UpstreamRef) :
    datagramPhase pc ≠ .chosen u := by
  unfold datagramPhase
  split
  · exact Phase.noConfusion
  · exact Phase.noConfusion

/-- Every step of a UDP task is one of the moves, and the tasks that it spawns have no upstream. -/
theorem udp_moves (h : t.step F D tasks sh e = some (sh', t', new)) :
    Moves sh.heap sh'.heap (udpPhase t) (udpPhase t') (udpMarks sh t e t') ∧
      ∀ v ∈ new, udpPhase v = .unrouted := by
  cases t with
  | handler inst client data pc =>
      obtain ⟨⟨sh₁, pc', new₁⟩, hpc, heq⟩ := Option.map_eq_some_iff.mp h
      obtain ⟨rfl, rfl, rfl⟩ : _ ∧ _ ∧ _ := by simpa using heq
      by_cases hforwarding : ∃ sid, pc = .forwarding sid
      · obtain ⟨sid, rfl⟩ := hforwarding
        obtain ⟨hmoves, rfl⟩ := forwarding_moves hpc
        exact ⟨hmoves, by simp⟩
      · have hpc' := fun sid heq => hforwarding ⟨sid, heq⟩
        have hmarks : datagramMarks sh pc e = [] := by
          unfold datagramMarks
          split
          · exact absurd rfl (hpc' _)
          · rfl
        obtain ⟨hheap, hpass, hbefore, hnew⟩ := handler_quiet (Udp.HandlerPc.step_inv hpc) hpc'
        have hmoves := moves_of_unrouted hpass hheap hbefore (datagramPhase_ne_chosen pc')
        rw [← hmarks] at hmoves
        exact ⟨hmoves, hnew⟩
  | listener inst client sid pc =>
      obtain ⟨⟨sh₁, pc'⟩, hpc, heq⟩ := Option.map_eq_some_iff.mp h
      obtain ⟨rfl, rfl, rfl⟩ : _ ∧ _ ∧ _ := by simpa using heq
      have hheap : sh₁.heap = sh.heap := by
        cases Udp.ListenerPc.step_inv hpc with
        | received | countExpired | decActive => exact Udp.Shared.count_heap _ _
        | failed | sent | touch | expired | live | remove => rfl
      exact ⟨.quiet (.stay _) hheap, by simp⟩
  | cleanup inst pc =>
      obtain ⟨⟨sh₁, pc'⟩, hpc, heq⟩ := Option.map_eq_some_iff.mp h
      obtain ⟨rfl, rfl, rfl⟩ : _ ∧ _ ∧ _ := by simpa using heq
      have hheap : sh₁.heap = sh.heap := by
        cases Udp.CleanupPc.step_inv hpc with
        | countExpired | decActive => exact Udp.Shared.count_heap _ _
        | tick | enter | swept | check | leave | remove | gone | removed => rfl
      exact ⟨.quiet (.stay _) hheap, by simp⟩
  | server inst pc =>
      obtain ⟨⟨sh₁, pc', new₁⟩, hpc, heq⟩ := Option.map_eq_some_iff.mp h
      obtain ⟨rfl, rfl, rfl⟩ : _ ∧ _ ∧ _ := by simpa using heq
      obtain ⟨hheap, hnew⟩ : sh₁.heap = sh.heap ∧ ∀ v ∈ new₁, udpPhase v = .unrouted := by
        cases Udp.ServerPc.step_inv hpc with
        | bound | packet =>
            refine ⟨rfl, fun v hv => ?_⟩
            rw [List.mem_singleton.mp hv]
            rfl
        | other | clear => exact ⟨rfl, by simp⟩
      exact ⟨.quiet (.stay _) hheap, hnew⟩
  | reader pc =>
      obtain ⟨pc', hpc, heq⟩ := Option.map_eq_some_iff.mp h
      obtain ⟨rfl, rfl, rfl⟩ : _ ∧ _ ∧ _ := by simpa using heq
      exact ⟨.quiet (.stay _) rfl, by simp⟩

/-- A datagram is left unrecorded exactly where it is sent. -/
theorem udp_forgets_iff (t' : Udp.Task) (u : UpstreamRef) :
    (∃ ok, .unrecorded u ok ∈ udpMarks sh t e t') ↔ UdpForgets sh u t e := by
  constructor
  · rintro ⟨ok, hmem⟩
    unfold udpMarks at hmem
    split at hmem
    · next inst client data pc =>
        unfold datagramMarks at hmem
        split at hmem
        · next sid =>
            split at hmem
            · next s bytes hs =>
                obtain ⟨rfl, -⟩ : u = s.upstream ∧ ok = true := by simpa using hmem
                exact ⟨inst, client, data, sid, s, bytes, rfl, rfl, hs, rfl⟩
            · simp at hmem
            · simp at hmem
            · exact absurd hmem List.not_mem_nil
        · exact absurd hmem List.not_mem_nil
    all_goals exact absurd hmem List.not_mem_nil
  · rintro ⟨inst, client, data, sid, s, bytes, rfl, rfl, hs, rfl⟩
    refine ⟨true, ?_⟩
    simp [udpMarks, datagramMarks, hs]

end udp

/-! ## The three proxies -/

/-- What the proxies share, and what is each one's own; the upstreams in the parts do not count. -/
structure ProxiesState where
  heap : Heap
  http : Http.ProxyState
  tcp : Tcp.Connection.ProxyState
  udp : Udp.Shared

/-- What the proxies run with. -/
structure Deployment where
  http : Http.Deployment
  tcp : Tcp.Connection.Deployment
  udp : Udp.Deployment

/-- A handler of a request, a handler of a connection, or a task of the UDP proxy. -/
abbrev Task := Http.Handler ⊕ Tcp.Connection.Handler ⊕ Udp.Task

/-- An event of one of the proxies. -/
abbrev Event := Http.Event ⊕ Tcp.Connection.Event ⊕ Udp.Event

section proxies

variable (F : Type) [ScoreArith F] (D : Deployment)

/-- The HTTP handlers, over the upstreams of all proxies. -/
def httpPart : System ProxiesState Http.Handler Http.Event :=
  (Http.system F D.http).within (fun s => { s.http with heap := s.heap }) fun s http =>
    { s with heap := http.heap, http }

/-- The TCP handlers, over the upstreams of all proxies. -/
def tcpPart : System ProxiesState Tcp.Connection.Handler Tcp.Connection.Event :=
  (Tcp.Connection.system F D.tcp).within (fun s => { s.tcp with heap := s.heap }) fun s tcp =>
    { s with heap := tcp.heap, tcp }

/-- The UDP tasks, over the upstreams of all proxies. -/
def udpPart : System ProxiesState Udp.Task Udp.Event :=
  (Udp.system F D.udp).within (fun s => { s.udp with heap := s.heap }) fun s udp =>
    { s with heap := udp.heap, udp }

/-- The tasks of the three proxies. -/
def system : System ProxiesState Task Event := (httpPart F D).sum ((tcpPart F D).sum (udpPart F D))

/-- The machine of the interleavings. -/
abbrev machine : Machine (Pool ProxiesState Task) (Sched Event) := (system F D).machine

/-- New proxies without tasks, each with the routers of its instances. -/
def initial (heap : Heap) (http tcp udp : ℕ → Router) : Pool ProxiesState Task :=
  ⟨⟨heap, .new heap http, .new heap tcp, .new heap udp⟩, []⟩

/-- The phase of a task. -/
def phase : Task → Phase :=
  Sum.elim (fun t => httpPhase t.pc) (Sum.elim (fun t => tcpPhase t.pc) udpPhase)

/-- The marks of a step of a task. -/
def marks : ProxiesState → Task → Event → Task → List Mark :=
  sumMarks (fun _ t _ t' => (httpPhase t.pc).marks (httpPhase t'.pc))
    (sumMarks (fun _ t _ t' => (tcpPhase t.pc).marks (tcpPhase t'.pc)) fun s => udpMarks s.udp)

variable {F D}

/-- The HTTP handlers keep the books. -/
theorem http_keepsBooks (D : Http.Deployment) :
    KeepsBooks (Http.system F D) (fun sh => sh.heap) (fun t => httpPhase t.pc)
      fun _ t _ t' => (httpPhase t.pc).marks (httpPhase t'.pc) where
  act := by
    intro tasks sh sh' t t' e new h
    obtain ⟨⟨sh₁, t₁⟩, hstep, heq⟩ := Option.map_eq_some_iff.mp h
    obtain ⟨rfl, rfl, rfl⟩ : _ ∧ _ ∧ _ := by simpa using heq
    exact ⟨http_moves hstep, by simp⟩
  env := by
    intro sh sh' e new h
    rcases Http.env_cases h with ⟨ns, -, rfl, rfl⟩ | ⟨inst, req, -, rfl, rfl⟩
    · exact ⟨rfl, by simp⟩
    · exact ⟨rfl, by simp [httpPhase]⟩

/-- The TCP handlers keep the books. -/
theorem tcp_keepsBooks (D : Tcp.Connection.Deployment) :
    KeepsBooks (Tcp.Connection.system F D) (fun sh => sh.heap) (fun t => tcpPhase t.pc)
      fun _ t _ t' => (tcpPhase t.pc).marks (tcpPhase t'.pc) where
  act := by
    intro tasks sh sh' t t' e new h
    obtain ⟨⟨sh₁, t₁⟩, hstep, heq⟩ := Option.map_eq_some_iff.mp h
    obtain ⟨rfl, rfl, rfl⟩ : _ ∧ _ ∧ _ := by simpa using heq
    exact ⟨tcp_moves hstep, by simp⟩
  env := by
    intro sh sh' e new h
    rcases Tcp.Connection.env_cases h with ⟨ns, -, rfl, rfl⟩ | ⟨inst, client, -, rfl, rfl⟩
    · exact ⟨rfl, by simp⟩
    · exact ⟨rfl, by simp [tcpPhase]⟩

/-- The UDP tasks keep the books. -/
theorem udp_keepsBooks (D : Udp.Deployment) :
    KeepsBooks (Udp.system F D) (fun sh => sh.heap) udpPhase udpMarks where
  act := by
    intro tasks sh sh' t t' e new h
    exact udp_moves h
  env := by
    intro sh sh' e new h
    rcases Udp.env_cases h with ⟨ns, -, rfl, rfl⟩ | ⟨inst, -, rfl, rfl⟩ | ⟨-, rfl, rfl⟩
    · exact ⟨rfl, by simp⟩
    · exact ⟨rfl, by simp [udpPhase]⟩
    · exact ⟨rfl, by simp [udpPhase]⟩

/-- **The three proxies keep the books.** -/
theorem keepsBooks : KeepsBooks (system F D) (fun s => s.heap) phase marks := by
  have hhttp : KeepsBooks (httpPart F D) (fun s => s.heap) _ _ :=
    (http_keepsBooks D.http).within (fun _ => rfl) fun _ _ => rfl
  have htcp : KeepsBooks (tcpPart F D) (fun s => s.heap) _ _ :=
    (tcp_keepsBooks D.tcp).within (fun _ => rfl) fun _ _ => rfl
  have hudp : KeepsBooks (udpPart F D) (fun s => s.heap) _ _ :=
    (udp_keepsBooks D.udp).within (fun _ => rfl) fun _ _ => rfl
  exact hhttp.sum (htcp.sum hudp)

/-! ## What is left unrecorded -/

/-- The steps of a task that leave an outcome of the upstream unrecorded. -/
def Unrecorded (D : Deployment) (u : UpstreamRef) (s : ProxiesState) : Task → Event → Prop
  | .inl t, .inl e => HttpAbandons D.http s.heap u t e
  | .inr (.inl t), .inr (.inl e) => TcpAbandons D.tcp s.heap u t e
  | .inr (.inr t), .inr (.inr e) => UdpForgets s.udp u t e
  | _, _ => False

/-- The steps of the machine that leave an outcome of an upstream unrecorded. -/
def LeavesUnrecorded (D : Deployment) (u : UpstreamRef) (p : Pool ProxiesState Task) :
    Sched Event → Prop
  | .task i e => ∃ t, p.tasks[i]? = some t ∧ Unrecorded D u p.shared t e
  | .env _ => False

/-- The marks of a task's step say whether it leaves an outcome unrecorded. -/
theorem unrecorded_iff {tasks : List Task} {s s' : ProxiesState} {t t' : Task} {e : Event}
    {new : List Task} (h : (system F D).act tasks s t e = some (s', t', new)) (u : UpstreamRef) :
    (∃ ok, .unrecorded u ok ∈ marks s t e t') ↔ Unrecorded D u s t e := by
  have hphases : ∀ φ φ' : Phase, (∃ ok, .unrecorded u ok ∈ φ.marks φ') ↔
      (φ = .chosen u ∧ φ' = .over) := by
    intro φ φ'
    simp [Phase.unrecorded_mem_marks]
  rcases System.sum_act_cases h with ⟨t, e, t', _, rfl, rfl, rfl, -, hpart⟩ |
    ⟨t, e, t', _, rfl, rfl, rfl, -, hrest⟩
  · obtain ⟨sh, hact, -⟩ := System.within_act hpart
    obtain ⟨⟨sh', t₁⟩, hstep, heq⟩ := Option.map_eq_some_iff.mp hact
    obtain ⟨-, rfl, -⟩ : _ ∧ t₁ = t' ∧ _ := by simpa using heq
    exact (hphases _ _).trans (http_abandons_iff hstep u)
  · rcases System.sum_act_cases hrest with ⟨t, e, t', _, rfl, rfl, rfl, -, hpart⟩ |
      ⟨t, e, t', _, rfl, rfl, rfl, -, -⟩
    · obtain ⟨sh, hact, -⟩ := System.within_act hpart
      obtain ⟨⟨sh', t₁⟩, hstep, heq⟩ := Option.map_eq_some_iff.mp hact
      obtain ⟨-, rfl, -⟩ : _ ∧ t₁ = t' ∧ _ := by simpa using heq
      exact (hphases _ _).trans (tcp_abandons_iff hstep u)
    · exact udp_forgets_iff t' u

/-- The marks of a step of the machine say whether it leaves an outcome unrecorded. -/
theorem leavesUnrecorded_iff {p p' : Pool ProxiesState Task} {a : Sched Event}
    (h : (machine F D).step p a = some p') (u : UpstreamRef) :
    (∃ ok, .unrecorded u ok ∈ stepMarks marks p a p') ↔ LeavesUnrecorded D u p a := by
  rcases (system F D).step_cases h with ⟨i, e, t, s, t', new, rfl, ht, hact, rfl⟩ |
    ⟨e, s, new, rfl, -, rfl⟩
  · rw [stepMarks_task marks ht, unrecorded_iff hact]
    simp [LeavesUnrecorded, ht]
  · simp [stepMarks, LeavesUnrecorded]

/-! ## The accounting -/

/-- Nothing is in flight, and no handler was cancelled: all handlers are finished. -/
structure AtRest (ts : List Task) : Prop where
  http : ∀ t, .inl t ∈ ts → ∃ response, t.pc = .finished response
  tcp : ∀ t, .inr (.inl t) ∈ ts → ∃ result, t.pc = .finished result
  udp : ∀ inst client data pc, .inr (.inr (.handler inst client data pc)) ∈ ts →
    ∃ result, pc = .finished result

/-- At rest no task is on its way with an upstream. -/
theorem AtRest.inFlight_eq_zero {ts : List Task} (h : AtRest ts) (u : UpstreamRef) :
    inFlight phase u ts = 0 := by
  unfold inFlight
  rw [List.countP_eq_zero]
  intro t ht
  have hnone : (phase t).inFlight u = 0 := by
    rcases t with t | t | t
    · obtain ⟨response, hpc⟩ := h.http t ht
      simp [phase, httpPhase, hpc, Phase.inFlight]
    · obtain ⟨result, hpc⟩ := h.tcp t ht
      simp [phase, tcpPhase, hpc, Phase.inFlight]
    · unfold phase
      rw [Sum.elim_inr, Sum.elim_inr]
      cases t with
      | handler inst client data pc =>
          obtain ⟨result, hpc⟩ := h.udp inst client data pc ht
          simp [udpPhase, datagramPhase, hpc, Phase.inFlight]
      | _ => rfl
  rw [hnone]
  exact Bool.false_ne_true

/-- **The accounting of outcomes.** Take any run of the three proxies over upstreams with fresh
statistics that ends with all handlers finished. An upstream that was chosen fewer than `2 ^ 64`
times has the right accounting exactly when no step left an outcome of it unrecorded: no request for
it could not be sent, no connection to it failed, and no datagram was sent to it. -/
theorem outcomes_accounted_iff (F : Type) [ScoreArith F] (D : Deployment) (heap : Heap)
    (http tcp udp : ℕ → Router) (es : List (Sched Event)) (p : Pool ProxiesState Task)
    (hrun : (machine F D).run (initial heap http tcp udp) es = some p) (hrest : AtRest p.tasks)
    (u : UpstreamRef) (hu : u < heap.cells.length) (hfresh : recorded heap u = (0, 0, 0))
    (hbound : ((machine F D).log (stepMarks marks) (initial heap http tcp udp) es).count
      (.chosen u) < 2 ^ 64) :
    Accounted u p.shared.heap
        ((machine F D).log (stepMarks marks) (initial heap http tcp udp) es) ↔
      (machine F D).Along (fun q a => ¬ LeavesUnrecorded D u q a) (initial heap http tcp udp)
        es := by
  have hbooks : Books u p.shared.heap (inFlight phase u p.tasks)
      ((machine F D).log (stepMarks marks) (initial heap http tcp udp) es) :=
    keepsBooks.books_of_run hrun rfl hu hfresh hbound
  rw [hrest.inFlight_eq_zero u] at hbooks
  have hnone : ∀ marks : List Mark, (∀ ok, .unrecorded u ok ∉ marks) ↔
      ∀ m ∈ marks, ∀ ok, m ≠ .unrecorded u ok := by
    intro marks
    constructor
    · rintro h m hm ok rfl
      exact h ok hm
    · intro h ok hm
      exact h _ hm ok rfl
  rw [hbooks.accounted_iff, hnone, Machine.forall_mem_log_iff]
  apply Machine.along_congr _ _ hrun
  intro q a q' hstep
  rw [← leavesUnrecorded_iff hstep, not_exists, hnone]
  constructor
  · exact fun h => h q' hstep
  · intro h q₁ hstep₁
    rwa [Option.some.inj (hstep₁.symm.trans hstep)]

end proxies

/-! ## One request and one connection -/

/-- Instances with the default configuration. -/
def exampleDeployment : Deployment where
  http := Http.exampleDeployment
  tcp := ⟨fun _ => Tcp.dbInstance "orders" 8000 "10.0.0.1:5432", Tcp.parseTwo,
    fun key => key.hash.toFin, .linear U64⟩
  udp := Udp.exampleDeployment

/-- One upstream, behind the routers of the instances. -/
def exampleUpstreams : Router × Heap :=
  (Router.new .roundRobin).updateUpstreams (fun key => key.hash.toFin) .empty
    [⟨"db", "10.0.0.1:5432", 1, 0, 1000⟩] 0

/-- The three proxies of the example, before any request. -/
def exampleStart : Pool ProxiesState Task :=
  initial exampleUpstreams.2 (fun _ => exampleUpstreams.1) (fun _ => exampleUpstreams.1) fun _ =>
    exampleUpstreams.1

/-- A request that the upstream does not answer in time. -/
def timedOutRequest : List (Sched Event) :=
  [.env (.inl (.request 0 Http.exampleRequest))] ++ List.replicate 5 (.task 0 (.inl .step)) ++
    [.task 0 (.inl .timedOut)] ++ List.replicate 4 (.task 0 (.inl .step))

/-- A connection that the upstream refuses. -/
def refusedConnection : List (Sched Event) :=
  [.env (.inr (.inl (.accept 0 (.v4 ⟨127, 0, 0, 1⟩ 40000))))] ++
    List.replicate 3 (.task 0 (.inr (.inl .step))) ++
    [.task 0 (.inr (.inl (.get .step))), .task 0 (.inr (.inl (.get .step))),
      .task 0 (.inr (.inl (.get (.connectFailed "connection refused"))))] ++
    List.replicate 3 (.task 0 (.inr (.inl .step)))

/-- The request is recorded: nothing of it is left unrecorded. -/
theorem outcomes_accounted_iff_timedOut :
    ∃ p, (machine ℚ exampleDeployment).run exampleStart timedOutRequest = some p ∧
      (p.shared.heap.get 0).stats.failures = 1 ∧
      (machine ℚ exampleDeployment).Along
        (fun q a => ¬ LeavesUnrecorded exampleDeployment 0 q a) exampleStart timedOutRequest := by
  obtain ⟨p, hp, t, htasks, hfinished, hlog, hsent, hreceived, hfailures⟩ :
      ∃ p, (machine ℚ exampleDeployment).run exampleStart timedOutRequest = some p ∧
        ∃ t, p.tasks = [.inl t] ∧ t.pc = .finished (Http.createErrorResponse 502 "Bad Gateway") ∧
        (machine ℚ exampleDeployment).log (stepMarks marks) exampleStart timedOutRequest =
          [.chosen 0, .failed 0] ∧
        (p.shared.heap.get 0).stats.requestsSent = 1 ∧
        (p.shared.heap.get 0).stats.responsesReceived = 0 ∧
        (p.shared.heap.get 0).stats.failures = 1 := ⟨_, rfl, _, rfl, rfl, rfl, rfl, rfl, rfl⟩
  have hrest : AtRest p.tasks := by
    rw [htasks]
    exact ⟨by simp [hfinished], by simp, by simp⟩
  refine ⟨p, hp, hfailures, (outcomes_accounted_iff ℚ exampleDeployment _ _ _ _ timedOutRequest p hp
    hrest 0 (by decide) rfl ?_).mp ?_⟩
  · rw [← exampleStart, hlog]
    decide
  · rw [← exampleStart, hlog]
    exact ⟨hsent, hfailures, by omega⟩

/-- The connection is not: the upstream was chosen once, which failed, and has no request. -/
theorem refused_connection_unaccounted :
    ∃ p, (machine ℚ exampleDeployment).run exampleStart refusedConnection = some p ∧
      AtRest p.tasks ∧ 0 < exampleUpstreams.2.cells.length ∧
      recorded exampleUpstreams.2 0 = (0, 0, 0) ∧
      ¬ Accounted 0 p.shared.heap ((machine ℚ exampleDeployment).log (stepMarks marks) exampleStart
        refusedConnection) := by
  obtain ⟨p, hp, t, htasks, hfinished, hlog, hsent⟩ :
      ∃ p, (machine ℚ exampleDeployment).run exampleStart refusedConnection = some p ∧
        ∃ t, p.tasks = [.inr (.inl t)] ∧ (∃ result, t.pc = .finished result) ∧
        (machine ℚ exampleDeployment).log (stepMarks marks) exampleStart refusedConnection =
          [.chosen 0, .failed 0, .unrecorded 0 false] ∧
        (p.shared.heap.get 0).stats.requestsSent = 0 := ⟨_, rfl, _, rfl, ⟨_, rfl⟩, rfl, rfl⟩
  refine ⟨p, hp, ?_, by decide, rfl, fun haccounted => ?_⟩
  · rw [htasks]
    exact ⟨by simp, by simpa using hfinished, by simp⟩
  · have hchosen := haccounted.1
    rw [hlog, hsent] at hchosen
    exact absurd hchosen (by decide)

end HarbrRouter.Proxy.Outcomes
