import HarbrRouter.Proxy.Udp

/-!
# Replies to UDP clients

What the listener of a session sends back: the buffers, the datagrams and the sockets that
`proxy/udp.rs` works with, over the tasks of `Udp.lean`. A handler is passed the socket on which its
datagram came in, as `_server_socket`, and does not use it; the listener of the session it creates
binds one of its own, to 0.0.0.0:0. A run with sockets and datagrams is a run of the proxy
(`wired_run`).

**Theorem** (`listener_replies`): each datagram from the upstream is sent on once, unchanged and to
the client of the session, from the listener's own socket. What a listener has sent are the
datagrams it has received, but for one in its buffer at most (`ListenerRight`), and each of its
steps keeps that (`ListenerMove.right`).

**Theorem** (`replies_right_iff`): the replies come from the socket that the client has sent to only
where there are none. The two sockets differ, since a listener binds its own after the datagram has
come in on the other; and there are no replies exactly in the runs without a `send_to`
(`sentBy_nil_iff`).
-/

set_option autoImplicit false

namespace HarbrRouter.Proxy.Udp

open Transition TaskPool PointRing Routing

/-! ## Sockets and buffers -/

/-- A call of `server_socket.send_to(..)`. -/
structure Reply where
  /-- The number of the socket that is sent from. -/
  socket : ℕ
  client : SocketAddr
  payload : List UInt8
deriving DecidableEq

/-- The local variables of a task. -/
structure Locals where
  /-- `socket` of a start task, `_server_socket` of a handler, `server_socket` of a listener -/
  socket : ℕ
  /-- The socket on which the datagram came in that made the listener's session. -/
  arrival : ℕ
  buffer : List UInt8
  bytesReceived : ℕ
  /-- The datagrams that the listener has received, in order. -/
  received : List (List UInt8)
  /-- The replies that the listener has sent, in order. -/
  replies : List Reply
deriving DecidableEq

/-- A task that has only started. -/
def Locals.none : Locals := ⟨0, 0, [], 0, [], []⟩

/-- What is outside the proxy. -/
structure Wire where
  /-- The sockets bound for clients, by number, each with its address. -/
  sockets : List SocketAddr
  /-- The client of each session, by the session's number. -/
  clients : List SocketAddr

/-- What comes with a result of the operating system: the datagram that is received, and the port
where it chooses one. -/
structure Arrival where
  datagram : List UInt8
  port : UInt16

section wired

variable (F : Type) [ScoreArith F] (D : Deployment)

/-- What a step does with sockets, datagrams and buffers, and what a spawned task begins with.
Source: `proxy/udp.rs`, `UdpProxy::start`, `UdpProxy::get_or_create_session` and
`UdpProxy::start_upstream_listener` -/
def effect (w : Wire) (t : Task × Locals) (e : Event × Arrival) : Option (Wire × Locals × Locals) :=
  let l := t.2
  match t.1, e.1 with
  | .server inst .binding, .bound =>
      let sockets := w.sockets ++ [(D.config inst).listenAddr]
      some ({ w with sockets }, { l with socket := w.sockets.length }, .none)
  | .server _ .serving, .packet _ _ => some (w, l, { Locals.none with socket := l.socket })
  | .handler _ client _ (.connecting _), .connected =>
      some ({ w with clients := w.clients ++ [client] }, l, .none)
  | .handler inst _ _ (.startListener _), .bound =>
      -- `UdpSocket::bind("0.0.0.0:0")`, where `_server_socket` was meant
      let sockets := w.sockets ++ [.v4 ⟨0, 0, 0, 0⟩ e.2.port]
      let buffer := List.replicate (D.bufferSize inst) 0
      some ({ w with sockets }, l, ⟨w.sockets.length, l.socket, buffer, 0, [], []⟩)
  | .listener _ _ _ .receiving, .received bytes =>
      -- what does not fit into the buffer is lost
      if bytes = min e.2.datagram.length l.buffer.length then
        let buffer := e.2.datagram.take bytes ++ l.buffer.drop bytes
        let received := l.received ++ [e.2.datagram]
        some (w, { l with buffer, bytesReceived := bytes, received }, .none)
      else Option.none
  | .listener _ client _ .sending, .sent _ | .listener _ client _ .sending, .sendFailed _ =>
      let reply : Reply := ⟨l.socket, client, l.buffer.take l.bytesReceived⟩
      some (w, { l with replies := l.replies ++ [reply] }, .none)
  | _, _ => some (w, l, .none)

/-- The proxy with its sockets and datagrams. -/
def wired : System (Shared × Wire) (Task × Locals) (Event × Arrival) :=
  (system F D).decorate .none (effect D)

/-- The machine of the interleavings. -/
abbrev wiredMachine : Machine (Pool (Shared × Wire) (Task × Locals)) (Sched (Event × Arrival)) :=
  (wired F D).machine

/-- A new proxy without sockets. -/
def wiredInitial (heap : Heap) (routers : ℕ → Router) : Pool (Shared × Wire) (Task × Locals) :=
  ⟨(.new heap routers, ⟨[], []⟩), []⟩

variable {F D}

/-- Sockets and datagrams add nothing to what the proxy does. -/
theorem wired_run {heap : Heap} {routers : ℕ → Router} {es : List (Sched (Event × Arrival))}
    {p : Pool (Shared × Wire) (Task × Locals)}
    (hrun : (wiredMachine F D).run (wiredInitial heap routers) es = some p) :
    (machine F D).run (initial heap routers) (es.map Sched.undecorated) = some p.undecorated :=
  System.undecorated_run hrun

/-! ## What a listener does -/

/-- The reply that the listener of a session owes for a datagram. -/
def owed (D : Deployment) (inst : ℕ) (client : SocketAddr) (socket : ℕ) (datagram : List UInt8) :
    Reply :=
  ⟨socket, client, datagram.take (D.bufferSize inst)⟩

/-- What is true of a listener: each datagram it has received is answered or in its buffer. -/
structure ListenerRight (D : Deployment) (w : Wire) (inst : ℕ) (client : SocketAddr) (sid : ℕ)
    (pc : ListenerPc) (l : Locals) : Prop where
  /-- The datagram that made the session came in on the socket of the instance. -/
  arrival : w.sockets[l.arrival]? = some (D.config inst).listenAddr
  /-- The listener has a socket of its own. -/
  socket : l.arrival < l.socket
  session : w.clients[sid]? = some client
  buffer : l.buffer.length = D.bufferSize inst
  answered : l.received.map (owed D inst client l.socket) = l.replies ++
    (if pc = .sending then [⟨l.socket, client, l.buffer.take l.bytesReceived⟩] else [])

/-- What is true of a task. -/
def TaskRight (D : Deployment) (w : Wire) : Task × Locals → Prop
  | (.server inst .serving, l) => w.sockets[l.socket]? = some (D.config inst).listenAddr
  | (.handler inst client _ pc, l) => w.sockets[l.socket]? = some (D.config inst).listenAddr ∧
      ∀ sid, pc = .startListener sid → w.clients[sid]? = some client
  | (.listener inst client sid pc, l) => ListenerRight D w inst client sid pc l
  | _ => True

/-- More sockets and sessions leave a task as it was. -/
theorem TaskRight.mono {w w' : Wire} {t : Task × Locals} (h : TaskRight D w t)
    (hsockets : w.sockets <+: w'.sockets) (hclients : w.clients <+: w'.clients) :
    TaskRight D w' t := by
  have hget : ∀ {as bs : List SocketAddr} {i : ℕ} {a : SocketAddr}, as <+: bs →
      as[i]? = some a → bs[i]? = some a := by
    rintro as _ i a ⟨cs, rfl⟩ ha
    rw [List.getElem?_append_left (List.getElem?_eq_some_iff.mp ha).1, ha]
  obtain ⟨t, l⟩ := t
  cases t with
  | handler inst client data pc =>
      exact ⟨hget hsockets h.1, fun sid hpc => hget hclients (h.2 sid hpc)⟩
  | listener inst client sid pc =>
      exact ⟨hget hsockets h.arrival, h.socket, hget hclients h.session, h.buffer, h.answered⟩
  | server inst pc =>
      cases pc with
      | serving => exact hget hsockets h
      | _ => trivial
  | _ => trivial

section steps

variable {tasks new : List Task} {sh sh' : Shared} {w w' : Wire} {l l' l₀ : Locals} {inst : ℕ}
  {client : SocketAddr} {e : Event} {x : Arrival}

/-- A datagram that is received is in the buffer, up to its size. -/
theorem take_received (datagram : List UInt8) {buffer : List UInt8} {size : ℕ}
    (hbuffer : buffer.length = size) :
    (datagram.take (min datagram.length size) ++
        buffer.drop (min datagram.length size)).length = size ∧
      (datagram.take (min datagram.length size) ++ buffer.drop (min datagram.length size)).take
        (min datagram.length size) = datagram.take size := by
  have hlength : (datagram.take (min datagram.length size)).length = min datagram.length size := by
    rw [List.length_take]
    omega
  constructor
  · rw [List.length_append, hlength, List.length_drop]
    omega
  · rw [List.take_append_of_le_length hlength.ge, List.take_take, min_self, List.take_eq_take_iff]
    omega

/-- What is true of a listener stays true when it goes on without a reply in hand. -/
theorem ListenerRight.quiet {sid : ℕ} {pc pc' : ListenerPc}
    (h : ListenerRight D w inst client sid pc l) (hpc : pc ≠ .sending) (hpc' : pc' ≠ .sending) :
    ListenerRight D w inst client sid pc' l :=
  ⟨h.arrival, h.socket, h.session, h.buffer, by simpa [hpc, hpc'] using h.answered⟩

/-- What is true of a listener stays true when it has sent its reply. -/
theorem ListenerRight.replied {sid : ℕ} {pc' : ListenerPc}
    (h : ListenerRight D w inst client sid .sending l) (hpc' : pc' ≠ .sending) :
    ListenerRight D w inst client sid pc'
      { l with replies := l.replies ++ [⟨l.socket, client, l.buffer.take l.bytesReceived⟩] } :=
  ⟨h.arrival, h.socket, h.session, h.buffer, by simpa [hpc'] using h.answered⟩

/-- What is true of a listener stays true when it has received a datagram. -/
theorem ListenerRight.receive {sid : ℕ} (h : ListenerRight D w inst client sid .receiving l)
    (datagram : List UInt8) {bytes : ℕ} (hbytes : bytes = min datagram.length l.buffer.length) :
    ListenerRight D w inst client sid .sending
      { l with
        buffer := datagram.take bytes ++ l.buffer.drop bytes
        bytesReceived := bytes
        received := l.received ++ [datagram] } := by
  rw [h.buffer] at hbytes
  subst hbytes
  obtain ⟨hlength, htake⟩ := take_received datagram h.buffer
  refine ⟨h.arrival, h.socket, h.session, hlength, ?_⟩
  have hanswered := h.answered
  simp only [reduceCtorEq, if_false, List.append_nil] at hanswered
  simp only [List.map_append, hanswered, List.map_cons, List.map_nil, if_true, owed, htake]

/-- What a step of a listener does to its local variables: it receives a datagram, it replies, or it
goes on without a reply in hand. -/
inductive ListenerMove (client : SocketAddr) (x : Arrival) (l : Locals) :
    ListenerPc → ListenerPc → Locals → Prop
  | receive {bytes : ℕ} (h : bytes = min x.datagram.length l.buffer.length) :
      ListenerMove client x l .receiving .sending
        { l with
          buffer := x.datagram.take bytes ++ l.buffer.drop bytes
          bytesReceived := bytes
          received := l.received ++ [x.datagram] }
  | reply {pc' : ListenerPc} (h : pc' ≠ .sending) :
      ListenerMove client x l .sending pc'
        { l with replies := l.replies ++ [⟨l.socket, client, l.buffer.take l.bytesReceived⟩] }
  | quiet {pc pc' : ListenerPc} (h : pc ≠ .sending) (h' : pc' ≠ .sending) :
      ListenerMove client x l pc pc' l

/-- Every step of a listener is one of the three, and creates neither sockets nor sessions. -/
theorem listener_move {sid : ℕ} {pc pc' : ListenerPc}
    (h : pc.step D tasks sh inst client sid e = some (sh', pc'))
    (heffect : effect D w (.listener inst client sid pc, l) (e, x) = some (w', l', l₀)) :
    w' = w ∧ sh'.objects.length = sh.objects.length ∧ ListenerMove client x l pc pc' l' := by
  unfold ListenerPc.step at h
  split at h
  · split_ifs at h
    obtain ⟨rfl, rfl⟩ : _ ∧ _ := by simpa using h
    simp only [effect] at heffect
    split_ifs at heffect with hbytes
    obtain ⟨rfl, rfl, rfl⟩ : _ ∧ _ ∧ _ := by simpa using heffect
    exact ⟨rfl, by simp [Shared.modifySession], .receive hbytes⟩
  · obtain ⟨rfl, rfl⟩ : _ ∧ _ := by simpa using h
    obtain ⟨rfl, rfl, rfl⟩ : _ ∧ _ ∧ _ := by simpa [effect] using heffect
    exact ⟨rfl, rfl, .quiet (by simp) (by simp)⟩
  · obtain ⟨rfl, rfl⟩ : _ ∧ _ := by simpa using h
    obtain ⟨rfl, rfl, rfl⟩ : _ ∧ _ ∧ _ := by simpa [effect] using heffect
    exact ⟨rfl, rfl, .reply (by simp)⟩
  · obtain ⟨rfl, rfl⟩ : _ ∧ _ := by simpa using h
    obtain ⟨rfl, rfl, rfl⟩ : _ ∧ _ ∧ _ := by simpa [effect] using heffect
    exact ⟨rfl, rfl, .reply (by simp)⟩
  · obtain ⟨rfl, rfl⟩ : _ ∧ _ := by simpa using h
    obtain ⟨rfl, rfl, rfl⟩ : _ ∧ _ ∧ _ := by simpa [effect] using heffect
    exact ⟨rfl, by simp [Shared.modifySession], .quiet (by simp) (by simp)⟩
  · obtain ⟨rfl, rfl, rfl⟩ : _ ∧ _ ∧ _ := by simpa [effect] using heffect
    split_ifs at h
    all_goals
      obtain ⟨rfl, rfl⟩ : _ ∧ _ := by simpa using h
      exact ⟨rfl, rfl, .quiet (by simp) (by simp)⟩
  · split_ifs at h
    obtain ⟨rfl, rfl⟩ : _ ∧ _ := by simpa using h
    obtain ⟨rfl, rfl, rfl⟩ : _ ∧ _ ∧ _ := by simpa [effect] using heffect
    exact ⟨rfl, rfl, .quiet (by simp) (by simp)⟩
  · obtain ⟨rfl, rfl⟩ : _ ∧ _ := by simpa using h
    obtain ⟨rfl, rfl, rfl⟩ : _ ∧ _ ∧ _ := by simpa [effect] using heffect
    exact ⟨rfl, by simp [Shared.countExpired], .quiet (by simp) (by simp)⟩
  · obtain ⟨rfl, rfl⟩ : _ ∧ _ := by simpa using h
    obtain ⟨rfl, rfl, rfl⟩ : _ ∧ _ ∧ _ := by simpa [effect] using heffect
    exact ⟨rfl, by simp [Shared.decActive], .quiet (by simp) (by simp)⟩
  · exact absurd h (by simp)

/-- Each step of a listener keeps what is true of it. -/
theorem ListenerMove.right {sid : ℕ} {pc pc' : ListenerPc} (h : ListenerMove client x l pc pc' l')
    (hright : ListenerRight D w inst client sid pc l) :
    ListenerRight D w inst client sid pc' l' := by
  cases h with
  | receive hbytes => exact hright.receive x.datagram hbytes
  | reply hpc' => exact hright.replied hpc'
  | quiet hpc hpc' => exact hright.quiet hpc hpc'

/-- What is asked of a handler is true of one that has no session to start a listener for. -/
theorem handlerRight_of_ne {data : List UInt8} {pc pc' : HandlerPc}
    (h : TaskRight D w (.handler inst client data pc, l))
    (hpc' : ∀ sid, pc' ≠ .startListener sid) :
    TaskRight D w (.handler inst client data pc', l) :=
  ⟨h.1, fun sid heq => absurd heq (hpc' sid)⟩

/-- Each step of a handler keeps what is true of it, and starts a listener that is right. -/
theorem handler_step_right {data : List UInt8} {pc pc' : HandlerPc}
    (h : pc.step F D tasks sh inst client e = some (sh', pc', new))
    (heffect : effect D w (.handler inst client data pc, l) (e, x) = some (w', l', l₀))
    (hclients : w.clients.length = sh.objects.length)
    (hright : TaskRight D w (.handler inst client data pc, l)) :
    w.sockets <+: w'.sockets ∧ w.clients <+: w'.clients ∧
      w'.clients.length = sh'.objects.length ∧
      TaskRight D w' (.handler inst client data pc', l') ∧ ∀ u ∈ new, TaskRight D w' (u, l₀) := by
  have hstep := HandlerPc.step_inv h
  cases hstep with
  | @connected upstream =>
      obtain ⟨rfl, rfl, rfl⟩ : _ ∧ _ ∧ _ := by simpa [effect] using heffect
      refine ⟨List.prefix_rfl, List.prefix_append _ _, by simp [hclients], ⟨hright.1, ?_⟩, by simp⟩
      intro sid heq
      obtain rfl := HandlerPc.startListener.inj heq
      rw [← hclients]
      exact List.getElem?_concat_length
  | @listen sid =>
      obtain ⟨rfl, rfl, rfl⟩ : _ ∧ _ ∧ _ := by simpa [effect] using heffect
      have harrival := List.getElem?_eq_some_iff.mp hright.1
      have hmore : (w.sockets ++ [.v4 ⟨0, 0, 0, 0⟩ x.port])[l.socket]? =
          some (D.config inst).listenAddr := by
        rw [List.getElem?_append_left harrival.1, hright.1]
      refine ⟨List.prefix_append _ _, List.prefix_rfl, hclients, ⟨hmore, by simp⟩, fun u hu => ?_⟩
      obtain rfl := List.mem_singleton.mp hu
      exact ⟨hmore, harrival.1, hright.2 sid rfl, by simp, rfl⟩
  | notConnected =>
      have hne : e ≠ .connected := by
        rintro rfl
        exact absurd h (by simp [HandlerPc.step])
      obtain ⟨rfl, rfl, rfl⟩ : _ ∧ _ ∧ _ := by simpa [effect, hne] using heffect
      exact ⟨List.prefix_rfl, List.prefix_rfl, hclients, handlerRight_of_ne hright (by simp),
        by simp⟩
  | forward hs hsh =>
      subst hsh
      obtain ⟨rfl, rfl, rfl⟩ : _ ∧ _ ∧ _ := by simpa [effect] using heffect
      exact ⟨List.prefix_rfl, List.prefix_rfl, by simpa [Shared.modifySession] using hclients,
        handlerRight_of_ne hright (by simp), by simp⟩
  | _ =>
      -- every other way on leaves the sockets and the sessions alone
      obtain ⟨rfl, rfl, rfl⟩ : _ ∧ _ ∧ _ := by simpa [effect] using heffect
      exact ⟨List.prefix_rfl, List.prefix_rfl,
        by simpa [Shared.modifySession, Shared.countPacket, Shared.countExpired, Shared.decActive,
          Shared.countCreated, Shared.incActive] using hclients,
        handlerRight_of_ne hright (by simp), by simp⟩

/-- Each step of a start task keeps what is true of it, and hands its socket to the handlers. -/
theorem server_step_right {pc pc' : ServerPc}
    (h : pc.step D tasks sh inst e = some (sh', pc', new))
    (heffect : effect D w (.server inst pc, l) (e, x) = some (w', l', l₀))
    (hright : TaskRight D w (.server inst pc, l)) :
    w.sockets <+: w'.sockets ∧ w'.clients = w.clients ∧ sh'.objects = sh.objects ∧
      TaskRight D w' (.server inst pc', l') ∧ ∀ u ∈ new, TaskRight D w' (u, l₀) := by
  unfold ServerPc.step at h
  split at h
  · obtain ⟨rfl, rfl, rfl⟩ : _ ∧ _ ∧ _ := by simpa using h
    obtain ⟨rfl, rfl, rfl⟩ : _ ∧ _ ∧ _ := by simpa [effect] using heffect
    refine ⟨List.prefix_append _ _, rfl, rfl, List.getElem?_concat_length, fun u hu => ?_⟩
    obtain rfl := List.mem_singleton.mp hu
    trivial
  · obtain ⟨rfl, rfl, rfl⟩ : _ ∧ _ ∧ _ := by simpa using h
    obtain ⟨rfl, rfl, rfl⟩ : _ ∧ _ ∧ _ := by simpa [effect] using heffect
    exact ⟨List.prefix_rfl, rfl, rfl, trivial, by simp⟩
  · obtain ⟨rfl, rfl, rfl⟩ : _ ∧ _ ∧ _ := by simpa using h
    obtain ⟨rfl, rfl, rfl⟩ : _ ∧ _ ∧ _ := by simpa [effect] using heffect
    refine ⟨List.prefix_rfl, rfl, rfl, hright, fun u hu => ?_⟩
    obtain rfl := List.mem_singleton.mp hu
    exact ⟨hright, by simp⟩
  · obtain ⟨rfl, rfl, rfl⟩ : _ ∧ _ ∧ _ := by simpa using h
    obtain ⟨rfl, rfl, rfl⟩ : _ ∧ _ ∧ _ := by simpa [effect] using heffect
    exact ⟨List.prefix_rfl, rfl, rfl, hright, by simp⟩
  · obtain ⟨rfl, rfl, rfl⟩ : _ ∧ _ ∧ _ := by simpa using h
    obtain ⟨rfl, rfl, rfl⟩ : _ ∧ _ ∧ _ := by simpa [effect] using heffect
    exact ⟨List.prefix_rfl, rfl, rfl, trivial, by simp⟩
  · obtain ⟨rfl, rfl, rfl⟩ : _ ∧ _ ∧ _ := by simpa [effect] using heffect
    split_ifs at h
    all_goals
      obtain ⟨rfl, rfl, rfl⟩ : _ ∧ _ ∧ _ := by simpa using h
      exact ⟨List.prefix_rfl, rfl, rfl, trivial, by simp⟩
  · exact absurd h (by simp)

/-- A cleanup task creates no sessions. -/
theorem CleanupStep.objects_length {pc pc' : CleanupPc} (h : CleanupStep D tasks sh pc e sh' pc') :
    sh'.objects.length = sh.objects.length := by
  cases h <;> simp [Shared.countExpired, Shared.decActive]

/-- Each step of a task keeps what is true of it, and of the tasks it starts. -/
theorem task_step_right {t t' : Task} (h : t.step F D tasks sh e = some (sh', t', new))
    (heffect : effect D w (t, l) (e, x) = some (w', l', l₀))
    (hclients : w.clients.length = sh.objects.length) (hright : TaskRight D w (t, l)) :
    w.sockets <+: w'.sockets ∧ w.clients <+: w'.clients ∧
      w'.clients.length = sh'.objects.length ∧ TaskRight D w' (t', l') ∧
      ∀ u ∈ new, TaskRight D w' (u, l₀) := by
  cases t with
  | handler inst client data pc =>
      obtain ⟨⟨sh₁, pc', new₁⟩, hpc, heq⟩ := Option.map_eq_some_iff.mp h
      obtain ⟨rfl, rfl, rfl⟩ : _ ∧ _ ∧ _ := by simpa using heq
      exact handler_step_right hpc heffect hclients hright
  | listener inst client sid pc =>
      obtain ⟨⟨sh₁, pc'⟩, hpc, heq⟩ := Option.map_eq_some_iff.mp h
      obtain ⟨rfl, rfl, rfl⟩ : _ ∧ _ ∧ _ := by simpa using heq
      obtain ⟨rfl, hlength, hmove⟩ := listener_move hpc heffect
      exact ⟨List.prefix_rfl, List.prefix_rfl, hclients.trans hlength.symm, hmove.right hright,
        by simp⟩
  | server inst pc =>
      obtain ⟨⟨sh₁, pc', new₁⟩, hpc, heq⟩ := Option.map_eq_some_iff.mp h
      obtain ⟨rfl, rfl, rfl⟩ : _ ∧ _ ∧ _ := by simpa using heq
      obtain ⟨hsockets, hsame, hobjects, hright', hnew⟩ := server_step_right hpc heffect hright
      exact ⟨hsockets, hsame ▸ List.prefix_rfl, by rw [hsame, hobjects, hclients], hright', hnew⟩
  | cleanup inst pc =>
      obtain ⟨⟨sh₁, pc'⟩, hpc, heq⟩ := Option.map_eq_some_iff.mp h
      obtain ⟨rfl, rfl, rfl⟩ : _ ∧ _ ∧ _ := by simpa using heq
      obtain ⟨rfl, rfl, rfl⟩ : _ ∧ _ ∧ _ := by simpa [effect] using heffect
      exact ⟨List.prefix_rfl, List.prefix_rfl,
        hclients.trans (CleanupPc.step_inv hpc).objects_length.symm, trivial, by simp⟩
  | reader pc =>
      obtain ⟨pc', hpc, heq⟩ := Option.map_eq_some_iff.mp h
      obtain ⟨rfl, rfl, rfl⟩ : _ ∧ _ ∧ _ := by simpa using heq
      obtain ⟨rfl, rfl, rfl⟩ : _ ∧ _ ∧ _ := by simpa [effect] using heffect
      exact ⟨List.prefix_rfl, List.prefix_rfl, hclients, trivial, by simp⟩

end steps

/-! ## Whole runs -/

section run

variable {heap : Heap} {routers : ℕ → Router} {es : List (Sched (Event × Arrival))}
  {p : Pool (Shared × Wire) (Task × Locals)}

/-- In every run, what is true of a task is true of each. -/
theorem right_of_run (hrun : (wiredMachine F D).run (wiredInitial heap routers) es = some p) :
    p.shared.2.clients.length = p.shared.1.objects.length ∧
      ∀ t ∈ p.tasks, TaskRight D p.shared.2 t := by
  refine (wired F D).run_owickiGries (P := fun _ _ => True)
    (I := fun sh => sh.2.clients.length = sh.1.objects.length) (J := fun sh => TaskRight D sh.2)
    ?_ ?_ rfl (by simp [wiredInitial]) (Machine.along_of_take _ fun _ _ _ _ _ => trivial) hrun
  · intro q i e t sh t' new hI hJ _ ht hact
    obtain ⟨new₁, l, hown, heffect, rfl⟩ := System.decorate_act hact
    obtain ⟨hsockets, hclients, hI', ht', hnew⟩ :=
      task_step_right hown heffect hI (hJ t (List.mem_of_getElem? ht))
    refine ⟨hI', ht', fun u hu => ?_, fun u _ hu => hu.mono hsockets hclients⟩
    obtain ⟨v, hv, rfl⟩ := List.mem_map.mp hu
    exact hnew v hv
  · intro q e sh new hI _ _ henv
    obtain ⟨new₁, hown, hw, rfl⟩ := System.decorate_env henv
    have hnew : sh.1.objects = q.shared.1.objects ∧ ∀ u ∈ new₁, TaskRight D sh.2 (u, .none) := by
      rcases env_cases hown with ⟨ns, -, hsh, rfl⟩ | ⟨inst, -, hsh, rfl⟩ | ⟨-, hsh, rfl⟩
      · exact ⟨by rw [hsh], by simp⟩
      · exact ⟨by rw [hsh], by simp [TaskRight]⟩
      · exact ⟨by rw [hsh], by simp [TaskRight]⟩
    refine ⟨by rw [hw, hnew.1, hI], fun u hu => ?_, fun u _ hu => hw ▸ hu⟩
    obtain ⟨v, hv, rfl⟩ := List.mem_map.mp hu
    exact hnew.2 v hv

/-- **What a listener sends.** Each datagram it has received is in its buffer or has been sent on
once, in order, to the client of the session and as far as the buffer goes; and it has been sent
from another socket than the one on which the client's datagram came in. -/
theorem listener_replies
    (hrun : (wiredMachine F D).run (wiredInitial heap routers) es = some p) {inst sid : ℕ}
    {client : SocketAddr} {pc : ListenerPc} {l : Locals}
    (h : (.listener inst client sid pc, l) ∈ p.tasks) :
    p.shared.2.sockets[l.arrival]? = some (D.config inst).listenAddr ∧ l.arrival < l.socket ∧
      p.shared.2.clients[sid]? = some client ∧
      l.received.length = l.replies.length + (if pc = .sending then 1 else 0) ∧
      l.replies = (l.received.take l.replies.length).map (owed D inst client l.socket) := by
  have hright : ListenerRight D p.shared.2 inst client sid pc l := (right_of_run hrun).2 _ h
  refine ⟨hright.arrival, hright.socket, hright.session, ?_, ?_⟩
  · have hlength := congrArg List.length hright.answered
    rw [List.length_map, List.length_append] at hlength
    split_ifs at hlength ⊢ <;> simpa using hlength
  · rw [List.map_take, hright.answered, List.take_left]

/-! ## Replies from the instance's socket -/

/-- What a reply to a datagram of the upstream has to be. -/
structure RightReply (D : Deployment) (w : Wire) (inst sid : ℕ) (l : Locals)
    (datagram : List UInt8) (reply : Reply) : Prop where
  payload : datagram.length ≤ D.bufferSize inst → reply.payload = datagram
  /-- It goes to the client of the session, -/
  client : w.clients[sid]? = some reply.client
  /-- from the socket that the client has sent to, -/
  socket : reply.socket = l.arrival
  /-- which is bound to the address of the instance. -/
  listens : w.sockets[reply.socket]? = some (D.config inst).listenAddr

/-- The listeners send each datagram that they receive on once, and as they have to. -/
def RepliesRight (D : Deployment) (p : Pool (Shared × Wire) (Task × Locals)) : Prop :=
  ∀ inst client sid pc l, (.listener inst client sid pc, l) ∈ p.tasks →
    l.received.length = l.replies.length + (if pc = .sending then 1 else 0) ∧
      List.Forall₂ (RightReply D p.shared.2 inst sid l) (l.received.take l.replies.length) l.replies

/-- Is the task a listener before its `send_to`? -/
def Task.sends : Task → Bool
  | .listener _ _ _ .sending => true
  | _ => false

/-- Is the step a listener's `send_to`? -/
def SendsReply (p : Pool (Shared × Wire) (Task × Locals)) : Sched (Event × Arrival) → Prop
  | .task i _ => ∃ t, p.tasks[i]? = some t ∧ t.1.sends = true
  | .env _ => False

/-- The replies of a task. -/
def sentBy : Task × Locals → List Reply
  | (.listener _ _ _ _, l) => l.replies
  | _ => []

/-- A new task has sent nothing. -/
theorem effect_new {w w' : Wire} {t : Task × Locals} {e : Event × Arrival} {l' l₀ : Locals}
    (h : effect D w t e = some (w', l', l₀)) : l₀.replies = [] := by
  unfold effect at h
  split at h
  case h_5 =>
      simp only at h
      split_ifs at h
      obtain ⟨-, -, rfl⟩ : _ ∧ _ ∧ _ := by simpa using h
      rfl
  all_goals
    obtain ⟨-, -, rfl⟩ : _ ∧ _ ∧ _ := by simpa using h
    rfl

/-- A listener's replies become more where it calls `send_to`, and only there. -/
theorem ListenerMove.sentBy {inst sid : ℕ} {client : SocketAddr} {pc pc' : ListenerPc} {x : Arrival}
    {l l' : Locals} (h : ListenerMove client x l pc pc' l') :
    l'.replies = [] ↔ l.replies = [] ∧ (Task.listener inst client sid pc).sends = false := by
  cases h with
  | receive => simp [Task.sends]
  | reply => simp [Task.sends]
  | quiet hpc => cases pc <;> simp_all [Task.sends]

/-- A task's replies become more where it calls `send_to`, and only there. -/
theorem sentBy_of_act {tasks new : List (Task × Locals)} {sh sh' : Shared × Wire}
    {t t' : Task × Locals} {e : Event × Arrival}
    (h : (wired F D).act tasks sh t e = some (sh', t', new)) :
    (sentBy t' = [] ↔ sentBy t = [] ∧ t.1.sends = false) ∧ ∀ u ∈ new, sentBy u = [] := by
  obtain ⟨new₁, l₀, hown, heffect, rfl⟩ := System.decorate_act h
  refine ⟨?_, fun u hu => ?_⟩
  · obtain ⟨t, l⟩ := t
    obtain ⟨t', l'⟩ := t'
    cases t with
    | listener inst client sid pc =>
        obtain ⟨⟨sh₁, pc'⟩, hpc, heq⟩ := Option.map_eq_some_iff.mp hown
        obtain ⟨-, rfl, -⟩ : _ ∧ _ ∧ _ := by simpa using heq
        exact (listener_move hpc heffect).2.2.sentBy
    | _ =>
        obtain ⟨_, -, heq⟩ := Option.map_eq_some_iff.mp hown
        obtain ⟨-, rfl, -⟩ : _ ∧ _ ∧ _ := by simpa using heq
        simp [sentBy, Task.sends]
  · obtain ⟨v, -, rfl⟩ := List.mem_map.mp hu
    cases v with
    | listener inst client sid pc => exact effect_new heffect
    | _ => rfl

/-- After a step nobody has replied exactly when nobody had and the step is no `send_to`. -/
theorem sentBy_step {q q' : Pool (Shared × Wire) (Task × Locals)} {a : Sched (Event × Arrival)}
    (h : (wiredMachine F D).step q a = some q') :
    (∀ t ∈ q'.tasks, sentBy t = []) ↔ (∀ t ∈ q.tasks, sentBy t = []) ∧ ¬ SendsReply q a := by
  rcases System.step_cases _ h with ⟨i, e, t, sh, t', new, rfl, ht, hact, rfl⟩ |
    ⟨e, sh, new, rfl, henv, rfl⟩
  · obtain ⟨hsent, hnew⟩ := sentBy_of_act hact
    have hsends : SendsReply q (.task i e) ↔ t.1.sends = true := by simp [SendsReply, ht]
    rw [hsends, Bool.not_eq_true]
    constructor
    · intro hnone
      have hmoved := hsent.mp (hnone t' (mem_set_append_self ht t' new))
      refine ⟨fun u hu => ?_, hmoved.2⟩
      by_cases hut : u = t
      · exact hut ▸ hmoved.1
      · exact hnone u (mem_set_append_of_ne ht hu hut t' new)
    · rintro ⟨hnone, hquiet⟩ u hu
      rcases mem_set_append hu with rfl | hu | hu
      · exact hsent.mpr ⟨hnone t (List.mem_of_getElem? ht), hquiet⟩
      · exact hnone u hu
      · exact hnew u hu
  · obtain ⟨new₁, -, -, rfl⟩ := System.decorate_env henv
    have hnew : ∀ u : Task, sentBy (u, .none) = [] := by
      intro u
      cases u <;> rfl
    simp [SendsReply, or_imp, forall_and, hnew]

/-- There are no replies in a run without a `send_to`, and only in one. -/
theorem sentBy_nil_iff (hrun : (wiredMachine F D).run (wiredInitial heap routers) es = some p) :
    (∀ t ∈ p.tasks, sentBy t = []) ↔
      (wiredMachine F D).Along (fun q a => ¬ SendsReply q a) (wiredInitial heap routers) es := by
  refine (wiredMachine F D).run_induction (Q := fun es p => (∀ t ∈ p.tasks, sentBy t = []) ↔
    (wiredMachine F D).Along (fun q a => ¬ SendsReply q a) (wiredInitial heap routers) es)
    ?_ ?_ hrun
  · simp [wiredInitial, Machine.Along]
  · intro es a q q' hq ih hstep
    rw [sentBy_step hstep, Machine.along_concat _ hq, ih]

/-- The replies come from the socket that the client has sent to only in the runs in which no
listener replies: a listener has a socket of its own. -/
theorem replies_right_iff (heap : Heap) (routers : ℕ → Router)
    (es : List (Sched (Event × Arrival))) (p : Pool (Shared × Wire) (Task × Locals))
    (hrun : (wiredMachine F D).run (wiredInitial heap routers) es = some p) :
    RepliesRight D p ↔
      (wiredMachine F D).Along (fun q a => ¬ SendsReply q a) (wiredInitial heap routers) es := by
  rw [← sentBy_nil_iff hrun]
  constructor
  · rintro hright ⟨t, l⟩ ht
    cases t with
    | listener inst client sid pc =>
        obtain ⟨-, hsocket, -, -, hreplies⟩ := listener_replies hrun ht
        obtain ⟨-, hall⟩ := hright inst client sid pc l ht
        show l.replies = []
        by_contra hne
        obtain ⟨reply, rest, hcons⟩ := List.exists_cons_of_ne_nil hne
        -- the first reply, and the datagram it is for
        obtain ⟨datagram, -, hone, -, -⟩ := List.forall₂_cons_right_iff.mp (hcons ▸ hall)
        have hown : reply ∈ (l.received.take l.replies.length).map
            (owed D inst client l.socket) := by
          rw [← hreplies, hcons]
          exact List.mem_cons_self
        obtain ⟨d, -, rfl⟩ := List.mem_map.mp hown
        exact absurd hone.socket hsocket.ne'
    | _ => rfl
  · intro hnone inst client sid pc l ht
    obtain ⟨-, -, -, hlength, -⟩ := listener_replies hrun ht
    have hnil : l.replies = [] := hnone _ ht
    exact ⟨hlength, by simp [hnil]⟩

end run

end wired

/-! ## One answer of the upstream -/

/-- A result of the operating system with what comes with it. -/
def arriving (x : Arrival) : Sched Event → Sched (Event × Arrival)
  | .task i e => .task i (e, x)
  | .env e => .env (e, x)

/-- A client's datagram makes a session, and its listener, the task 3, receives one byte. -/
def answered : List (Sched (Event × Arrival)) :=
  List.map (arriving ⟨[7], 40000⟩) (starts 0 0 ++ [.task 0 (.packet exampleClient [1])] ++
    connects 2 ++ [.task 3 (.received 1)])

/-- A run of the example. -/
def exampleRun (es : List (Sched (Event × Arrival))) :
    Option (Pool (Shared × Wire) (Task × Locals)) :=
  (wiredMachine ℚ exampleDeployment).run (wiredInitial exampleHeap exampleRouters) es

/-- As long as the listener has not replied, nothing is wrong. -/
theorem replies_right_iff_answered : ∃ p, exampleRun answered = some p ∧
    RepliesRight exampleDeployment p := by
  have hsent : (exampleRun answered).map (fun p => p.tasks.map sentBy) = some [[], [], [], []] := by
    decide +kernel
  obtain ⟨p, hrun, hsent⟩ := Option.map_eq_some_iff.mp hsent
  refine ⟨p, hrun, (replies_right_iff _ _ _ p hrun).mpr ((sentBy_nil_iff hrun).mp fun t ht => ?_)⟩
  have hmem := List.mem_map_of_mem (f := sentBy) ht
  rw [hsent] at hmem
  simpa using hmem

/-- The client has sent to the socket 0, and the reply comes from the socket 1. -/
theorem reply_from_elsewhere : ∃ p l,
    exampleRun (answered ++ [.task 3 (.sent 1, ⟨[], 0⟩)]) = some p ∧
      p.tasks[3]? = some (.listener 0 exampleClient 0 .touching, l) ∧ l.arrival = 0 ∧
      l.received = [[7]] ∧ l.replies = [⟨1, exampleClient, [7]⟩] ∧
      ¬ RepliesRight exampleDeployment p := by
  have hlast : (exampleRun (answered ++ [.task 3 (.sent 1, ⟨[], 0⟩)])).bind
      (fun p => (p.tasks[3]?).map fun t => (t.1, t.2.arrival, t.2.received, t.2.replies)) =
      some (.listener 0 exampleClient 0 .touching, 0, [[7]], [⟨1, exampleClient, [7]⟩]) := by
    decide +kernel
  obtain ⟨p, hrun, hlast⟩ := Option.bind_eq_some_iff.mp hlast
  obtain ⟨⟨t, l⟩, ht, hlast⟩ := Option.map_eq_some_iff.mp hlast
  obtain ⟨rfl, harrival, hreceived, hreplies⟩ : _ ∧ _ ∧ _ ∧ _ := by simpa using hlast
  refine ⟨p, l, hrun, ht, harrival, hreceived, hreplies, fun hright => ?_⟩
  obtain ⟨-, hall⟩ := hright _ _ _ _ l (List.mem_of_getElem? ht)
  rw [hreceived, hreplies] at hall
  obtain ⟨_, _, hone, -, -⟩ := List.forall₂_cons_right_iff.mp hall
  exact absurd (hone.socket.trans harrival) (by decide)

end HarbrRouter.Proxy.Udp
