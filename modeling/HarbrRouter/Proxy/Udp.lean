import HarbrRouter.Lib.TaskPool
import HarbrRouter.Routing.Selection
import Mathlib.Data.List.AList

/-!
# The UDP proxy

`proxy/udp.rs`: one `UdpProxy` and everything that runs on it: the start task of each instance, a
handler for each datagram, a listener for each session, a cleanup task for each started instance and
the readers of the metrics. They share the sessions map, the session objects and the counters; each
step of a task is one operation on the map, one atomic operation, one await or one result of the
operating system.

The sessions map is a `DashMap`: `get` and `iter` keep the read lock of a shard until their guard is
dropped, and whoever removes or inserts waits until no task holds a guard of that shard
(`Task.readGuard`, `guarded`).

What is proved of a step elsewhere goes by cases on the kind of the task and its program point
(`TaskStep`, `Task.step_inv`). One case never comes up: the removal in a handler waits for the
handler's own guard (`guarded_of_removing`).
-/

set_option autoImplicit false

namespace HarbrRouter.Proxy.Udp

open Transition TaskPool PointRing Routing

/-! ## Sessions and counters -/

/-- A UDP session. The `Arc`s inside are shared by all clones, so that a clone is its number.
Source: `proxy/udp.rs`, `UdpSession` -/
structure UdpSession where
  upstream : UpstreamRef
  /-- Nanoseconds, like every instant here. -/
  lastActivity : ℕ
  createdAt : ℕ
  bytesSent : ℕ
  bytesReceived : ℕ
  /-- The instance whose handler created the session; the code keeps no such field. -/
  createdBy : ℕ
deriving DecidableEq

/-- Source: `proxy/udp.rs`, `UdpProxyMetrics` -/
structure UdpProxyMetrics where
  packetsTotal : ℕ
  sessionsActive : ℕ
  bytesSent : ℕ
  bytesReceived : ℕ
  sessionsCreated : ℕ
  sessionsExpired : ℕ
deriving DecidableEq

namespace UdpSession

/-- Source: `proxy/udp.rs`, `UdpSession::new`, once the socket is connected -/
def new (upstream : UpstreamRef) (now createdBy : ℕ) : UdpSession :=
  ⟨upstream, now, now, 0, 0, createdBy⟩

/-- Source: `proxy/udp.rs`, `UdpSession::touch` -/
def touch (s : UdpSession) (now : ℕ) : UdpSession := { s with lastActivity := now }

/-- Source: `proxy/udp.rs`, `UdpSession::is_expired` -/
def isExpired (s : UdpSession) (timeoutSecs now : ℕ) : Bool :=
  timeoutSecs * 10 ^ 9 < now - s.lastActivity

/-- Source: `proxy/udp.rs`, `UdpSession::record_bytes_sent` -/
def recordBytesSent (s : UdpSession) (bytes : ℕ) : UdpSession :=
  { s with bytesSent := wrappingAdd s.bytesSent bytes }

/-- Source: `proxy/udp.rs`, `UdpSession::record_bytes_received` -/
def recordBytesReceived (s : UdpSession) (bytes : ℕ) : UdpSession :=
  { s with bytesReceived := wrappingAdd s.bytesReceived bytes }

end UdpSession

/-- The sessions map. -/
abbrev Sessions := AList fun _ : SocketAddr => ℕ

/-- What the tasks share. -/
structure Shared where
  now : ℕ
  heap : Heap
  /-- The router of each instance. -/
  routers : ℕ → Router
  sessions : Sessions
  /-- The session objects, by number. -/
  objects : List UdpSession
  metrics : UdpProxyMetrics
  /-- The datagrams sent so far: the instance that received each, its client and the upstream. -/
  forwarded : List (ℕ × SocketAddr × UpstreamRef)

/-- A new proxy. Source: `proxy/udp.rs`, `UdpProxy::new` -/
def Shared.new (heap : Heap) (routers : ℕ → Router) : Shared :=
  ⟨0, heap, routers, ∅, [], ⟨0, 0, 0, 0, 0, 0⟩, []⟩

namespace Shared

/-- Change the counters. -/
def count (sh : Shared) (f : UdpProxyMetrics → UdpProxyMetrics) : Shared :=
  { sh with metrics := f sh.metrics }

/-- `packets_total.fetch_add(1)` -/
def countPacket (sh : Shared) : Shared :=
  sh.count fun m => { m with packetsTotal := wrappingAdd m.packetsTotal 1 }

/-- `sessions_created.fetch_add(1)` -/
def countCreated (sh : Shared) : Shared :=
  sh.count fun m => { m with sessionsCreated := wrappingAdd m.sessionsCreated 1 }

/-- `sessions_expired.fetch_add(1)` -/
def countExpired (sh : Shared) : Shared :=
  sh.count fun m => { m with sessionsExpired := wrappingAdd m.sessionsExpired 1 }

/-- `sessions_active.fetch_add(1)` -/
def incActive (sh : Shared) : Shared :=
  sh.count fun m => { m with sessionsActive := wrappingAdd m.sessionsActive 1 }

/-- `sessions_active.fetch_sub(1)` -/
def decActive (sh : Shared) : Shared :=
  sh.count fun m => { m with sessionsActive := wrappingSub m.sessionsActive 1 }

/-- Counting leaves the map alone. -/
@[simp] theorem count_sessions (sh : Shared) (f : UdpProxyMetrics → UdpProxyMetrics) :
    (sh.count f).sessions = sh.sessions := by
  cases sh
  rfl

/-- Counting changes the counters. -/
@[simp] theorem count_metrics (sh : Shared) (f : UdpProxyMetrics → UdpProxyMetrics) :
    (sh.count f).metrics = f sh.metrics := by
  cases sh
  rfl

/-- Counting leaves the session objects alone. -/
@[simp] theorem count_objects (sh : Shared) (f : UdpProxyMetrics → UdpProxyMetrics) :
    (sh.count f).objects = sh.objects := by
  cases sh
  rfl

/-- Counting leaves the upstreams alone. -/
@[simp] theorem count_heap (sh : Shared) (f : UdpProxyMetrics → UdpProxyMetrics) :
    (sh.count f).heap = sh.heap := by
  cases sh
  rfl

/-- Counting leaves the routers alone. -/
@[simp] theorem count_routers (sh : Shared) (f : UdpProxyMetrics → UdpProxyMetrics) :
    (sh.count f).routers = sh.routers := by
  cases sh
  rfl

/-- Counting takes no time. -/
@[simp] theorem count_now (sh : Shared) (f : UdpProxyMetrics → UdpProxyMetrics) :
    (sh.count f).now = sh.now := by
  cases sh
  rfl

/-- Change a session object. -/
def modifySession (sh : Shared) (sid : ℕ) (f : UdpSession → UdpSession) : Shared :=
  { sh with objects := sh.objects.modify sid f }

/-- Changing a session object leaves the map alone. -/
@[simp] theorem modifySession_sessions (sh : Shared) (sid : ℕ) (f : UdpSession → UdpSession) :
    (sh.modifySession sid f).sessions = sh.sessions := rfl

/-- Changing a session object leaves the counters alone. -/
@[simp] theorem modifySession_metrics (sh : Shared) (sid : ℕ) (f : UdpSession → UdpSession) :
    (sh.modifySession sid f).metrics = sh.metrics := rfl

/-- `session.is_expired(timeout)`; a number without an object does not occur. -/
def isExpired (sh : Shared) (sid timeoutSecs : ℕ) : Bool :=
  (sh.objects[sid]?).any fun s => s.isExpired timeoutSecs sh.now

end Shared

/-! ## Tasks -/

/-- A handler of one datagram. Source: `proxy/udp.rs`, `UdpProxy::handle_client_packet` and
`UdpProxy::get_or_create_session` -/
inductive HandlerPc where
  /-- `packets_total.fetch_add(1)` -/
  | start
  /-- `ctx.sessions.get(&client_addr)` -/
  | lookup
  /-- `session.is_expired(session_timeout)`, with the guard of the lookup -/
  | checking (sid : ℕ)
  /-- `ctx.sessions.remove(&client_addr)`, with the guard of the lookup -/
  | removing
  /-- `sessions_expired.fetch_add(1)`, with the guard of the lookup -/
  | countExpired
  /-- `sessions_active.fetch_sub(1)`, with the guard of the lookup -/
  | decActive
  /-- `ctx.router.select_upstream(..)` -/
  | selecting
  /-- `UdpSession::new(upstream)` -/
  | connecting (upstream : UpstreamRef)
  /-- `Self::start_upstream_listener(..)` -/
  | startListener (sid : ℕ)
  /-- `ctx.sessions.insert(..)` -/
  | inserting (sid : ℕ)
  /-- `sessions_created.fetch_add(1)` -/
  | countCreated (sid : ℕ)
  /-- `sessions_active.fetch_add(1)` -/
  | incActive (sid : ℕ)
  /-- `session.touch()` -/
  | touching (sid : ℕ)
  /-- `Self::forward_to_upstream(..)` -/
  | forwarding (sid : ℕ)
  | finished (result : Result Unit)
deriving DecidableEq

/-- The listener of one session. Source: `proxy/udp.rs`, `UdpProxy::start_upstream_listener` -/
inductive ListenerPc where
  /-- `session.upstream_socket.recv(..)` -/
  | receiving
  /-- `server_socket.send_to(.., client_addr)` -/
  | sending
  /-- `session.touch()` -/
  | touching
  /-- `session.is_expired(session_timeout)` -/
  | checking
  /-- `ctx.sessions.remove(&client_addr)` -/
  | removing
  /-- `sessions_expired.fetch_add(1)` -/
  | countExpired
  /-- `sessions_active.fetch_sub(1)` -/
  | decActive
  | stopped
deriving DecidableEq

/-- The cleanup task of an instance. Source: `proxy/udp.rs`, `UdpProxy::run_session_cleanup` -/
inductive CleanupPc where
  /-- `cleanup_interval.tick()` -/
  | waiting
  /-- The iterator moves on to a shard. -/
  | entering (shard : ℕ) (expired : List SocketAddr)
  /-- The iterator is in a shard, with its guard; `rest` is not yet checked. -/
  | sweeping (shard : ℕ) (rest expired : List SocketAddr)
  /-- `ctx.sessions.remove(&client_addr)` for each of the expired clients -/
  | removing (expired : List SocketAddr)
  /-- `sessions_expired.fetch_add(1)` -/
  | countExpired (expired : List SocketAddr)
  /-- `sessions_active.fetch_sub(1)` -/
  | decActive (expired : List SocketAddr)
deriving DecidableEq

/-- The start task of an instance. Source: `proxy/udp.rs`, `UdpProxy::start` -/
inductive ServerPc where
  /-- `UdpSocket::bind(config.listen_addr)` -/
  | binding
  /-- The packet loop. -/
  | serving
  /-- `self.sessions.clear()`, at a shard -/
  | clearing (shard : ℕ)
  | finished (result : Result Unit)
deriving DecidableEq

/-- A reader of the metrics. Source: `proxy/udp.rs`, `UdpProxy::get_metrics` -/
inductive ReaderPc where
  | loadPackets
  | loadActive (packets : ℕ)
  | loadCreated (packets active : ℕ)
  | loadExpired (packets active created : ℕ)
  /-- All four values are loaded; `created - expired` is computed when `created > 0`. -/
  | loaded (packets active created expired : ℕ)
deriving DecidableEq

/-- A task on the proxy. -/
inductive Task where
  | handler (inst : ℕ) (client : SocketAddr) (data : List UInt8) (pc : HandlerPc)
  | listener (inst : ℕ) (client : SocketAddr) (sid : ℕ) (pc : ListenerPc)
  | cleanup (inst : ℕ) (pc : CleanupPc)
  | server (inst : ℕ) (pc : ServerPc)
  | reader (pc : ReaderPc)
deriving DecidableEq

/-- A step of the code, a result of the operating system, or an event of the environment. -/
inductive Event where
  | step
  | bound
  | bindFailed (e : String)
  | addressInvalid (e : Error)
  | connected
  | connectFailed (e : String)
  | sent (bytes : ℕ)
  | sendFailed (e : String)
  | timedOut
  | received (bytes : ℕ)
  | recvFailed
  | tick
  /-- The order in which the iterator visits a shard. -/
  | order (clients : List SocketAddr)
  | packet (client : SocketAddr) (data : List UInt8)
  | shutdown
  /-- The clock advances. -/
  | advance (ns : ℕ)
  /-- An instance is started. -/
  | startInstance (inst : ℕ)
  /-- The metrics are read. -/
  | getMetrics

/-! ## Locks -/

/-- What the proxy runs with. -/
structure Deployment where
  /-- The configuration of each instance. -/
  config : ℕ → ProxyInstanceConfig
  /-- The shard of a key of the map. -/
  shardOf : SocketAddr → ℕ
  shardCount : ℕ
  shardOf_lt : ∀ client, shardOf client < shardCount
  hashKey : String → U64
  search : BinarySearch U64

/-- `config.session_timeout_secs` of an instance. -/
def Deployment.timeoutSecs (D : Deployment) (inst : ℕ) : ℕ :=
  (D.config inst).config.udp.sessionTimeoutSecs

/-- `config.buffer_size` of an instance. -/
def Deployment.bufferSize (D : Deployment) (inst : ℕ) : ℕ := (D.config inst).config.udp.bufferSize

section steps

variable (F : Type) [ScoreArith F] (D : Deployment)

/-- The shard of which a task holds a read guard. -/
def Task.readGuard : Task → Option ℕ
  | .handler _ client _ (.checking _) | .handler _ client _ .removing
  | .handler _ client _ .countExpired | .handler _ client _ .decActive => some (D.shardOf client)
  | .cleanup _ (.sweeping shard _ _) => some shard
  | _ => none

/-- The shard to which a task asks for exclusive access. -/
def Task.wantsWrite : Task → Option ℕ
  | .handler _ client _ .removing | .handler _ client _ (.inserting _)
  | .listener _ client _ .removing => some (D.shardOf client)
  | .cleanup _ (.removing (client :: _)) => some (D.shardOf client)
  | .server _ (.clearing shard) => some shard
  | _ => none

/-- Does some task hold a read guard of the shard? -/
def guarded (tasks : List Task) (shard : ℕ) : Bool :=
  tasks.any fun t => t.readGuard D = some shard

/-! ## Steps -/

/-- Source: `proxy/udp.rs`, `UdpProxy::handle_client_packet`, `UdpProxy::get_or_create_session`,
`UdpSession::new` and `UdpProxy::forward_to_upstream`. Where the bind of a listener's socket fails
the `unwrap` aborts the process, so that there is no such step. -/
def HandlerPc.step (tasks : List Task) (sh : Shared) (inst : ℕ) (client : SocketAddr) :
    HandlerPc → Event → Option (Shared × HandlerPc × List Task)
  | .start, .step => some (sh.countPacket, .lookup, [])
  | .lookup, .step =>
      match sh.sessions.lookup client with
      | some sid => some (sh, .checking sid, [])
      | none => some (sh, .selecting, [])
  | .checking sid, .step =>
      if sh.isExpired sid (D.timeoutSecs inst) then some (sh, .removing, [])
      else some (sh, .touching sid, [])
  | .removing, .step =>
      if guarded D tasks (D.shardOf client) then none
      else some ({ sh with sessions := sh.sessions.erase client }, .countExpired, [])
  | .countExpired, .step => some (sh.countExpired, .decActive, [])
  | .decActive, .step => some (sh.decActive, .selecting, [])
  | .selecting, .step =>
      let (router, upstream) := (sh.routers inst).selectUpstream F D.hashKey D.search sh.heap
        (some client.display)
      let sh := { sh with routers := Function.update sh.routers inst router }
      match upstream with
      | some upstream => some (sh, .connecting upstream, [])
      | none =>
          some (sh, .finished
            (.error (.proxy "No healthy upstream available" "udp" "unknown")), [])
  | .connecting _, .addressInvalid e => some (sh, .finished (.error e), [])
  | .connecting _, .bindFailed e =>
      some (sh, .finished (.error
        (.network ("Failed to create upstream socket: " ++ e) .connectionFailed)), [])
  | .connecting _, .connectFailed e =>
      some (sh, .finished (.error
        (.network ("Failed to connect to upstream: " ++ e) .connectionFailed)), [])
  | .connecting upstream, .connected =>
      some ({ sh with objects := sh.objects ++ [.new upstream sh.now inst] },
        .startListener sh.objects.length, [])
  | .startListener sid, .bound =>
      some (sh, .inserting sid, [.listener inst client sid .receiving])
  | .inserting sid, .step =>
      if guarded D tasks (D.shardOf client) then none
      else some ({ sh with sessions := sh.sessions.insert client sid }, .countCreated sid, [])
  | .countCreated sid, .step => some (sh.countCreated, .incActive sid, [])
  | .incActive sid, .step => some (sh.incActive, .touching sid, [])
  | .touching sid, .step =>
      some (sh.modifySession sid fun s => s.touch sh.now, .forwarding sid, [])
  | .forwarding sid, .sent bytes =>
      (sh.objects[sid]?).map fun s =>
        let sh := sh.modifySession sid fun s => s.recordBytesSent bytes
        let sh := sh.count fun m => { m with bytesSent := wrappingAdd m.bytesSent bytes }
        ({ sh with forwarded := sh.forwarded ++ [(inst, client, s.upstream)] },
          .finished (.ok ()), [])
  | .forwarding sid, .sendFailed e =>
      (sh.objects[sid]?).map fun s =>
        let name := (sh.heap.get s.upstream).config.name
        let heap := sh.heap.modify s.upstream fun u =>
          { u with stats := u.stats.recordFailure sh.now }
        ({ sh with heap }, .finished (.error
          (.network ("Failed to send to upstream '" ++ name ++ "': " ++ e) .connectionFailed)), [])
  | .forwarding sid, .timedOut =>
      (sh.objects[sid]?).map fun s =>
        let name := (sh.heap.get s.upstream).config.name
        let heap := sh.heap.modify s.upstream fun u =>
          { u with stats := u.stats.recordFailure sh.now }
        ({ sh with heap }, .finished (.error
          (.network ("Timeout sending to upstream '" ++ name ++ "'") .timeout)), [])
  | _, _ => none

/-- Source: `proxy/udp.rs`, `UdpProxy::start_upstream_listener` -/
def ListenerPc.step (tasks : List Task) (sh : Shared) (inst : ℕ) (client : SocketAddr) (sid : ℕ) :
    ListenerPc → Event → Option (Shared × ListenerPc)
  | .receiving, .received bytes =>
      if bytes ≤ D.bufferSize inst then
        let sh := sh.modifySession sid fun s => s.recordBytesReceived bytes
        some (sh.count fun m => { m with bytesReceived := wrappingAdd m.bytesReceived bytes },
          .sending)
      else none
  | .receiving, .recvFailed => some (sh, .stopped)
  | .sending, .sent _ => some (sh, .touching)
  | .sending, .sendFailed _ => some (sh, .stopped)
  | .touching, .step => some (sh.modifySession sid fun s => s.touch sh.now, .checking)
  | .checking, .step =>
      if sh.isExpired sid (D.timeoutSecs inst) then some (sh, .removing)
      else some (sh, .receiving)
  | .removing, .step =>
      -- the removal is counted whether or not there was anything to remove
      if guarded D tasks (D.shardOf client) then none
      else some ({ sh with sessions := sh.sessions.erase client }, .countExpired)
  | .countExpired, .step => some (sh.countExpired, .decActive)
  | .decActive, .step => some (sh.decActive, .stopped)
  | _, _ => none

/-- Source: `proxy/udp.rs`, `UdpProxy::run_session_cleanup` -/
def CleanupPc.step (tasks : List Task) (sh : Shared) (inst : ℕ) :
    CleanupPc → Event → Option (Shared × CleanupPc)
  | .waiting, .tick => some (sh, .entering 0 [])
  | .entering shard expired, .order clients =>
      if shard < D.shardCount ∧
          clients.Perm (sh.sessions.keys.filter fun c => D.shardOf c = shard) then
        some (sh, .sweeping shard clients expired)
      else none
  | .entering shard expired, .step =>
      if shard < D.shardCount then none else some (sh, .removing expired)
  | .sweeping shard (client :: rest) expired, .step =>
      if (sh.sessions.lookup client).any fun sid =>
          sh.isExpired sid (D.timeoutSecs inst) then
        some (sh, .sweeping shard rest (expired ++ [client]))
      else some (sh, .sweeping shard rest expired)
  | .sweeping shard [] expired, .step => some (sh, .entering (shard + 1) expired)
  | .removing (client :: expired), .step =>
      if guarded D tasks (D.shardOf client) then none
      else if client ∈ sh.sessions then
        some ({ sh with sessions := sh.sessions.erase client }, .countExpired expired)
      else some (sh, .removing expired)
  | .removing [], .step => some (sh, .waiting)
  | .countExpired expired, .step => some (sh.countExpired, .decActive expired)
  | .decActive expired, .step => some (sh.decActive, .removing expired)
  | _, _ => none

/-- The part of the map outside a shard. -/
def clearShard (sessions : Sessions) (shard : ℕ) : Sessions :=
  (sessions.keys.filter fun c => D.shardOf c = shard).foldl (fun m c => m.erase c) sessions

/-- Source: `proxy/udp.rs`, `UdpProxy::start` -/
def ServerPc.step (tasks : List Task) (sh : Shared) (inst : ℕ) :
    ServerPc → Event → Option (Shared × ServerPc × List Task)
  | .binding, .bound => some (sh, .serving, [.cleanup inst .waiting])
  | .binding, .bindFailed e =>
      let listenAddr := (D.config inst).listenAddr.display
      some (sh, .finished (.error
        (.network ("Failed to bind UDP socket to " ++ listenAddr ++ ": " ++ e)
          .connectionFailed)), [])
  | .serving, .packet client data =>
      some (sh, .serving, [.handler inst client (data.take (D.bufferSize inst)) .start])
  | .serving, .recvFailed => some (sh, .serving, [])
  | .serving, .shutdown => some (sh, .clearing 0, [])
  | .clearing shard, .step =>
      if shard < D.shardCount then
        if guarded D tasks shard then none
        else
          some ({ sh with sessions := clearShard D sh.sessions shard }, .clearing (shard + 1), [])
      else some (sh, .finished (.ok ()), [])
  | _, _ => none

/-- Source: `proxy/udp.rs`, `UdpProxy::get_metrics` -/
def ReaderPc.step (sh : Shared) : ReaderPc → Event → Option ReaderPc
  | .loadPackets, .step => some (.loadActive sh.metrics.packetsTotal)
  | .loadActive packets, .step => some (.loadCreated packets sh.metrics.sessionsActive)
  | .loadCreated packets active, .step =>
      some (.loadExpired packets active sh.metrics.sessionsCreated)
  | .loadExpired packets active created, .step =>
      some (.loaded packets active created sh.metrics.sessionsExpired)
  | _, _ => none

/-- One step of a task beside the others. -/
def Task.step (tasks : List Task) (sh : Shared) (e : Event) :
    Task → Option (Shared × Task × List Task)
  | .handler inst client data pc =>
      (pc.step F D tasks sh inst client e).map fun r =>
        (r.1, .handler inst client data r.2.1, r.2.2)
  | .listener inst client sid pc =>
      (pc.step D tasks sh inst client sid e).map fun r => (r.1, .listener inst client sid r.2, [])
  | .cleanup inst pc =>
      (pc.step D tasks sh inst e).map fun r => (r.1, .cleanup inst r.2, [])
  | .server inst pc =>
      (pc.step D tasks sh inst e).map fun r => (r.1, .server inst r.2.1, r.2.2)
  | .reader pc => (pc.step sh e).map fun r => (sh, .reader r, [])

/-- The proxy: its tasks, the clock, the instances that are started and the metrics reads. -/
def system : System Shared Task Event where
  act tasks sh t e := t.step F D tasks sh e
  env sh
    | .advance ns => some ({ sh with now := sh.now + ns }, [])
    | .startInstance inst => some (sh, [.server inst .binding])
    | .getMetrics => some (sh, [.reader .loadPackets])
    | _ => none

/-- The machine of the interleavings. -/
abbrev machine : Machine (Pool Shared Task) (Sched Event) := (system F D).machine

/-- A new proxy without tasks. -/
def initial (heap : Heap) (routers : ℕ → Router) : Pool Shared Task := ⟨.new heap routers, []⟩

/-! ## What a step does -/

/-- The steps of a handler, one constructor for each way on. -/
inductive HandlerStep (tasks : List Task) (sh : Shared) (inst : ℕ) (client : SocketAddr) :
    HandlerPc → Event → Shared → HandlerPc → List Task → Prop
  | start : HandlerStep tasks sh inst client .start .step sh.countPacket .lookup []
  | found {sid : ℕ} (h : sh.sessions.lookup client = some sid) :
      HandlerStep tasks sh inst client .lookup .step sh (.checking sid) []
  | missing (h : client ∉ sh.sessions) :
      HandlerStep tasks sh inst client .lookup .step sh .selecting []
  | expired {sid : ℕ} (h : sh.isExpired sid (D.timeoutSecs inst) = true) :
      HandlerStep tasks sh inst client (.checking sid) .step sh .removing []
  | live {sid : ℕ} (h : sh.isExpired sid (D.timeoutSecs inst) = false) :
      HandlerStep tasks sh inst client (.checking sid) .step sh (.touching sid) []
  | remove (h : guarded D tasks (D.shardOf client) = false) :
      HandlerStep tasks sh inst client .removing .step
        { sh with sessions := sh.sessions.erase client } .countExpired []
  | countExpired :
      HandlerStep tasks sh inst client .countExpired .step sh.countExpired .decActive []
  | decActive : HandlerStep tasks sh inst client .decActive .step sh.decActive .selecting []
  | selected {router : Router} {upstream : UpstreamRef}
      (h : (sh.routers inst).selectUpstream F D.hashKey D.search sh.heap (some client.display) =
        (router, some upstream)) :
      HandlerStep tasks sh inst client .selecting .step
        { sh with routers := Function.update sh.routers inst router } (.connecting upstream) []
  | noUpstream {router : Router} {result : Result Unit}
      (h : (sh.routers inst).selectUpstream F D.hashKey D.search sh.heap (some client.display) =
        (router, none)) :
      HandlerStep tasks sh inst client .selecting .step
        { sh with routers := Function.update sh.routers inst router } (.finished result) []
  | notConnected {upstream : UpstreamRef} {e : Event} {result : Result Unit} :
      HandlerStep tasks sh inst client (.connecting upstream) e sh (.finished result) []
  | connected {upstream : UpstreamRef} :
      HandlerStep tasks sh inst client (.connecting upstream) .connected
        { sh with objects := sh.objects ++ [.new upstream sh.now inst] }
        (.startListener sh.objects.length) []
  | listen {sid : ℕ} :
      HandlerStep tasks sh inst client (.startListener sid) .bound sh (.inserting sid)
        [.listener inst client sid .receiving]
  | insert {sid : ℕ} (h : guarded D tasks (D.shardOf client) = false) :
      HandlerStep tasks sh inst client (.inserting sid) .step
        { sh with sessions := sh.sessions.insert client sid } (.countCreated sid) []
  | countCreated {sid : ℕ} :
      HandlerStep tasks sh inst client (.countCreated sid) .step sh.countCreated (.incActive sid) []
  | incActive {sid : ℕ} :
      HandlerStep tasks sh inst client (.incActive sid) .step sh.incActive (.touching sid) []
  | touch {sid : ℕ} :
      HandlerStep tasks sh inst client (.touching sid) .step
        (sh.modifySession sid fun s => s.touch sh.now) (.forwarding sid) []
  | forward {sid bytes : ℕ} {s : UdpSession} {sh' : Shared} (h : sh.objects[sid]? = some s)
      (hsh : sh' = (sh.modifySession sid fun s => s.recordBytesSent bytes).count fun m =>
        { m with bytesSent := wrappingAdd m.bytesSent bytes }) :
      HandlerStep tasks sh inst client (.forwarding sid) (.sent bytes)
        { sh' with forwarded := sh.forwarded ++ [(inst, client, s.upstream)] }
        (.finished (.ok ())) []
  | notForwarded {sid : ℕ} {e : Event} {heap : Heap} {result : Result Unit} :
      HandlerStep tasks sh inst client (.forwarding sid) e { sh with heap } (.finished result) []

/-- The steps of a listener. -/
inductive ListenerStep (tasks : List Task) (sh : Shared) (inst : ℕ) (client : SocketAddr)
    (sid : ℕ) : ListenerPc → Event → Shared → ListenerPc → Prop
  | received {bytes : ℕ} :
      ListenerStep tasks sh inst client sid .receiving (.received bytes)
        ((sh.modifySession sid fun s => s.recordBytesReceived bytes).count fun m =>
          { m with bytesReceived := wrappingAdd m.bytesReceived bytes }) .sending
  | failed {pc : ListenerPc} {e : Event} (h : pc = .receiving ∨ pc = .sending) :
      ListenerStep tasks sh inst client sid pc e sh .stopped
  | sent {bytes : ℕ} :
      ListenerStep tasks sh inst client sid .sending (.sent bytes) sh .touching
  | touch :
      ListenerStep tasks sh inst client sid .touching .step
        (sh.modifySession sid fun s => s.touch sh.now) .checking
  | expired (h : sh.isExpired sid (D.timeoutSecs inst) = true) :
      ListenerStep tasks sh inst client sid .checking .step sh .removing
  | live (h : sh.isExpired sid (D.timeoutSecs inst) = false) :
      ListenerStep tasks sh inst client sid .checking .step sh .receiving
  | remove (h : guarded D tasks (D.shardOf client) = false) :
      ListenerStep tasks sh inst client sid .removing .step
        { sh with sessions := sh.sessions.erase client } .countExpired
  | countExpired :
      ListenerStep tasks sh inst client sid .countExpired .step sh.countExpired .decActive
  | decActive : ListenerStep tasks sh inst client sid .decActive .step sh.decActive .stopped

/-- The steps of a cleanup task. -/
inductive CleanupStep (tasks : List Task) (sh : Shared) :
    CleanupPc → Event → Shared → CleanupPc → Prop
  | tick : CleanupStep tasks sh .waiting .tick sh (.entering 0 [])
  | enter {shard : ℕ} {expired clients : List SocketAddr} :
      CleanupStep tasks sh (.entering shard expired) (.order clients) sh
        (.sweeping shard clients expired)
  | swept {shard : ℕ} {expired : List SocketAddr} :
      CleanupStep tasks sh (.entering shard expired) .step sh (.removing expired)
  | check {shard : ℕ} {client : SocketAddr} {rest expired expired' : List SocketAddr} :
      CleanupStep tasks sh (.sweeping shard (client :: rest) expired) .step sh
        (.sweeping shard rest expired')
  | leave {shard : ℕ} {expired : List SocketAddr} :
      CleanupStep tasks sh (.sweeping shard [] expired) .step sh (.entering (shard + 1) expired)
  | remove {client : SocketAddr} {expired : List SocketAddr} (h : client ∈ sh.sessions)
      (hguard : guarded D tasks (D.shardOf client) = false) :
      CleanupStep tasks sh (.removing (client :: expired)) .step
        { sh with sessions := sh.sessions.erase client } (.countExpired expired)
  | gone {client : SocketAddr} {expired : List SocketAddr} (h : client ∉ sh.sessions) :
      CleanupStep tasks sh (.removing (client :: expired)) .step sh (.removing expired)
  | removed : CleanupStep tasks sh (.removing []) .step sh .waiting
  | countExpired {expired : List SocketAddr} :
      CleanupStep tasks sh (.countExpired expired) .step sh.countExpired (.decActive expired)
  | decActive {expired : List SocketAddr} :
      CleanupStep tasks sh (.decActive expired) .step sh.decActive (.removing expired)

/-- The steps of a start task. -/
inductive ServerStep (tasks : List Task) (sh : Shared) (inst : ℕ) :
    ServerPc → Event → Shared → ServerPc → List Task → Prop
  | bound : ServerStep tasks sh inst .binding .bound sh .serving [.cleanup inst .waiting]
  | packet {client : SocketAddr} {data data' : List UInt8} :
      ServerStep tasks sh inst .serving (.packet client data) sh .serving
        [.handler inst client data' .start]
  | other {pc pc' : ServerPc} {e : Event} : ServerStep tasks sh inst pc e sh pc' []
  | clear {shard : ℕ} (h : guarded D tasks shard = false) :
      ServerStep tasks sh inst (.clearing shard) .step
        { sh with sessions := clearShard D sh.sessions shard } (.clearing (shard + 1)) []

/-- The steps of a task. -/
inductive TaskStep (tasks : List Task) (sh : Shared) :
    Task → Event → Shared → Task → List Task → Prop
  | handler {inst : ℕ} {client : SocketAddr} {data : List UInt8} {pc pc' : HandlerPc} {e : Event}
      {sh' : Shared} {new : List Task} (h : HandlerStep F D tasks sh inst client pc e sh' pc' new) :
      TaskStep tasks sh (.handler inst client data pc) e sh' (.handler inst client data pc') new
  | listener {inst : ℕ} {client : SocketAddr} {sid : ℕ} {pc pc' : ListenerPc} {e : Event}
      {sh' : Shared} (h : ListenerStep D tasks sh inst client sid pc e sh' pc') :
      TaskStep tasks sh (.listener inst client sid pc) e sh' (.listener inst client sid pc') []
  | cleanup {inst : ℕ} {pc pc' : CleanupPc} {e : Event} {sh' : Shared}
      (h : CleanupStep D tasks sh pc e sh' pc') :
      TaskStep tasks sh (.cleanup inst pc) e sh' (.cleanup inst pc') []
  | server {inst : ℕ} {pc pc' : ServerPc} {e : Event} {sh' : Shared} {new : List Task}
      (h : ServerStep D tasks sh inst pc e sh' pc' new) :
      TaskStep tasks sh (.server inst pc) e sh' (.server inst pc') new
  | reader {pc pc' : ReaderPc} {e : Event} (h : pc.step sh e = some pc') :
      TaskStep tasks sh (.reader pc) e sh (.reader pc') []

variable {F D}

/-- Every step of a handler is one of its ways on. -/
theorem HandlerPc.step_inv {tasks : List Task} {sh sh' : Shared} {inst : ℕ} {client : SocketAddr}
    {pc pc' : HandlerPc} {e : Event} {new : List Task}
    (h : pc.step F D tasks sh inst client e = some (sh', pc', new)) :
    HandlerStep F D tasks sh inst client pc e sh' pc' new := by
  unfold HandlerPc.step at h
  split at h
  · obtain ⟨rfl, rfl, rfl⟩ : _ ∧ _ ∧ _ := by simpa using h
    exact .start
  · split at h
    · next sid hsid =>
        obtain ⟨rfl, rfl, rfl⟩ : _ ∧ _ ∧ _ := by simpa using h
        exact .found hsid
    · next hnone =>
        obtain ⟨rfl, rfl, rfl⟩ : _ ∧ _ ∧ _ := by simpa using h
        exact .missing (AList.lookup_eq_none.mp hnone)
  · split_ifs at h with hexp
    · obtain ⟨rfl, rfl, rfl⟩ : _ ∧ _ ∧ _ := by simpa using h
      exact .expired hexp
    · obtain ⟨rfl, rfl, rfl⟩ : _ ∧ _ ∧ _ := by simpa using h
      exact .live (by simpa using hexp)
  · split_ifs at h with hguard
    obtain ⟨rfl, rfl, rfl⟩ : _ ∧ _ ∧ _ := by simpa using h
    exact .remove (by simpa using hguard)
  · obtain ⟨rfl, rfl, rfl⟩ : _ ∧ _ ∧ _ := by simpa using h
    exact .countExpired
  · obtain ⟨rfl, rfl, rfl⟩ : _ ∧ _ ∧ _ := by simpa using h
    exact .decActive
  · rcases hsel : (sh.routers inst).selectUpstream F D.hashKey D.search sh.heap
      (some client.display) with ⟨router, upstream⟩
    rw [hsel] at h
    cases upstream with
    | some upstream =>
        obtain ⟨rfl, rfl, rfl⟩ : _ ∧ _ ∧ _ := by simpa using h
        exact .selected hsel
    | none =>
        obtain ⟨rfl, rfl, rfl⟩ : _ ∧ _ ∧ _ := by simpa using h
        exact .noUpstream hsel
  · obtain ⟨rfl, rfl, rfl⟩ : _ ∧ _ ∧ _ := by simpa using h
    exact .notConnected
  · obtain ⟨rfl, rfl, rfl⟩ : _ ∧ _ ∧ _ := by simpa using h
    exact .notConnected
  · obtain ⟨rfl, rfl, rfl⟩ : _ ∧ _ ∧ _ := by simpa using h
    exact .notConnected
  · obtain ⟨rfl, rfl, rfl⟩ : _ ∧ _ ∧ _ := by simpa using h
    exact .connected
  · obtain ⟨rfl, rfl, rfl⟩ : _ ∧ _ ∧ _ := by simpa using h
    exact .listen
  · split_ifs at h with hguard
    obtain ⟨rfl, rfl, rfl⟩ : _ ∧ _ ∧ _ := by simpa using h
    exact .insert (by simpa using hguard)
  · obtain ⟨rfl, rfl, rfl⟩ : _ ∧ _ ∧ _ := by simpa using h
    exact .countCreated
  · obtain ⟨rfl, rfl, rfl⟩ : _ ∧ _ ∧ _ := by simpa using h
    exact .incActive
  · obtain ⟨rfl, rfl, rfl⟩ : _ ∧ _ ∧ _ := by simpa using h
    exact .touch
  · obtain ⟨s, hs, heq⟩ := Option.map_eq_some_iff.mp h
    obtain ⟨rfl, rfl, rfl⟩ : _ ∧ _ ∧ _ := by simpa using heq
    exact .forward hs rfl
  · obtain ⟨s, hs, heq⟩ := Option.map_eq_some_iff.mp h
    obtain ⟨rfl, rfl, rfl⟩ : _ ∧ _ ∧ _ := by simpa using heq
    exact .notForwarded
  · obtain ⟨s, hs, heq⟩ := Option.map_eq_some_iff.mp h
    obtain ⟨rfl, rfl, rfl⟩ : _ ∧ _ ∧ _ := by simpa using heq
    exact .notForwarded
  · exact absurd h (by simp)

/-- Every step of a listener is one of its ways on. -/
theorem ListenerPc.step_inv {tasks : List Task} {sh sh' : Shared} {inst : ℕ} {client : SocketAddr}
    {sid : ℕ} {pc pc' : ListenerPc} {e : Event}
    (h : pc.step D tasks sh inst client sid e = some (sh', pc')) :
    ListenerStep D tasks sh inst client sid pc e sh' pc' := by
  unfold ListenerPc.step at h
  split at h
  · split_ifs at h
    obtain ⟨rfl, rfl⟩ : _ ∧ _ := by simpa using h
    exact .received
  · obtain ⟨rfl, rfl⟩ : _ ∧ _ := by simpa using h
    exact .failed (Or.inl rfl)
  · obtain ⟨rfl, rfl⟩ : _ ∧ _ := by simpa using h
    exact .sent
  · obtain ⟨rfl, rfl⟩ : _ ∧ _ := by simpa using h
    exact .failed (Or.inr rfl)
  · obtain ⟨rfl, rfl⟩ : _ ∧ _ := by simpa using h
    exact .touch
  · split_ifs at h with hexp
    · obtain ⟨rfl, rfl⟩ : _ ∧ _ := by simpa using h
      exact .expired hexp
    · obtain ⟨rfl, rfl⟩ : _ ∧ _ := by simpa using h
      exact .live (by simpa using hexp)
  · split_ifs at h with hguard
    obtain ⟨rfl, rfl⟩ : _ ∧ _ := by simpa using h
    exact .remove (by simpa using hguard)
  · obtain ⟨rfl, rfl⟩ : _ ∧ _ := by simpa using h
    exact .countExpired
  · obtain ⟨rfl, rfl⟩ : _ ∧ _ := by simpa using h
    exact .decActive
  · exact absurd h (by simp)

/-- Every step of a cleanup task is one of its ways on. -/
theorem CleanupPc.step_inv {tasks : List Task} {sh sh' : Shared} {inst : ℕ} {pc pc' : CleanupPc}
    {e : Event} (h : pc.step D tasks sh inst e = some (sh', pc')) :
    CleanupStep D tasks sh pc e sh' pc' := by
  unfold CleanupPc.step at h
  split at h
  · obtain ⟨rfl, rfl⟩ : _ ∧ _ := by simpa using h
    exact .tick
  · split_ifs at h
    obtain ⟨rfl, rfl⟩ : _ ∧ _ := by simpa using h
    exact .enter
  · split_ifs at h
    obtain ⟨rfl, rfl⟩ : _ ∧ _ := by simpa using h
    exact .swept
  · split_ifs at h
    all_goals
      obtain ⟨rfl, rfl⟩ : _ ∧ _ := by simpa using h
      exact .check
  · obtain ⟨rfl, rfl⟩ : _ ∧ _ := by simpa using h
    exact .leave
  · split_ifs at h with hguard hmem
    · obtain ⟨rfl, rfl⟩ : _ ∧ _ := by simpa using h
      exact .remove hmem (by simpa using hguard)
    · obtain ⟨rfl, rfl⟩ : _ ∧ _ := by simpa using h
      exact .gone hmem
  · obtain ⟨rfl, rfl⟩ : _ ∧ _ := by simpa using h
    exact .removed
  · obtain ⟨rfl, rfl⟩ : _ ∧ _ := by simpa using h
    exact .countExpired
  · obtain ⟨rfl, rfl⟩ : _ ∧ _ := by simpa using h
    exact .decActive
  · exact absurd h (by simp)

/-- Every step of a start task is one of its ways on. -/
theorem ServerPc.step_inv {tasks : List Task} {sh sh' : Shared} {inst : ℕ} {pc pc' : ServerPc}
    {e : Event} {new : List Task} (h : pc.step D tasks sh inst e = some (sh', pc', new)) :
    ServerStep D tasks sh inst pc e sh' pc' new := by
  unfold ServerPc.step at h
  split at h
  · obtain ⟨rfl, rfl, rfl⟩ : _ ∧ _ ∧ _ := by simpa using h
    exact .bound
  · obtain ⟨rfl, rfl, rfl⟩ : _ ∧ _ ∧ _ := by simpa using h
    exact .other
  · obtain ⟨rfl, rfl, rfl⟩ : _ ∧ _ ∧ _ := by simpa using h
    exact .packet
  · obtain ⟨rfl, rfl, rfl⟩ : _ ∧ _ ∧ _ := by simpa using h
    exact .other
  · obtain ⟨rfl, rfl, rfl⟩ : _ ∧ _ ∧ _ := by simpa using h
    exact .other
  · split_ifs at h with hlt hguard
    · obtain ⟨rfl, rfl, rfl⟩ : _ ∧ _ ∧ _ := by simpa using h
      exact .clear (by simpa using hguard)
    · obtain ⟨rfl, rfl, rfl⟩ : _ ∧ _ ∧ _ := by simpa using h
      exact .other
  · exact absurd h (by simp)

/-- Every step of a task is one of its ways on. -/
theorem Task.step_inv {tasks : List Task} {sh sh' : Shared} {e : Event} {t t' : Task}
    {new : List Task} (h : t.step F D tasks sh e = some (sh', t', new)) :
    TaskStep F D tasks sh t e sh' t' new := by
  cases t with
  | handler inst client data pc =>
      obtain ⟨⟨sh₁, pc', new₁⟩, hpc, heq⟩ := Option.map_eq_some_iff.mp h
      obtain ⟨rfl, rfl, rfl⟩ : _ ∧ _ ∧ _ := by simpa using heq
      exact .handler (HandlerPc.step_inv hpc)
  | listener inst client sid pc =>
      obtain ⟨⟨sh₁, pc'⟩, hpc, heq⟩ := Option.map_eq_some_iff.mp h
      obtain ⟨rfl, rfl, rfl⟩ : _ ∧ _ ∧ _ := by simpa using heq
      exact .listener (ListenerPc.step_inv hpc)
  | cleanup inst pc =>
      obtain ⟨⟨sh₁, pc'⟩, hpc, heq⟩ := Option.map_eq_some_iff.mp h
      obtain ⟨rfl, rfl, rfl⟩ : _ ∧ _ ∧ _ := by simpa using heq
      exact .cleanup (CleanupPc.step_inv hpc)
  | server inst pc =>
      obtain ⟨⟨sh₁, pc', new₁⟩, hpc, heq⟩ := Option.map_eq_some_iff.mp h
      obtain ⟨rfl, rfl, rfl⟩ : _ ∧ _ ∧ _ := by simpa using heq
      exact .server (ServerPc.step_inv hpc)
  | reader pc =>
      obtain ⟨pc', hpc, heq⟩ := Option.map_eq_some_iff.mp h
      obtain ⟨rfl, rfl, rfl⟩ : _ ∧ _ ∧ _ := by simpa using heq
      exact .reader hpc

/-- What one step of the environment does: the clock advances, or a task comes in. -/
theorem env_cases {sh sh' : Shared} {e : Event} {new : List Task}
    (h : (system F D).env sh e = some (sh', new)) :
    (∃ ns, e = .advance ns ∧ sh' = { sh with now := sh.now + ns } ∧ new = []) ∨
      (∃ inst, e = .startInstance inst ∧ sh' = sh ∧ new = [.server inst .binding]) ∨
      (e = .getMetrics ∧ sh' = sh ∧ new = [.reader .loadPackets]) := by
  simp only [system] at h
  split at h
  · obtain ⟨rfl, rfl⟩ := Prod.mk.inj (Option.some.inj h)
    exact Or.inl ⟨_, rfl, rfl, rfl⟩
  · obtain ⟨rfl, rfl⟩ := Prod.mk.inj (Option.some.inj h)
    exact Or.inr (Or.inl ⟨_, rfl, rfl, rfl⟩)
  · obtain ⟨rfl, rfl⟩ := Prod.mk.inj (Option.some.inj h)
    exact Or.inr (Or.inr ⟨rfl, rfl, rfl⟩)
  · exact absurd h (by simp)

/-- **What one step of the machine does**: a task moves, the clock advances, or a task comes in. -/
theorem machine_step {p p' : Pool Shared Task} {a : Sched Event}
    (h : (machine F D).step p a = some p') :
    (∃ i e t sh t' new, a = .task i e ∧ p.tasks[i]? = some t ∧
        TaskStep F D p.tasks p.shared t e sh t' new ∧
        p' = ⟨sh, p.tasks.set i t' ++ new⟩) ∨
      (∃ ns, a = .env (.advance ns) ∧
        p' = ⟨{ p.shared with now := p.shared.now + ns }, p.tasks ++ []⟩) ∨
      (∃ inst, a = .env (.startInstance inst) ∧
        p' = ⟨p.shared, p.tasks ++ [.server inst .binding]⟩) ∨
      (a = .env .getMetrics ∧ p' = ⟨p.shared, p.tasks ++ [.reader .loadPackets]⟩) := by
  rcases (system F D).step_cases h with ⟨i, e, t, sh, t', new, rfl, ht, hact, rfl⟩ |
    ⟨e, sh, new, rfl, henv, rfl⟩
  · exact Or.inl ⟨i, e, t, sh, t', new, rfl, ht, Task.step_inv hact, rfl⟩
  · rcases env_cases henv with ⟨ns, rfl, rfl, rfl⟩ | ⟨inst, rfl, rfl, rfl⟩ | ⟨rfl, rfl, rfl⟩
    · exact Or.inr (Or.inl ⟨ns, rfl, rfl⟩)
    · exact Or.inr (Or.inr (Or.inl ⟨inst, rfl, rfl⟩))
    · exact Or.inr (Or.inr (Or.inr ⟨rfl, rfl⟩))

/-- A handler's removal does not move: it waits for its own guard. -/
theorem guarded_of_removing {tasks : List Task} {inst : ℕ} {client : SocketAddr} {data : List UInt8}
    (ht : .handler inst client data .removing ∈ tasks) :
    guarded D tasks (D.shardOf client) = true :=
  List.any_eq_true.mpr ⟨_, ht, by simp [Task.readGuard]⟩

end steps

/-! ## A small deployment -/

/-- Instances with the default configuration, and a map of one shard. -/
def exampleDeployment : Deployment where
  config _ := ⟨"udp", .udp, .v4 ⟨0, 0, 0, 0⟩ 53, [], .default⟩
  shardOf _ := 0
  shardCount := 1
  shardOf_lt _ := by decide
  hashKey _ := 0
  search := .linear U64

/-- Two upstreams. -/
def exampleHeap : Heap :=
  ⟨[.new ⟨"a", "10.0.1.1:53", 1, 0, 5000⟩ 0, .new ⟨"b", "10.0.1.2:53", 1, 0, 5000⟩ 0]⟩

/-- The first instance has the first upstream, the others have the second. -/
def exampleRouters (inst : ℕ) : Router :=
  ⟨if inst = 0 then [0] else [1], .weightedRoundRobin, 0, .new 150⟩

/-- A client. -/
def exampleClient : SocketAddr := .v4 ⟨10, 0, 0, 1⟩ 4000

/-- The instance starts; its start task is at position `i`. -/
def starts (inst i : ℕ) : List (Sched Event) := [.env (.startInstance inst), .task i .bound]

/-- The task at position `i` takes `n` steps of its own. -/
def steps (i n : ℕ) : List (Sched Event) := List.replicate n (.task i .step)

/-- The handler at position `i` finds no session and connects one, up to its insertion. -/
def connects (i : ℕ) : List (Sched Event) :=
  steps i 3 ++ [.task i .connected, .task i .bound]

/-- The handler at position `i` inserts and counts the session, and forwards its datagram. -/
def insertsAndForwards (i : ℕ) : List (Sched Event) := steps i 4 ++ [.task i (.sent 1)]

end HarbrRouter.Proxy.Udp
