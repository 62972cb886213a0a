import HarbrRouter.Lib.TaskPool
import HarbrRouter.Config
import Mathlib.Data.List.AList

/-!
# The connection pools of the TCP proxy

`proxy/tcp.rs`: one `TcpProxy` serves all TCP instances, and they share its connection pools, one
queue for each upstream name. A call of `get_upstream_connection` takes the first valid stream from
the queue of its upstream's name or connects a new one; a stream can be given back under that name.

A task is such a call and the stream's stay with the caller after it; its steps are the accesses of
the pools (each under their lock), the atomic operations, and the results of the operating system. A
stream is its number; what it is connected to and since when is kept beside it.

What is proved of the pools elsewhere rests on two facts about one step: what the loop pops was in
the queue and is valid (`popValid_spec`), and what is pooled after a step was pooled before it, or
its caller has just given it back (`TaskStep.pooled`).
-/

set_option autoImplicit false

namespace HarbrRouter.Proxy.Tcp

open Transition TaskPool

/-! ## Streams, pools and counters -/

/-- A connected stream, as the operating system knows it. -/
structure TcpStream where
  peer : SocketAddr
  /-- When it was connected, in nanoseconds, like every instant here. -/
  establishedAt : ℕ
deriving DecidableEq

/-- A pooled connection; the stream is its number. Source: `proxy/tcp.rs`, `PooledConnection` -/
structure PooledConnection where
  stream : ℕ
  createdAt : ℕ
  lastUsed : ℕ
deriving DecidableEq

/-- Source: `proxy/tcp.rs`, `TcpProxyMetrics` -/
structure TcpProxyMetrics where
  connectionsTotal : ℕ
  connectionsActive : ℕ
  bytesTransferred : ℕ
  connectionDurationSum : ℕ
  connectionDurationCount : ℕ
  poolHits : ℕ
  poolMisses : ℕ
deriving DecidableEq

namespace PooledConnection

/-- Source: `proxy/tcp.rs`, `PooledConnection::new` -/
def new (stream now : ℕ) : PooledConnection := ⟨stream, now, now⟩

/-- Source: `proxy/tcp.rs`, `PooledConnection::is_valid` -/
def isValid (self : PooledConnection) (maxIdleTime maxLifetime now : ℕ) : Bool :=
  let idleTime := now - self.lastUsed
  let lifetime := now - self.createdAt
  idleTime ≤ maxIdleTime && lifetime ≤ maxLifetime

/-- Source: `proxy/tcp.rs`, `PooledConnection::touch` -/
def touch (self : PooledConnection) (now : ℕ) : PooledConnection := { self with lastUsed := now }

end PooledConnection

/-- The pools: a queue for each upstream name, its head first. -/
abbrev Pools := AList fun _ : String => List PooledConnection

/-- A pool of one name has the queue of that name. -/
theorem lookup_singleton_queue (name : String) (pool : List PooledConnection) :
    (AList.singleton name pool : Pools).lookup name = some pool := by
  rw [← AList.insert_empty]
  exact AList.lookup_insert ∅

/-- The connection is in the queue of the name. -/
def Pooled (pools : Pools) (name : String) (c : PooledConnection) : Prop :=
  ∃ pool, pools.lookup name = some pool ∧ c ∈ pool

/-- What is pooled after one queue was replaced. -/
theorem pooled_insert {pools : Pools} {name name' : String} {pool : List PooledConnection}
    {c : PooledConnection} :
    Pooled (pools.insert name pool) name' c ↔
      name' = name ∧ c ∈ pool ∨ name' ≠ name ∧ Pooled pools name' c := by
  unfold Pooled
  by_cases hname : name' = name
  · subst hname
    simp [AList.lookup_insert]
  · simp [AList.lookup_insert_ne hname, hname]

/-- What the calls share. -/
structure Shared where
  now : ℕ
  /-- The streams connected so far, by number. -/
  streams : List TcpStream
  connectionPools : Pools
  metrics : TcpProxyMetrics
  /-- The streams handed out from the pools so far, each with the instant. -/
  handedOut : List (ℕ × ℕ)

/-- A new proxy. Source: `proxy/tcp.rs`, `TcpProxy::new` -/
def Shared.new : Shared := ⟨0, [], ∅, ⟨0, 0, 0, 0, 0, 0, 0⟩, []⟩

namespace Shared

/-- Change the counters. -/
def count (sh : Shared) (f : TcpProxyMetrics → TcpProxyMetrics) : Shared :=
  { sh with metrics := f sh.metrics }

/-- `pool_hits.fetch_add(1)` -/
def countHit (sh : Shared) : Shared :=
  sh.count fun m => { m with poolHits := wrappingAdd m.poolHits 1 }

/-- `pool_misses.fetch_add(1)` -/
def countMiss (sh : Shared) : Shared :=
  sh.count fun m => { m with poolMisses := wrappingAdd m.poolMisses 1 }

end Shared

/-- Five minutes. Source: `proxy/tcp.rs`, `TcpProxy::try_get_pooled_connection` -/
def maxIdleTime : ℕ := 300 * 10 ^ 9

/-- One hour. Source: `proxy/tcp.rs`, `TcpProxy::try_get_pooled_connection` -/
def maxLifetime : ℕ := 3600 * 10 ^ 9

/-- The loop that pops until a connection is valid, with what it leaves in the queue.
Source: `proxy/tcp.rs`, `TcpProxy::try_get_pooled_connection` -/
def popValid (now : ℕ) : List PooledConnection → Option PooledConnection × List PooledConnection
  | [] => (none, [])
  | c :: rest =>
      if c.isValid maxIdleTime maxLifetime now then (some (c.touch now), rest)
      else popValid now rest

namespace Shared

/-- Source: `proxy/tcp.rs`, `TcpProxy::try_get_pooled_connection` -/
def tryGetPooledConnection (sh : Shared) (upstreamName : String) : Shared × Option ℕ :=
  match sh.connectionPools.lookup upstreamName with
  | some pool =>
      let connectionPools := sh.connectionPools.insert upstreamName (popValid sh.now pool).2
      match (popValid sh.now pool).1 with
      | some c =>
          let handedOut := sh.handedOut ++ [(c.stream, sh.now)]
          ({ sh with connectionPools, handedOut }, some c.stream)
      | none => ({ sh with connectionPools }, none)
  | none => (sh, none)

/-- Source: `proxy/tcp.rs`, `TcpProxy::return_connection_to_pool` -/
def returnConnectionToPool (sh : Shared) (config : TcpProxyConfig) (upstreamName : String)
    (stream : ℕ) : Shared :=
  if config.connectionPooling then
    let pool := (sh.connectionPools.lookup upstreamName).getD []
    -- a full queue is left as it is, and the stream is dropped
    let pool := if pool.length < 100 then pool ++ [.new stream sh.now] else pool
    { sh with connectionPools := sh.connectionPools.insert upstreamName pool }
  else sh

/-- The queue of the name is not full. -/
def HasRoom (sh : Shared) (upstreamName : String) : Prop :=
  ((sh.connectionPools.lookup upstreamName).getD []).length < 100

/-- Giving a connection back changes the pools only. -/
theorem returnConnectionToPool_eq (sh : Shared) (config : TcpProxyConfig) (upstreamName : String)
    (stream : ℕ) : ∃ pools, sh.returnConnectionToPool config upstreamName stream =
      { sh with connectionPools := pools } := by
  unfold returnConnectionToPool
  split_ifs
  · exact ⟨_, rfl⟩
  · exact ⟨sh.connectionPools, rfl⟩

/-- After a stream was given back, a pooled connection was there before, or it is the new one and
there was room for it. -/
theorem pooled_returnConnectionToPool {sh : Shared} {config : TcpProxyConfig}
    {upstreamName name : String} {stream : ℕ} {c : PooledConnection}
    (h : Pooled (sh.returnConnectionToPool config upstreamName stream).connectionPools name c) :
    Pooled sh.connectionPools name c ∨
      config.connectionPooling = true ∧ sh.HasRoom upstreamName ∧ name = upstreamName ∧
        c = .new stream sh.now := by
  unfold returnConnectionToPool at h
  split_ifs at h with hpooling
  · rcases pooled_insert.mp h with ⟨rfl, hc⟩ | ⟨-, hold⟩
    · have hold : ∀ d ∈ (sh.connectionPools.lookup name).getD [],
          Pooled sh.connectionPools name d := by
        intro d hd
        cases hlookup : sh.connectionPools.lookup name with
        | none => simp [hlookup] at hd
        | some pool => exact ⟨pool, hlookup, by simpa [hlookup] using hd⟩
      split_ifs at hc with hroom
      · rcases List.mem_append.mp hc with hc | hc
        · exact Or.inl (hold c hc)
        · exact Or.inr ⟨hpooling, hroom, rfl, List.mem_singleton.mp hc⟩
      · exact Or.inl (hold c hc)
    · exact Or.inl hold
  · exact Or.inl h

end Shared

/-! ## Getting a connection -/

/-- `str::parse::<SocketAddr>`, with the text of its error. -/
abbrev ParseAddr := String → Except String SocketAddr

/-- Source: `proxy.rs`, `utils::parse_address` -/
def parseAddress (parse : ParseAddr) (address : String) : Result SocketAddr :=
  match parse address with
  | .ok addr => .ok addr
  | .error e => .error (.config ("Invalid address '" ++ address ++ "': " ++ e))

/-- Source: `proxy/tcp.rs`, `TcpProxy::get_upstream_connection` -/
inductive GetPc where
  /-- `Self::try_get_pooled_connection(..)`, if the instance pools connections -/
  | start
  /-- `pool_hits.fetch_add(1)` -/
  | countHit (stream : ℕ)
  /-- `pool_misses.fetch_add(1)` and `utils::parse_address(..)` -/
  | countMiss
  /-- `timeout(connect_timeout, TcpStream::connect(upstream_addr))` -/
  | connecting (upstreamAddr : SocketAddr)
  /-- `Self::configure_socket(..)` -/
  | configuring (stream : ℕ)
  /-- The end of the call. -/
  | finished (result : Result ℕ)
deriving DecidableEq

/-- A step of the code, or a result of the operating system. -/
inductive GetEvent where
  | step
  | connected
  | connectFailed (e : String)
  | timedOut
  | optionFailed (e : String)
deriving DecidableEq

/-- One step of a call. Source: `proxy/tcp.rs`, `TcpProxy::get_upstream_connection` and
`TcpProxy::configure_socket` -/
def GetPc.step (parse : ParseAddr) (config : TcpProxyConfig) (upstream : UpstreamConfig)
    (sh : Shared) : GetPc → GetEvent → Option (Shared × GetPc)
  | .start, .step =>
      if config.connectionPooling then
        match sh.tryGetPooledConnection upstream.name with
        | (sh, some stream) => some (sh, .countHit stream)
        | (sh, none) => some (sh, .countMiss)
      else some (sh, .countMiss)
  | .countHit stream, .step => some (sh.countHit, .finished (.ok stream))
  | .countMiss, .step =>
      match parseAddress parse upstream.address with
      | .ok upstreamAddr => some (sh.countMiss, .connecting upstreamAddr)
      | .error e => some (sh.countMiss, .finished (.error e))
  | .connecting upstreamAddr, .connected =>
      some ({ sh with streams := sh.streams ++ [⟨upstreamAddr, sh.now⟩] },
        .configuring sh.streams.length)
  | .connecting _, .timedOut =>
      some (sh, .finished (.error (.network
        ("Connection to upstream '" ++ upstream.name ++ "' timed out") .timeout)))
  | .connecting _, .connectFailed e =>
      some (sh, .finished (.error (.network
        ("Failed to connect to upstream '" ++ upstream.name ++ "': " ++ e) .connectionFailed)))
  | .configuring stream, .step => some (sh, .finished (.ok stream))
  | .configuring _, .optionFailed e =>
      if config.nodelay then
        some (sh, .finished (.error (.network ("Failed to set TCP_NODELAY: " ++ e) .protocol)))
      else none
  | _, _ => none

/-! ## Calls on the shared pools -/

/-- A call of `get_upstream_connection` for an upstream of an instance, and the caller's use of the
stream after it. -/
structure Task where
  config : TcpProxyConfig
  upstream : UpstreamConfig
  get : GetPc
  /-- The caller has given the stream back or dropped it. -/
  released : Bool
deriving DecidableEq

/-- The stream that the caller has got and not given back or dropped. -/
def Task.held (t : Task) : Option ℕ :=
  match t.get with
  | .finished (.ok stream) => if t.released then none else some stream
  | _ => none

/-- Whose stream is held has returned it and not released it. -/
theorem Task.held_eq_some {t : Task} {stream : ℕ} (h : t.held = some stream) :
    t.get = .finished (.ok stream) ∧ t.released = false := by
  unfold Task.held at h
  split at h
  · next stream' hget =>
      split_ifs at h with hreleased
      obtain rfl := Option.some.inj h
      exact ⟨hget, by simpa using hreleased⟩
  · exact absurd h (by simp)

/-- A step of a call, the caller's decision what to do with its stream, or an event of the
environment. -/
inductive Event where
  | get (e : GetEvent)
  /-- `return_connection_to_pool(ctx, &upstream.config.name, stream)` -/
  | giveBack
  | drop
  /-- The clock advances. -/
  | advance (ns : ℕ)
  /-- A caller of an instance calls for an upstream. -/
  | call (inst : ProxyInstanceConfig) (upstream : UpstreamConfig)

section system

variable (instances : List ProxyInstanceConfig) (parse : ParseAddr)

/-- One step of a call, or of its caller. -/
def Task.step (sh : Shared) (t : Task) : Event → Option (Shared × Task)
  | .get e => (t.get.step parse t.config t.upstream sh e).map fun r => (r.1, { t with get := r.2 })
  | .giveBack => t.held.map fun stream =>
      (sh.returnConnectionToPool t.config t.upstream.name stream, { t with released := true })
  | .drop => t.held.map fun _ => (sh, { t with released := true })
  | _ => none

/-- Is it a TCP instance of the configuration, and an upstream of it? -/
def IsCall (inst : ProxyInstanceConfig) (upstream : UpstreamConfig) : Prop :=
  inst ∈ instances ∧ inst.proxyType = .tcp ∧ upstream ∈ inst.upstreams

instance (inst : ProxyInstanceConfig) (upstream : UpstreamConfig) :
    Decidable (IsCall instances inst upstream) :=
  inferInstanceAs (Decidable (_ ∧ _ ∧ _))

/-- The calls of the TCP instances on the pools that they share. -/
def system : System Shared Task Event where
  act _ sh t e := (t.step parse sh e).map fun r => (r.1, r.2, [])
  env sh
    | .advance ns => some ({ sh with now := sh.now + ns }, [])
    | .call inst upstream =>
        if IsCall instances inst upstream then
          some (sh, [⟨inst.config.tcp, upstream, .start, false⟩])
        else none
    | _ => none

/-- The machine of the interleavings. -/
abbrev machine : Machine (Pool Shared Task) (Sched Event) := (system instances parse).machine

/-- A new proxy without calls. -/
def initial : Pool Shared Task := ⟨.new, []⟩

/-! ## What a step does -/

/-- The steps of a call and its caller, one constructor for each way on. -/
inductive TaskStep (sh : Shared) (t : Task) : Event → Shared → Task → Prop
  /-- A pooled connection is taken, and the queue is left without what was popped. -/
  | take {pool rest : List PooledConnection} {c : PooledConnection}
      (hget : t.get = .start) (hpooling : t.config.connectionPooling = true)
      (hpool : sh.connectionPools.lookup t.upstream.name = some pool)
      (hpop : popValid sh.now pool = (some c, rest)) :
      TaskStep sh t (.get .step)
        { sh with
          connectionPools := sh.connectionPools.insert t.upstream.name rest
          handedOut := sh.handedOut ++ [(c.stream, sh.now)] }
        { t with get := .countHit c.stream }
  /-- There is no valid connection: the queue, if there is one, is empty now. -/
  | miss {pools : Pools} (hget : t.get = .start)
      (hpools : pools = sh.connectionPools ∨
        pools = sh.connectionPools.insert t.upstream.name []) :
      TaskStep sh t (.get .step) { sh with connectionPools := pools } { t with get := .countMiss }
  | hit {stream : ℕ} (hget : t.get = .countHit stream) :
      TaskStep sh t (.get .step) sh.countHit { t with get := .finished (.ok stream) }
  | connect {upstreamAddr : SocketAddr} (hget : t.get = .countMiss)
      (hparse : parse t.upstream.address = .ok upstreamAddr) :
      TaskStep sh t (.get .step) sh.countMiss { t with get := .connecting upstreamAddr }
  | badAddress {e : String} {error : Error} (hget : t.get = .countMiss)
      (hparse : parse t.upstream.address = .error e) :
      TaskStep sh t (.get .step) sh.countMiss { t with get := .finished (.error error) }
  | connected {upstreamAddr : SocketAddr} (hget : t.get = .connecting upstreamAddr) :
      TaskStep sh t (.get .connected)
        { sh with streams := sh.streams ++ [⟨upstreamAddr, sh.now⟩] }
        { t with get := .configuring sh.streams.length }
  | configured {stream : ℕ} (hget : t.get = .configuring stream) :
      TaskStep sh t (.get .step) sh { t with get := .finished (.ok stream) }
  | failed {e : GetEvent} {error : Error}
      (hget : (∃ upstreamAddr, t.get = .connecting upstreamAddr) ∨
        ∃ stream, t.get = .configuring stream) :
      TaskStep sh t (.get e) sh { t with get := .finished (.error error) }
  | giveBack {stream : ℕ} (hheld : t.held = some stream) :
      TaskStep sh t .giveBack (sh.returnConnectionToPool t.config t.upstream.name stream)
        { t with released := true }
  | drop {stream : ℕ} (hheld : t.held = some stream) :
      TaskStep sh t .drop sh { t with released := true }

variable {instances parse}

/-- The loop that pops leaves nothing when it finds nothing. -/
theorem popValid_eq_none {now : ℕ} {pool : List PooledConnection}
    (h : (popValid now pool).1 = none) : (popValid now pool).2 = [] := by
  induction pool with
  | nil => rfl
  | cons c pool ih =>
      unfold popValid at h ⊢
      split_ifs at h ⊢ with hvalid
      exact ih h

/-- What the loop pops was in the queue and is valid, and what it leaves was in the queue. -/
theorem popValid_spec {now : ℕ} {pool rest : List PooledConnection} {c : PooledConnection}
    (h : popValid now pool = (some c, rest)) :
    (∃ c₀ ∈ pool, c₀.isValid maxIdleTime maxLifetime now = true ∧ c = c₀.touch now) ∧
      ∀ d ∈ rest, d ∈ pool := by
  induction pool with
  | nil => exact absurd h (by simp [popValid])
  | cons c₀ pool ih =>
      unfold popValid at h
      split_ifs at h with hvalid
      · obtain ⟨rfl, rfl⟩ : _ ∧ _ := by simpa using h
        exact ⟨⟨c₀, List.mem_cons_self, hvalid, rfl⟩, fun d hd => List.mem_cons_of_mem c₀ hd⟩
      · obtain ⟨⟨c₁, hmem, hc⟩, hrest⟩ := ih h
        exact ⟨⟨c₁, List.mem_cons_of_mem c₀ hmem, hc⟩,
          fun d hd => List.mem_cons_of_mem c₀ (hrest d hd)⟩

/-- Every step of a call of `get_upstream_connection` is one of its ways on. -/
theorem GetPc.step_inv {sh sh' : Shared} {t : Task} {get' : GetPc} {e : GetEvent}
    (h : t.get.step parse t.config t.upstream sh e = some (sh', get')) :
    TaskStep parse sh t (.get e) sh' { t with get := get' } := by
  unfold GetPc.step at h
  split at h
  · next hget =>
      split_ifs at h with hpooling
      · unfold Shared.tryGetPooledConnection at h
        cases hpool : sh.connectionPools.lookup t.upstream.name with
        | none =>
            simp only [hpool, Option.some.injEq, Prod.mk.injEq] at h
            obtain ⟨rfl, rfl⟩ := h
            exact .miss hget (Or.inl rfl)
        | some pool =>
            rcases hpop : popValid sh.now pool with ⟨c, rest⟩
            cases c with
            | none =>
                have hrest := popValid_eq_none (congrArg Prod.fst hpop)
                rw [hpop] at hrest
                simp only [hpool, hpop, Option.some.injEq, Prod.mk.injEq] at h
                obtain ⟨rfl, rfl⟩ := h
                exact .miss hget (Or.inr (by rw [show rest = [] from hrest]))
            | some c =>
                simp only [hpool, hpop, Option.some.injEq, Prod.mk.injEq] at h
                obtain ⟨rfl, rfl⟩ := h
                exact .take hget hpooling hpool hpop
      · obtain ⟨rfl, rfl⟩ : _ ∧ _ := by simpa using h
        exact .miss hget (Or.inl rfl)
  · next hget =>
      obtain ⟨rfl, rfl⟩ : _ ∧ _ := by simpa using h
      exact .hit hget
  · next hget =>
      unfold parseAddress at h
      cases hparse : parse t.upstream.address with
      | ok addr =>
          simp only [hparse, Option.some.injEq, Prod.mk.injEq] at h
          obtain ⟨rfl, rfl⟩ := h
          exact .connect hget hparse
      | error e =>
          simp only [hparse, Option.some.injEq, Prod.mk.injEq] at h
          obtain ⟨rfl, rfl⟩ := h
          exact .badAddress hget hparse
  · next hget =>
      obtain ⟨rfl, rfl⟩ : _ ∧ _ := by simpa using h
      exact .connected hget
  · next hget =>
      obtain ⟨rfl, rfl⟩ : _ ∧ _ := by simpa using h
      exact .failed (Or.inl ⟨_, hget⟩)
  · next hget =>
      obtain ⟨rfl, rfl⟩ : _ ∧ _ := by simpa using h
      exact .failed (Or.inl ⟨_, hget⟩)
  · next hget =>
      obtain ⟨rfl, rfl⟩ : _ ∧ _ := by simpa using h
      exact .configured hget
  · next hget =>
      split_ifs at h
      obtain ⟨rfl, rfl⟩ : _ ∧ _ := by simpa using h
      exact .failed (Or.inr ⟨_, hget⟩)
  · exact absurd h (by simp)

/-- Every step of a task is one of its ways on. -/
theorem Task.step_inv {sh sh' : Shared} {t t' : Task} {e : Event}
    (h : t.step parse sh e = some (sh', t')) : TaskStep parse sh t e sh' t' := by
  unfold Task.step at h
  split at h
  · obtain ⟨⟨sh₁, get'⟩, hget, heq⟩ := Option.map_eq_some_iff.mp h
    obtain ⟨rfl, rfl⟩ : _ ∧ _ := by simpa using heq
    exact GetPc.step_inv hget
  · obtain ⟨stream, hheld, heq⟩ := Option.map_eq_some_iff.mp h
    obtain ⟨rfl, rfl⟩ : _ ∧ _ := by simpa using heq
    exact .giveBack hheld
  · obtain ⟨stream, hheld, heq⟩ := Option.map_eq_some_iff.mp h
    obtain ⟨rfl, rfl⟩ : _ ∧ _ := by simpa using heq
    exact .drop hheld
  · exact absurd h (by simp)

/-- A step only connects new streams. -/
theorem TaskStep.streams {sh sh' : Shared} {t t' : Task} {e : Event}
    (h : TaskStep parse sh t e sh' t') : ∃ new, sh'.streams = sh.streams ++ new := by
  have hsame : ∃ new, sh.streams = sh.streams ++ new := ⟨[], (List.append_nil _).symm⟩
  cases h with
  | connected => exact ⟨_, rfl⟩
  | giveBack =>
      obtain ⟨pools, heq⟩ := sh.returnConnectionToPool_eq t.config t.upstream.name _
      exact heq ▸ hsame
  | _ => exact hsame

/-- The clock stands still during a step. -/
theorem TaskStep.now {sh sh' : Shared} {t t' : Task} {e : Event}
    (h : TaskStep parse sh t e sh' t') : sh'.now = sh.now := by
  cases h with
  | giveBack =>
      obtain ⟨pools, heq⟩ := sh.returnConnectionToPool_eq t.config t.upstream.name _
      rw [heq]
  | _ => rfl

/-- What is pooled after a step was pooled before it, or its caller has just given it back. -/
theorem TaskStep.pooled {sh sh' : Shared} {t t' : Task} {e : Event} {name : String}
    {c : PooledConnection} (h : TaskStep parse sh t e sh' t')
    (hc : Pooled sh'.connectionPools name c) :
    Pooled sh.connectionPools name c ∨
      e = .giveBack ∧ ∃ stream, t.held = some stream ∧ t.config.connectionPooling = true ∧
        sh.HasRoom t.upstream.name ∧ name = t.upstream.name ∧ c = .new stream sh.now := by
  cases h with
  | take hget hpooling hpool hpop =>
      rcases pooled_insert.mp hc with ⟨rfl, hrest⟩ | ⟨-, hold⟩
      · exact Or.inl ⟨_, hpool, (popValid_spec hpop).2 c hrest⟩
      · exact Or.inl hold
  | miss hget hpools =>
      rcases hpools with rfl | rfl
      · exact Or.inl hc
      · rcases pooled_insert.mp hc with ⟨-, hnil⟩ | ⟨-, hold⟩
        · exact absurd hnil List.not_mem_nil
        · exact Or.inl hold
  | giveBack hheld =>
      rcases Shared.pooled_returnConnectionToPool hc with hold | ⟨hpooling, hroom, hname, rfl⟩
      · exact Or.inl hold
      · exact Or.inr ⟨rfl, _, hheld, hpooling, hroom, hname, rfl⟩
  | _ => exact Or.inl hc

/-- What one step of the environment does: the clock advances, or a call comes in. -/
theorem env_cases {sh sh' : Shared} {e : Event} {new : List Task}
    (h : (system instances parse).env sh e = some (sh', new)) :
    (∃ ns, e = .advance ns ∧ sh' = { sh with now := sh.now + ns } ∧ new = []) ∨
      ∃ inst upstream, e = .call inst upstream ∧ IsCall instances inst upstream ∧ sh' = sh ∧
        new = [⟨inst.config.tcp, upstream, .start, false⟩] := by
  simp only [system] at h
  split at h
  · obtain ⟨rfl, rfl⟩ : _ ∧ _ := by simpa using h
    exact Or.inl ⟨_, rfl, rfl, rfl⟩
  · split_ifs at h with hcall
    obtain ⟨rfl, rfl⟩ : _ ∧ _ := by simpa using h
    exact Or.inr ⟨_, _, rfl, hcall, rfl, rfl⟩
  · exact absurd h (by simp)

end system

/-! ## Example instances -/

/-- A TCP instance with one upstream "db". -/
def dbInstance (name : String) (port : UInt16) (address : String) : ProxyInstanceConfig where
  name := name
  proxyType := .tcp
  listenAddr := .v4 ⟨127, 0, 0, 1⟩ port
  upstreams := [⟨"db", address, 1, 0, 1000⟩]
  config := .default

/-- The results of parsing for the two addresses. -/
def parseTwo : ParseAddr := fun address =>
  if address = "10.0.0.1:5432" then .ok (.v4 ⟨10, 0, 0, 1⟩ 5432)
  else if address = "10.0.0.2:5432" then .ok (.v4 ⟨10, 0, 0, 2⟩ 5432)
  else .error "invalid socket address syntax"

end HarbrRouter.Proxy.Tcp
