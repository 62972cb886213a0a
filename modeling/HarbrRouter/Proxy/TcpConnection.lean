import HarbrRouter.Counter
import HarbrRouter.Proxy.TcpPool
import HarbrRouter.Proxy.TcpStream
import HarbrRouter.Routing.Selection

/-!
# The TCP connection handlers

`proxy/tcp.rs`, `handle_connection` with what it calls: a handler for each accepted connection
selects an upstream, gets a connection to it, streams in both directions and records the outcome.
The handlers of all TCP instances share the counters and the pools of the one `TcpProxy`; each
instance has its own router. A step of a handler is one atomic operation, one selection, one step of
`get_upstream_connection`, or one result of the operating system.

**Theorem** (`active_of_run`): the active connections of an upstream are those at the start and the
handlers that are counted for it. `HandlerStep` has the steps by program point and `Handler.effect`
what they do to the upstreams and to the phase of the handler, which is all that is needed here: the
counter changes by one just where the handler enters or leaves the phase in which it is counted
(`Effect.active`).
-/

set_option autoImplicit false

namespace HarbrRouter.Proxy.Tcp.Connection

open Transition TaskPool PointRing Routing

/-! ## State -/

/-- What the handlers share. -/
structure ProxyState extends Shared where
  heap : Heap
  /-- The router of each instance. -/
  routers : ℕ → Router

namespace ProxyState

/-- A new proxy over the routers of its instances. Source: `proxy/tcp.rs`, `TcpProxy::new` -/
def new (heap : Heap) (routers : ℕ → Router) : ProxyState := ⟨.new, heap, routers⟩

/-- Change the counters. -/
def count (sh : ProxyState) (f : TcpProxyMetrics → TcpProxyMetrics) : ProxyState :=
  { sh with toShared := sh.toShared.count f }

/-- Counting leaves the upstreams alone. -/
@[simp] theorem count_heap (sh : ProxyState) (f : TcpProxyMetrics → TcpProxyMetrics) :
    (sh.count f).heap = sh.heap := rfl

/-- Counting leaves the routers alone. -/
@[simp] theorem count_routers (sh : ProxyState) (f : TcpProxyMetrics → TcpProxyMetrics) :
    (sh.count f).routers = sh.routers := rfl

/-- `connections_total.fetch_add(1)` -/
def countTotal (sh : ProxyState) : ProxyState :=
  sh.count fun m => { m with connectionsTotal := wrappingAdd m.connectionsTotal 1 }

/-- `connections_active.fetch_add(1)` -/
def incActive (sh : ProxyState) : ProxyState :=
  sh.count fun m => { m with connectionsActive := wrappingAdd m.connectionsActive 1 }

/-- `connections_active.fetch_sub(1)` -/
def decActive (sh : ProxyState) : ProxyState :=
  sh.count fun m => { m with connectionsActive := wrappingSub m.connectionsActive 1 }

/-- `bytes_transferred.fetch_add(bytes)` -/
def countBytes (sh : ProxyState) (bytes : ℕ) : ProxyState :=
  sh.count fun m => { m with bytesTransferred := wrappingAdd m.bytesTransferred bytes }

/-- `connection_duration_sum.fetch_add(duration.as_millis() as u64)` -/
def addDuration (sh : ProxyState) (ns : ℕ) : ProxyState :=
  sh.count fun m => { m with
    connectionDurationSum := wrappingAdd m.connectionDurationSum (ns / 10 ^ 6 % 2 ^ 64) }

/-- `connection_duration_count.fetch_add(1)` -/
def countDuration (sh : ProxyState) : ProxyState :=
  sh.count fun m => { m with connectionDurationCount := wrappingAdd m.connectionDurationCount 1 }

/-- Change the statistics of an upstream. -/
def modifyStats (sh : ProxyState) (u : UpstreamRef) (f : UpstreamStats → UpstreamStats) :
    ProxyState :=
  { sh with heap := sh.heap.modify u fun info => { info with stats := f info.stats } }

end ProxyState

/-! ## Handlers -/

/-- Source: `proxy/tcp.rs`, `TcpProxy::handle_connection`, `TcpProxy::process_connection` and
`TcpProxy::stream_bidirectional` -/
inductive HandlerPc where
  /-- `Instant::now()` and `connections_total.fetch_add(1)` -/
  | start
  /-- `connections_active.fetch_add(1)` -/
  | incActive
  /-- `ctx.router.select_upstream(Some(&client_addr.to_string()))` -/
  | selecting
  /-- `Self::get_upstream_connection(&ctx, &upstream)` -/
  | getting (upstream : UpstreamRef) (get : GetPc)
  /-- `upstream.stats.increment_connections()` -/
  | incrementing (upstream : UpstreamRef) (stream : ℕ)
  /-- `tokio::select!` over the two copy loops -/
  | streaming (upstream : UpstreamRef) (stream since : ℕ) (copy : Direction → CopyStream)
  /-- `upstream.stats.decrement_connections()` -/
  | decrementing (upstream : UpstreamRef) (since : ℕ) (result : Result ℕ)
  /-- `upstream.stats.record_success(duration)` or `upstream.stats.record_failure()` -/
  | recording (upstream : UpstreamRef) (since : ℕ) (result : Result ℕ)
  /-- `connections_active.fetch_sub(1)` -/
  | decActive (result : Result Unit)
  /-- `connection_duration_sum.fetch_add(..)` -/
  | addDuration (result : Result Unit)
  /-- `connection_duration_count.fetch_add(1)` -/
  | countDuration (result : Result Unit)
  /-- The end of the handler, with the result that it logs. -/
  | finished (result : Result Unit)

/-- A handler of one connection. -/
structure Handler where
  inst : ℕ
  client : SocketAddr
  startTime : ℕ
  pc : HandlerPc

/-- A step of the code, a result of the operating system, or an event of the environment. -/
inductive Event where
  | step
  /-- A step of `get_upstream_connection`. -/
  | get (e : GetEvent)
  /-- The streaming starts, between a client and an upstream that send these bytes. -/
  | streamStart (sent : Direction → List UInt8)
  /-- A result of a read or a write. -/
  | io (d : Direction) (e : IoEvent)
  /-- The clock advances. -/
  | advance (ns : ℕ)
  /-- An instance accepts a connection. -/
  | accept (inst : ℕ) (client : SocketAddr)

/-- What the proxy runs with. -/
structure Deployment where
  /-- The configuration of each instance. -/
  config : ℕ → ProxyInstanceConfig
  parse : ParseAddr
  hashKey : String → U64
  search : BinarySearch U64

/-- The result of the race: of the copy loop that is done.
Source: `proxy/tcp.rs`, `TcpProxy::stream_bidirectional` -/
def raceResult (copy : Direction → CopyStream) : Option (Result ℕ) :=
  (copy .toUpstream).result.or (copy .toClient).result

section steps

variable (F : Type) [ScoreArith F] (D : Deployment)

/-- The handler after a step of `get_upstream_connection`: `?` returns its error. -/
def HandlerPc.afterGet (upstream : UpstreamRef) : GetPc → HandlerPc
  | .finished (.ok stream) => .incrementing upstream stream
  | .finished (.error e) => .decActive (.error e)
  | get => .getting upstream get

/-- One step of a handler. Source: `proxy/tcp.rs`, `TcpProxy::handle_connection`,
`TcpProxy::process_connection` and `TcpProxy::stream_bidirectional` -/
def Handler.step (sh : ProxyState) (t : Handler) (e : Event) : Option (ProxyState × Handler) :=
  match t.pc, e with
  | .start, .step => some (sh.countTotal, { t with startTime := sh.now, pc := .incActive })
  | .incActive, .step => some (sh.incActive, { t with pc := .selecting })
  | .selecting, .step =>
      let (router, upstream) := (sh.routers t.inst).selectUpstream F D.hashKey D.search sh.heap
        (some t.client.display)
      let sh := { sh with routers := Function.update sh.routers t.inst router }
      match upstream with
      | some upstream => some (sh, { t with pc := .getting upstream .start })
      | none =>
          let error := Error.proxy "No healthy upstream available" "tcp" "unknown"
          some (sh, { t with pc := .decActive (.error error) })
  | .getting upstream get, .get e =>
      let config := (D.config t.inst).config.tcp
      (get.step D.parse config (sh.heap.get upstream).config sh.toShared e).map fun r =>
        ({ sh with toShared := r.1 }, { t with pc := .afterGet upstream r.2 })
  | .incrementing upstream stream, .streamStart sent =>
      some (sh.modifyStats upstream UpstreamStats.incrementConnections,
        { t with pc := .streaming upstream stream sh.now fun d => .start (sent d) })
  | .streaming upstream stream since copy, .io d e =>
      if (raceResult copy).isSome then none
      else ((copy d).step e).map fun r =>
        (sh.countBytes r.2,
          { t with pc := .streaming upstream stream since (Function.update copy d r.1) })
  | .streaming upstream _ since copy, .step =>
      -- both streams are dropped with the future of the race
      (raceResult copy).map fun result => (sh, { t with pc := .decrementing upstream since result })
  | .decrementing upstream since result, .step =>
      some (sh.modifyStats upstream UpstreamStats.decrementConnections,
        { t with pc := .recording upstream since result })
  | .recording upstream since (.ok _), .step =>
      some (sh.modifyStats upstream fun s => s.recordSuccess (sh.now - since) sh.now,
        { t with pc := .decActive (.ok ()) })
  | .recording upstream _ (.error e), .step =>
      some (sh.modifyStats upstream fun s => s.recordFailure sh.now,
        { t with pc := .decActive (.error e) })
  | .decActive result, .step => some (sh.decActive, { t with pc := .addDuration result })
  | .addDuration result, .step =>
      some (sh.addDuration (sh.now - t.startTime), { t with pc := .countDuration result })
  | .countDuration result, .step => some (sh.countDuration, { t with pc := .finished result })
  | _, _ => none

/-- The handlers of the TCP instances. -/
def system : System ProxyState Handler Event where
  act _ sh t e := (t.step F D sh e).map fun r => (r.1, r.2, [])
  env sh
    | .advance ns => some ({ sh with now := sh.now + ns }, [])
    | .accept inst client => some (sh, [⟨inst, client, 0, .start⟩])
    | _ => none

/-- The machine of the interleavings. -/
abbrev machine : Machine (Pool ProxyState Handler) (Sched Event) := (system F D).machine

/-- A new proxy without connections. -/
def initial (heap : Heap) (routers : ℕ → Router) : Pool ProxyState Handler :=
  ⟨.new heap routers, []⟩

/-! ## What a step does -/

/-- The steps of a handler, by its program point. -/
inductive HandlerStep (sh : ProxyState) (t : Handler) :
    HandlerPc → Event → ProxyState → Handler → Prop
  | start :
      HandlerStep sh t .start .step sh.countTotal
        { t with startTime := sh.now, pc := .incActive }
  | incActive : HandlerStep sh t .incActive .step sh.incActive { t with pc := .selecting }
  | selected {router : Router} {upstream : UpstreamRef}
      (h : (sh.routers t.inst).selectUpstream F D.hashKey D.search sh.heap
        (some t.client.display) = (router, some upstream)) :
      HandlerStep sh t .selecting .step
        { sh with routers := Function.update sh.routers t.inst router }
        { t with pc := .getting upstream .start }
  | noUpstream {router : Router}
      (h : (sh.routers t.inst).selectUpstream F D.hashKey D.search sh.heap
        (some t.client.display) = (router, none)) :
      HandlerStep sh t .selecting .step
        { sh with routers := Function.update sh.routers t.inst router }
        { t with
          pc := .decActive (.error (Error.proxy "No healthy upstream available" "tcp" "unknown")) }
  | get {upstream : UpstreamRef} {get get' : GetPc} {e : GetEvent} {sh₁ : Shared}
      (h : get.step D.parse (D.config t.inst).config.tcp (sh.heap.get upstream).config sh.toShared
        e = some (sh₁, get')) :
      HandlerStep sh t (.getting upstream get) (.get e) { sh with toShared := sh₁ }
        { t with pc := .afterGet upstream get' }
  | increment {upstream : UpstreamRef} {stream : ℕ} {sent : Direction → List UInt8} :
      HandlerStep sh t (.incrementing upstream stream) (.streamStart sent)
        (sh.modifyStats upstream UpstreamStats.incrementConnections)
        { t with pc := .streaming upstream stream sh.now fun d => .start (sent d) }
  | copy {upstream : UpstreamRef} {stream since bytes : ℕ} {copy : Direction → CopyStream}
      {d : Direction} {e : IoEvent} {c : CopyStream} (hrace : raceResult copy = none)
      (h : (copy d).step e = some (c, bytes)) :
      HandlerStep sh t (.streaming upstream stream since copy) (.io d e) (sh.countBytes bytes)
        { t with pc := .streaming upstream stream since (Function.update copy d c) }
  | raced {upstream : UpstreamRef} {stream since : ℕ} {copy : Direction → CopyStream}
      {result : Result ℕ} (h : raceResult copy = some result) :
      HandlerStep sh t (.streaming upstream stream since copy) .step sh
        { t with pc := .decrementing upstream since result }
  | decrement {upstream : UpstreamRef} {since : ℕ} {result : Result ℕ} :
      HandlerStep sh t (.decrementing upstream since result) .step
        (sh.modifyStats upstream UpstreamStats.decrementConnections)
        { t with pc := .recording upstream since result }
  | success {upstream : UpstreamRef} {since bytes : ℕ} :
      HandlerStep sh t (.recording upstream since (.ok bytes)) .step
        (sh.modifyStats upstream fun s => s.recordSuccess (sh.now - since) sh.now)
        { t with pc := .decActive (.ok ()) }
  | failure {upstream : UpstreamRef} {since : ℕ} {error : Error} :
      HandlerStep sh t (.recording upstream since (.error error)) .step
        (sh.modifyStats upstream fun s => s.recordFailure sh.now)
        { t with pc := .decActive (.error error) }
  | decActive {result : Result Unit} :
      HandlerStep sh t (.decActive result) .step sh.decActive { t with pc := .addDuration result }
  | addDuration {result : Result Unit} :
      HandlerStep sh t (.addDuration result) .step (sh.addDuration (sh.now - t.startTime))
        { t with pc := .countDuration result }
  | countDuration {result : Result Unit} :
      HandlerStep sh t (.countDuration result) .step sh.countDuration
        { t with pc := .finished result }

variable {F D}

/-- Every step of a handler is one of these. -/
theorem Handler.step_inv {sh sh' : ProxyState} {t t' : Handler} {e : Event}
    (h : t.step F D sh e = some (sh', t')) : HandlerStep F D sh t t.pc e sh' t' := by
  unfold Handler.step at h
  split at h
  · next hpc =>
      obtain ⟨rfl, rfl⟩ : _ ∧ _ := by simpa using h
      rw [hpc]
      exact .start
  · next hpc =>
      obtain ⟨rfl, rfl⟩ : _ ∧ _ := by simpa using h
      rw [hpc]
      exact .incActive
  · next hpc =>
      rw [hpc]
      rcases hselect : (sh.routers t.inst).selectUpstream F D.hashKey D.search sh.heap
        (some t.client.display) with ⟨router, upstream⟩
      rw [hselect] at h
      cases upstream with
      | some upstream =>
          obtain ⟨rfl, rfl⟩ : _ ∧ _ := by simpa using h
          exact .selected hselect
      | none =>
          obtain ⟨rfl, rfl⟩ : _ ∧ _ := by simpa using h
          exact .noUpstream hselect
  · next hpc =>
      obtain ⟨⟨sh₁, get'⟩, hget, heq⟩ := Option.map_eq_some_iff.mp h
      obtain ⟨rfl, rfl⟩ : _ ∧ _ := by simpa using heq
      rw [hpc]
      exact .get hget
  · next hpc =>
      obtain ⟨rfl, rfl⟩ : _ ∧ _ := by simpa using h
      rw [hpc]
      exact .increment
  · next copy d e hpc =>
      split_ifs at h with hrace
      obtain ⟨⟨c, bytes⟩, hcopy, heq⟩ := Option.map_eq_some_iff.mp h
      obtain ⟨rfl, rfl⟩ : _ ∧ _ := by simpa using heq
      rw [hpc]
      exact .copy (by simpa using hrace) hcopy
  · next hpc =>
      obtain ⟨result, hresult, heq⟩ := Option.map_eq_some_iff.mp h
      obtain ⟨rfl, rfl⟩ : _ ∧ _ := by simpa using heq
      rw [hpc]
      exact .raced hresult
  · next hpc =>
      obtain ⟨rfl, rfl⟩ : _ ∧ _ := by simpa using h
      rw [hpc]
      exact .decrement
  · next hpc =>
      obtain ⟨rfl, rfl⟩ : _ ∧ _ := by simpa using h
      rw [hpc]
      exact .success
  · next hpc =>
      obtain ⟨rfl, rfl⟩ : _ ∧ _ := by simpa using h
      rw [hpc]
      exact .failure
  · next hpc =>
      obtain ⟨rfl, rfl⟩ : _ ∧ _ := by simpa using h
      rw [hpc]
      exact .decActive
  · next hpc =>
      obtain ⟨rfl, rfl⟩ : _ ∧ _ := by simpa using h
      rw [hpc]
      exact .addDuration
  · next hpc =>
      obtain ⟨rfl, rfl⟩ : _ ∧ _ := by simpa using h
      rw [hpc]
      exact .countDuration
  · exact absurd h (by simp)

/-- What one step of the environment does: the clock advances, or a connection comes in. -/
theorem env_cases {sh sh' : ProxyState} {e : Event} {new : List Handler}
    (h : (system F D).env sh e = some (sh', new)) :
    (∃ ns, e = .advance ns ∧ sh' = { sh with now := sh.now + ns } ∧ new = []) ∨
      ∃ inst client, e = .accept inst client ∧ sh' = sh ∧ new = [⟨inst, client, 0, .start⟩] := by
  simp only [system] at h
  split at h
  · obtain ⟨rfl, rfl⟩ : _ ∧ _ := by simpa using h
    exact Or.inl ⟨_, rfl, rfl, rfl⟩
  · obtain ⟨rfl, rfl⟩ : _ ∧ _ := by simpa using h
    exact Or.inr ⟨_, _, rfl, rfl, rfl⟩
  · exact absurd h (by simp)

/-- What one step of the machine does: a handler moves, the clock advances, or a connection comes
in. -/
theorem machine_step {p p' : Pool ProxyState Handler} {a : Sched Event}
    (h : (machine F D).step p a = some p') :
    (∃ i e t sh t', a = .task i e ∧ p.tasks[i]? = some t ∧
        t.step F D p.shared e = some (sh, t') ∧ p' = ⟨sh, p.tasks.set i t'⟩) ∨
      (∃ ns, a = .env (.advance ns) ∧
        p' = ⟨{ p.shared with now := p.shared.now + ns }, p.tasks⟩) ∨
      ∃ inst client, a = .env (.accept inst client) ∧
        p' = ⟨p.shared, p.tasks ++ [⟨inst, client, 0, .start⟩]⟩ := by
  rcases (system F D).step_cases h with ⟨i, e, t, sh, t', new, rfl, ht, hact, rfl⟩ |
    ⟨e, sh, new, rfl, henv, rfl⟩
  · obtain ⟨⟨sh₁, t₁⟩, hstep, heq⟩ := Option.map_eq_some_iff.mp hact
    obtain ⟨rfl, rfl, rfl⟩ : _ ∧ _ ∧ _ := by simpa using heq
    rw [List.append_nil]
    exact Or.inl ⟨i, e, t, sh₁, t₁, rfl, ht, hstep, rfl⟩
  · rcases env_cases henv with ⟨ns, rfl, rfl, rfl⟩ | ⟨inst, client, rfl, rfl, rfl⟩
    · rw [List.append_nil]
      exact Or.inr (Or.inl ⟨ns, rfl, rfl⟩)
    · exact Or.inr (Or.inr ⟨inst, client, rfl, rfl⟩)

variable (F D)

/-- Where a handler is, as far as its upstream is concerned. -/
inductive Phase where
  /-- No upstream is selected yet. -/
  | unrouted
  /-- The upstream is selected and the connection not counted yet. -/
  | chosen (upstream : UpstreamRef)
  /-- Between the increment and the decrement of `active_connections`. -/
  | counted (upstream : UpstreamRef)
  /-- The connection is not counted any more, or never was. -/
  | over
deriving DecidableEq

/-- The phase of a program point. -/
def HandlerPc.phase : HandlerPc → Phase
  | .start | .incActive | .selecting => .unrouted
  | .getting upstream _ | .incrementing upstream _ => .chosen upstream
  | .streaming upstream _ _ _ | .decrementing upstream _ _ => .counted upstream
  | _ => .over

/-- What a step does to the upstreams, the routers and the phase. -/
inductive Effect (sh sh' : ProxyState) (t t' : Handler) : Prop
  | quiet (hheap : sh'.heap = sh.heap) (hrouters : sh'.routers = sh.routers)
      (hphase : t'.pc.phase = t.pc.phase)
  | select {answer : Router × Option UpstreamRef} (hpc : t.pc = .selecting)
      (hanswer : (sh.routers t.inst).selectUpstream F D.hashKey D.search sh.heap
        (some t.client.display) = answer)
      (hheap : sh'.heap = sh.heap)
      (hrouters : sh'.routers = Function.update sh.routers t.inst answer.1)
      (hphase : t'.pc.phase = answer.2.elim .over .chosen)
  /-- There is no connection to the upstream. -/
  | fail {u : UpstreamRef} (hchosen : t.pc.phase = .chosen u) (hheap : sh'.heap = sh.heap)
      (hrouters : sh'.routers = sh.routers) (hphase : t'.pc.phase = .over)
  | increment {u : UpstreamRef} (hchosen : t.pc.phase = .chosen u)
      (hstate : sh' = sh.modifyStats u UpstreamStats.incrementConnections)
      (hphase : t'.pc.phase = .counted u)
  | decrement {u : UpstreamRef} (hcounted : t.pc.phase = .counted u)
      (hstate : sh' = sh.modifyStats u UpstreamStats.decrementConnections)
      (hphase : t'.pc.phase = .over)
  /-- The outcome is recorded. -/
  | record {u : UpstreamRef} {f : UpstreamStats → UpstreamStats}
      (hover : t.pc.phase = .over) (hstate : sh' = sh.modifyStats u f)
      (hactive : ∀ s, (f s).activeConnections = s.activeConnections)
      (hphase : t'.pc.phase = .over)

variable {F D}

/-- Every step of a handler has one of the effects. -/
theorem Handler.effect {sh sh' : ProxyState} {t t' : Handler} {e : Event}
    (h : t.step F D sh e = some (sh', t')) : t'.inst = t.inst ∧ Effect F D sh sh' t t' := by
  have hstep := t.step_inv h
  generalize hpc : t.pc = pc at hstep
  cases hstep with
  | start | incActive | copy | raced | countDuration =>
      exact ⟨rfl, .quiet rfl rfl (by simp [hpc, HandlerPc.phase])⟩
  | decActive =>
      unfold ProxyState.decActive
      exact ⟨rfl, .quiet (sh.count_heap _) (sh.count_routers _) (by simp [hpc, HandlerPc.phase])⟩
  | addDuration =>
      unfold ProxyState.addDuration
      exact ⟨rfl, .quiet (sh.count_heap _) (sh.count_routers _) (by simp [hpc, HandlerPc.phase])⟩
  | selected hanswer | noUpstream hanswer => exact ⟨rfl, .select hpc hanswer rfl rfl rfl⟩
  | @get upstream get get' =>
      refine ⟨rfl, ?_⟩
      have hchosen : t.pc.phase = .chosen upstream := by simp [hpc, HandlerPc.phase]
      unfold HandlerPc.afterGet
      split
      · exact .quiet rfl rfl hchosen.symm
      · exact .fail hchosen rfl rfl rfl
      · exact .quiet rfl rfl hchosen.symm
  | increment => exact ⟨rfl, .increment (by simp [hpc, HandlerPc.phase]) rfl rfl⟩
  | decrement => exact ⟨rfl, .decrement (by simp [hpc, HandlerPc.phase]) rfl rfl⟩
  | success | failure =>
      exact ⟨rfl, .record (by simp [hpc, HandlerPc.phase]) rfl (fun _ => rfl) rfl⟩

/-- A handler whose connection is over stays in that phase. -/
theorem Effect.over {sh sh' : ProxyState} {t t' : Handler} (h : Effect F D sh sh' t t')
    (hover : t.pc.phase = .over) : t'.pc.phase = .over := by
  cases h with
  | quiet hheap hrouters hphase => exact hphase.trans hover
  | select hpc => simp [hpc, HandlerPc.phase] at hover
  | fail hchosen => rw [hover] at hchosen; exact absurd hchosen (by simp)
  | increment hchosen => rw [hover] at hchosen; exact absurd hchosen (by simp)
  | decrement hcounted => rw [hover] at hcounted; exact absurd hcounted (by simp)
  | record hover' hstate hactive hphase => exact hphase

/-- What one step of the machine does: a handler moves, or the clock advances or a connection comes
in. -/
theorem step_cases {p p' : Pool ProxyState Handler} {a : Sched Event}
    (h : (machine F D).step p a = some p') :
    (∃ i e t t', a = .task i e ∧ p.tasks[i]? = some t ∧ t'.inst = t.inst ∧
        Effect F D p.shared p'.shared t t' ∧ p'.tasks = p.tasks.set i t') ∨
      (p'.shared.heap = p.shared.heap ∧ p'.shared.routers = p.shared.routers ∧
        ∃ new, p'.tasks = p.tasks ++ new ∧ ∀ t ∈ new, t.pc.phase = .unrouted) := by
  rcases machine_step h with ⟨i, e, t, sh, t', rfl, ht, hstep, rfl⟩ | ⟨ns, rfl, rfl⟩ |
    ⟨inst, client, rfl, rfl⟩
  · obtain ⟨hinst, heffect⟩ := t.effect hstep
    exact Or.inl ⟨i, e, t, t', rfl, ht, hinst, heffect, rfl⟩
  · refine Or.inr ⟨rfl, rfl, [], (List.append_nil _).symm, fun t ht => ?_⟩
    exact absurd ht List.not_mem_nil
  · refine Or.inr ⟨rfl, rfl, _, rfl, fun t ht => ?_⟩
    obtain rfl := List.mem_singleton.mp ht
    rfl

/-! ## Counting handlers by phase -/

/-- The number of handlers in a phase. -/
def inPhase (φ : Phase) (ts : List Handler) : ℕ := ts.countP fun t => t.pc.phase = φ

/-- The number changes by the handler that moves. -/
theorem inPhase_set (φ : Phase) {ts : List Handler} {i : ℕ} {t : Handler} (ht : ts[i]? = some t)
    (t' : Handler) :
    inPhase φ (ts.set i t') + (if t.pc.phase = φ then 1 else 0) =
      inPhase φ ts + if t'.pc.phase = φ then 1 else 0 := by
  have h := countP_set_append (fun t : Handler => decide (t.pc.phase = φ)) ht t' []
  simpa [inPhase] using h

/-- New handlers are in no phase but the first. -/
theorem inPhase_append {φ : Phase} (hφ : φ ≠ .unrouted) {new : List Handler}
    (hnew : ∀ t ∈ new, t.pc.phase = .unrouted) (ts : List Handler) :
    inPhase φ (ts ++ new) = inPhase φ ts := by
  unfold inPhase
  have hzero : new.countP (fun t => t.pc.phase = φ) = 0 := by
    rw [List.countP_eq_zero]
    intro t ht
    rw [hnew t ht, decide_eq_true_eq]
    exact hφ.symm
  rw [List.countP_append, hzero, Nat.add_zero]

/-! ## The number of active connections -/

section run

variable {heap : Heap} {routers : ℕ → Router} {es : List (Sched Event)}
  {p : Pool ProxyState Handler}

/-- Changing statistics neither adds nor removes upstreams. -/
@[simp] theorem modifyStats_length (sh : ProxyState) (u : UpstreamRef)
    (f : UpstreamStats → UpstreamStats) :
    (sh.modifyStats u f).heap.cells.length = sh.heap.cells.length := by
  simp [ProxyState.modifyStats, Heap.modify]

/-- No step adds or removes upstreams. -/
theorem Effect.length {sh sh' : ProxyState} {t t' : Handler} (h : Effect F D sh sh' t t') :
    sh'.heap.cells.length = sh.heap.cells.length := by
  cases h with
  | quiet hheap | fail _ hheap => rw [hheap]
  | select _ _ hheap => rw [hheap]
  | increment _ hstate | decrement _ hstate => rw [hstate, modifyStats_length]
  | record _ hstate => rw [hstate, modifyStats_length]

/-- All upstreams of the start are there in every state. -/
theorem length_of_run (hrun : (machine F D).run (initial heap routers) es = some p) :
    p.shared.heap.cells.length = heap.cells.length := by
  refine (machine F D).run_preserves
    (I := fun q => q.shared.heap.cells.length = heap.cells.length) ?_ rfl hrun
  intro q a q' hq hstep
  rcases step_cases hstep with ⟨i, e, t, t', -, -, -, heffect, -⟩ | ⟨hheap, -⟩
  · exact heffect.length.trans hq
  · rw [hheap, hq]

/-- What a step does to the number of active connections of an upstream: it adds one where the
handler's connection is counted from now on, it takes one away where it is not counted any more, and
else it leaves the number alone. -/
theorem Effect.active {sh sh' : ProxyState} {t t' : Handler} (h : Effect F D sh sh' t t')
    {u : UpstreamRef} (hu : u < sh.heap.cells.length) :
    Follows (t.pc.phase = .counted u) (t'.pc.phase = .counted u)
      (sh.heap.get u).stats.activeConnections (sh'.heap.get u).stats.activeConnections := by
  cases h with
  | quiet hheap hrouters hphase =>
      rw [hheap]
      exact .same (by rw [hphase]) _
  | @select answer hpc hanswer hheap hrouters hphase =>
      rw [hheap]
      refine .same ?_ _
      rw [hpc, hphase]
      cases answer.2 <;> simp [HandlerPc.phase]
  | fail hchosen hheap hrouters hphase =>
      rw [hheap]
      exact .same (by simp [hchosen, hphase]) _
  | @increment v hchosen hstate hphase =>
      rw [hstate, ProxyState.modifyStats]
      by_cases hv : v = u
      · subst hv
        rw [Heap.get_modify_self hu, UpstreamStats.incrementConnections]
        exact .enter (by simp [hchosen]) (by simp [hphase]) _
      · rw [Heap.get_modify_of_ne hv]
        exact .same (by simp [hchosen, hphase, hv]) _
  | @decrement v hcounted hstate hphase =>
      rw [hstate, ProxyState.modifyStats]
      by_cases hv : v = u
      · subst hv
        rw [Heap.get_modify_self hu, UpstreamStats.decrementConnections]
        exact .leave (by simp [hcounted]) (by simp [hphase]) _
      · rw [Heap.get_modify_of_ne hv]
        exact .same (by simp [hcounted, hphase, hv]) _
  | @record v f hover hstate hactive hphase =>
      have hkept : ((sh.modifyStats v f).heap.get u).stats.activeConnections =
          (sh.heap.get u).stats.activeConnections :=
        Heap.get_modify_proj (fun info => info.stats.activeConnections)
          (fun info => hactive info.stats) sh.heap v u
      rw [hstate, hkept]
      exact .same (by rw [hover, hphase]) _

/-- **The active connections of an upstream are the ones that are counted.** In every state, if no
counter overflows, `active_connections` is what it was at the start and one for each handler between
its increment and its decrement. -/
theorem active_of_run (hrun : (machine F D).run (initial heap routers) es = some p)
    {u : UpstreamRef} (hu : u < heap.cells.length)
    (hbound : (heap.get u).stats.activeConnections + p.tasks.length < 2 ^ 64) :
    (p.shared.heap.get u).stats.activeConnections =
      (heap.get u).stats.activeConnections + inPhase (.counted u) p.tasks := by
  refine (machine F D).run_induction (Q := fun _ q =>
    (heap.get u).stats.activeConnections + q.tasks.length < 2 ^ 64 →
    (q.shared.heap.get u).stats.activeConnections =
      (heap.get u).stats.activeConnections + inPhase (.counted u) q.tasks) ?_ ?_ hrun hbound
  · exact fun _ => rfl
  · clear hrun hbound
    intro es a q q' hq ih hstep hbound
    rcases step_cases hstep with ⟨i, e, t, t', -, ht, -, heffect, htasks⟩ |
      ⟨hheap, -, new, htasks, hnew⟩
    · rw [htasks, List.length_set] at hbound
      rw [htasks]
      have hactive := heffect.active (by rwa [length_of_run hq] : u < q.shared.heap.cells.length)
      exact hactive.countP (P := fun t : Handler => t.pc.phase = .counted u) ht (ih hbound) hbound
    · rw [htasks, List.length_append] at hbound
      rw [hheap, htasks, inPhase_append (by simp) hnew]
      exact ih (by omega)

end run

end steps

end HarbrRouter.Proxy.Tcp.Connection
