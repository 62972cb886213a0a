import HarbrRouter.Proxy.TcpPool

/-!
# Pools by name, shared by instances

`proxy/tcp.rs`: the pools are keyed by the bare name of an upstream, and validation makes names
unique within an instance only. Two instances may use one name for two services.

**Theorem** (`returnsOwn_iff`): every `get_upstream_connection` of every run returns a stream that
is connected to its own upstream's address exactly when instances that pool connections use a name
for one address only (`NamesAgree`). (⇐) The streams that are pooled under a name are connected to
the address of every upstream of that name (`TaskStep.pooledOwn`), so a call takes one of its own
(`TaskStep.ownTask`). (⇒) For any two upstreams of one name, a call for the first connects a stream
and gives it back, and one for the second gets it (`run_giveAndTake`).
-/

set_option autoImplicit false

namespace HarbrRouter.Proxy.Tcp

open Transition TaskPool

section

variable {instances : List ProxyInstanceConfig} {parse : ParseAddr}

/-- The stream is connected to the address of the upstream. -/
def ConnectedTo (parse : ParseAddr) (sh : Shared) (stream : ℕ) (upstream : UpstreamConfig) : Prop :=
  ∃ s, sh.streams[stream]? = some s ∧ parse upstream.address = .ok s.peer

/-- Every call that has returned a stream returned one of its own upstream. -/
def ReturnsOwn (parse : ParseAddr) (p : Pool Shared Task) : Prop :=
  ∀ t ∈ p.tasks, ∀ stream, t.get = .finished (.ok stream) →
    ConnectedTo parse p.shared stream t.upstream

/-- Wherever instances that pool connections use one name, it has one address. -/
def NamesAgree (instances : List ProxyInstanceConfig) (parse : ParseAddr) : Prop :=
  ∀ i u j v, IsCall instances i u → IsCall instances j v →
    i.config.tcp.connectionPooling = true → j.config.tcp.connectionPooling = true →
    u.name = v.name → ∀ addr, parse u.address = .ok addr → parse v.address = .ok addr

/-! ## The invariant -/

/-- A pooled stream is connected to an upstream of the queue's name, of an instance that pools. -/
def PooledOwn (instances : List ProxyInstanceConfig) (parse : ParseAddr) (sh : Shared) : Prop :=
  ∀ name c, Pooled sh.connectionPools name c →
    ∃ i u, IsCall instances i u ∧ i.config.tcp.connectionPooling = true ∧ u.name = name ∧
      ConnectedTo parse sh c.stream u

/-- What a call knows about its stream, or about the address it connects to. -/
def GetPc.Own (parse : ParseAddr) (sh : Shared) (upstream : UpstreamConfig) : GetPc → Prop
  | .start | .countMiss | .finished (.error _) => True
  | .connecting addr => parse upstream.address = .ok addr
  | .countHit stream | .configuring stream | .finished (.ok stream) =>
      ConnectedTo parse sh stream upstream

/-- A call is one of an instance, and its stream is its upstream's. -/
structure OwnTask (instances : List ProxyInstanceConfig) (parse : ParseAddr) (sh : Shared)
    (t : Task) : Prop where
  call : ∃ i, IsCall instances i t.upstream ∧ i.config.tcp = t.config
  own : t.get.Own parse sh t.upstream

variable {sh sh' : Shared} {t t' : Task} {e : Event} {stream : ℕ} {upstream : UpstreamConfig}

/-- New streams do not change the old ones. -/
theorem ConnectedTo.mono (h : ConnectedTo parse sh stream upstream)
    (hstreams : ∃ new, sh'.streams = sh.streams ++ new) :
    ConnectedTo parse sh' stream upstream := by
  obtain ⟨s, hs, hparse⟩ := h
  obtain ⟨new, hnew⟩ := hstreams
  refine ⟨s, ?_, hparse⟩
  rw [hnew, List.getElem?_append_left (List.getElem?_eq_some_iff.mp hs).1, hs]

/-- New streams do not change what a call knows. -/
theorem OwnTask.mono (h : OwnTask instances parse sh t)
    (hstreams : ∃ new, sh'.streams = sh.streams ++ new) : OwnTask instances parse sh' t := by
  refine ⟨h.call, ?_⟩
  have hown := h.own
  cases hget : t.get with
  | connecting addr =>
      rw [hget] at hown
      exact hown
  | countHit stream | configuring stream =>
      rw [hget] at hown
      exact ConnectedTo.mono hown hstreams
  | finished result =>
      rw [hget] at hown
      cases result with
      | ok stream => exact ConnectedTo.mono hown hstreams
      | error e => trivial
  | _ => trivial

/-- With agreeing names a call keeps to its own upstream's streams. -/
theorem TaskStep.ownTask (hagree : NamesAgree instances parse) (hI : PooledOwn instances parse sh)
    (hJ : OwnTask instances parse sh t) (h : TaskStep parse sh t e sh' t') :
    OwnTask instances parse sh' t' := by
  have hstreams := h.streams
  have hown := hJ.own
  cases h with
  | take hget hpooling hpool hpop =>
      -- the stream is some upstream's of the same name, and names agree
      obtain ⟨⟨c₀, hc₀, -, rfl⟩, -⟩ := popValid_spec hpop
      obtain ⟨i, u, hcall, hpooling', hname, s, hs, hparse⟩ := hI _ c₀ ⟨_, hpool, hc₀⟩
      obtain ⟨j, hcall', hconfig⟩ := hJ.call
      rw [← hconfig] at hpooling
      refine ⟨hJ.call, s, hs, ?_⟩
      exact hagree i u j t.upstream hcall hcall' hpooling' hpooling hname _ hparse
  | hit hget | configured hget =>
      rw [hget] at hown
      exact ⟨hJ.call, hown⟩
  | connect hget hparse => exact ⟨hJ.call, hparse⟩
  | connected hget =>
      rw [hget] at hown
      exact ⟨hJ.call, _, List.getElem?_concat_length, hown⟩
  | miss | badAddress | failed => exact ⟨hJ.call, trivial⟩
  | giveBack | drop => exact OwnTask.mono ⟨hJ.call, hJ.own⟩ hstreams

/-- A step keeps the pooled streams with their upstreams. -/
theorem TaskStep.pooledOwn (hI : PooledOwn instances parse sh) (hJ : OwnTask instances parse sh t)
    (h : TaskStep parse sh t e sh' t') : PooledOwn instances parse sh' := by
  intro name c hc
  rcases h.pooled hc with hold | ⟨-, stream, hheld, hpooling, -, rfl, rfl⟩
  · obtain ⟨i, u, hcall, hpooling, hname, hconn⟩ := hI name c hold
    exact ⟨i, u, hcall, hpooling, hname, hconn.mono h.streams⟩
  · obtain ⟨i, hcall, hconfig⟩ := hJ.call
    have hown := hJ.own
    rw [(t.held_eq_some hheld).1] at hown
    exact ⟨i, t.upstream, hcall, hconfig ▸ hpooling, rfl, ConnectedTo.mono hown h.streams⟩

/-! ## Runs -/

/-- With agreeing names every run returns streams of the right upstreams. -/
theorem returnsOwn_of_namesAgree (hagree : NamesAgree instances parse) {es : List (Sched Event)}
    {p : Pool Shared Task} (hrun : (machine instances parse).run initial es = some p) :
    ReturnsOwn parse p := by
  have hinv : PooledOwn instances parse p.shared ∧
      ∀ t ∈ p.tasks, OwnTask instances parse p.shared t := by
    refine (system instances parse).run_owickiGries (P := fun _ _ => True) ?_ ?_ ?_ ?_
      ((machine instances parse).along_of_take fun _ _ _ _ _ => trivial) hrun
    · intro q i e t sh t' new hI hJ _ ht hact
      obtain ⟨⟨sh₁, t₁⟩, hstep, heq⟩ := Option.map_eq_some_iff.mp hact
      obtain ⟨rfl, rfl, rfl⟩ : _ ∧ _ ∧ _ := by simpa using heq
      have hJt := hJ t (List.mem_of_getElem? ht)
      have hinv := Task.step_inv hstep
      refine ⟨hinv.pooledOwn hI hJt, hinv.ownTask hagree hI hJt, ?_, ?_⟩
      · exact fun u hu => absurd hu List.not_mem_nil
      · exact fun u _ hu => hu.mono hinv.streams
    · intro q e sh new hI hJ _ henv
      rcases env_cases henv with ⟨ns, -, rfl, rfl⟩ | ⟨inst, upstream, -, hcall, rfl, rfl⟩
      · have hsame : ∃ new, q.shared.streams = q.shared.streams ++ new :=
          ⟨[], (List.append_nil _).symm⟩
        exact ⟨hI, fun u hu => absurd hu List.not_mem_nil, fun u _ hu => hu.mono hsame⟩
      · refine ⟨hI, fun u hu => ?_, fun u _ hu => hu⟩
        obtain rfl := List.mem_singleton.mp hu
        exact ⟨⟨inst, hcall, rfl⟩, trivial⟩
    · rintro name c ⟨pool, hpool, -⟩
      exact absurd hpool (by simp [initial, Shared.new])
    · exact fun u hu => absurd hu List.not_mem_nil
  intro t ht stream hget
  have hown := (hinv.2 t ht).own
  rwa [hget] at hown

/-- One instance connects, gives its stream back, and the other one calls. -/
def giveAndTake (i : ProxyInstanceConfig) (u : UpstreamConfig) (j : ProxyInstanceConfig)
    (v : UpstreamConfig) : List (Sched Event) :=
  [.env (.call i u), .task 0 (.get .step), .task 0 (.get .step), .task 0 (.get .connected),
    .task 0 (.get .step), .task 0 .giveBack, .env (.call j v), .task 1 (.get .step),
    .task 1 (.get .step)]

/-- The second call is given the stream of the first. -/
theorem run_giveAndTake {i : ProxyInstanceConfig} {u : UpstreamConfig} {j : ProxyInstanceConfig}
    {v : UpstreamConfig} (hi : IsCall instances i u) (hj : IsCall instances j v)
    (hpi : i.config.tcp.connectionPooling = true) (hpj : j.config.tcp.connectionPooling = true)
    (hname : u.name = v.name) {addr : SocketAddr} (haddr : parse u.address = .ok addr) :
    ∃ p, (machine instances parse).run initial (giveAndTake i u j v) = some p ∧
      p.shared.streams = [⟨addr, 0⟩] ∧
      p.tasks[1]? = some ⟨j.config.tcp, v, .finished (.ok 0), false⟩ := by
  have hpop : popValid 0 [⟨0, 0, 0⟩] = (some ⟨0, 0, 0⟩, []) := by decide
  simp [giveAndTake, Machine.run_cons, system, System.machine, System.next, initial, Task.step,
    GetPc.step, Task.held, Shared.new, Shared.tryGetPooledConnection, Shared.returnConnectionToPool,
    parseAddress, Shared.countMiss, Shared.countHit, Shared.count, hi, hj, hpi, hpj, hname, haddr,
    lookup_singleton_queue, hpop, PooledConnection.new]

/-- **Streams of the right upstream.** In every run of the TCP instances, with any interleaving of
their calls, each `get_upstream_connection` returns a stream connected to its upstream's address,
if and only if instances that pool connections never use one name for two addresses. -/
theorem returnsOwn_iff (instances : List ProxyInstanceConfig) (parse : ParseAddr) :
    (∀ es p, (machine instances parse).run initial es = some p → ReturnsOwn parse p) ↔
      NamesAgree instances parse := by
  constructor
  · intro h i u j v hi hj hpi hpj hname addr haddr
    obtain ⟨p, hp, hstreams, htask⟩ := run_giveAndTake hi hj hpi hpj hname haddr
    obtain ⟨s, hs, hparse⟩ := h _ p hp _ (List.mem_of_getElem? htask) 0 rfl
    rw [hstreams] at hs
    obtain rfl := Option.some.inj hs
    exact hparse
  · intro hagree es p hrun
    exact returnsOwn_of_namesAgree hagree hrun

end

/-! ## Two services of one name -/

/-- Two instances whose upstreams have one name and two addresses. -/
def twoServices : Config where
  global := .default
  proxyInstances :=
    [dbInstance "orders" 8000 "10.0.0.1:5432", dbInstance "users" 8001 "10.0.0.2:5432"]

/-- The configuration passes validation, and in some run a call for the second service's database
is given a stream to the first one's. -/
theorem returns_foreign :
    twoServices.validate.2 = .ok () ∧
      ∃ es p, (machine twoServices.proxyInstances parseTwo).run initial es = some p ∧
        ¬ ReturnsOwn parseTwo p := by
  refine ⟨by decide, ?_⟩
  have hi : IsCall twoServices.proxyInstances (dbInstance "orders" 8000 "10.0.0.1:5432")
      ⟨"db", "10.0.0.1:5432", 1, 0, 1000⟩ := by decide
  have hj : IsCall twoServices.proxyInstances (dbInstance "users" 8001 "10.0.0.2:5432")
      ⟨"db", "10.0.0.2:5432", 1, 0, 1000⟩ := by decide
  obtain ⟨p, hp, hstreams, htask⟩ := run_giveAndTake hi hj rfl rfl rfl
    (show parseTwo "10.0.0.1:5432" = .ok (.v4 ⟨10, 0, 0, 1⟩ 5432) by decide)
  refine ⟨_, p, hp, fun hown => ?_⟩
  obtain ⟨s, hs, hparse⟩ := hown _ (List.mem_of_getElem? htask) 0 rfl
  rw [hstreams] at hs
  obtain rfl := Option.some.inj hs
  exact absurd hparse (by decide)

end HarbrRouter.Proxy.Tcp
