import HarbrRouter.Proxy.TcpPool

/-!
# The age of pooled connections

`proxy/tcp.rs`: `max_lifetime` is compared with `created_at`, which `PooledConnection::new` sets
when a stream is given back, not when it was connected. So the limit counts from the last return.

**Theorem** (`handsOut_young`): in every run whose steps leave no connection in the pools that is
valid there and too old (`RetiresInTime`), the streams from the pools are at most `max_lifetime`
old. What a step hands out was pooled and valid (`TaskStep.handedOut`), and the condition keeps the
pools young (`step_young`).

**Theorem** (`retiresInTime_of_returnsEarly`): it is enough that every stream is given back early. A
connection that is valid has been idle for at most `max_idle_time`, so one that was given back at
most `max_lifetime - max_idle_time` after it was connected is young as long as it is valid
(`PooledEarly.poolsYoung`).
-/

set_option autoImplicit false

namespace HarbrRouter.Proxy.Tcp

open Transition TaskPool

/-! ## Young streams -/

/-- At the instant, the stream has been connected for at most `max_lifetime`. -/
def Young (sh : Shared) (stream instant : ℕ) : Prop :=
  ∃ s, sh.streams[stream]? = some s ∧ instant - s.establishedAt ≤ maxLifetime

/-- Every stream was young when it was handed out from the pools. -/
def HandsOutYoung (sh : Shared) : Prop :=
  ∀ stream instant, (stream, instant) ∈ sh.handedOut → Young sh stream instant

/-- At the instant, every pooled connection that is valid has a young stream. -/
def PoolsYoung (sh : Shared) (instant : ℕ) : Prop :=
  ∀ name c, Pooled sh.connectionPools name c →
    c.isValid maxIdleTime maxLifetime instant = true → Young sh c.stream instant

/-- No step leaves a connection in the pools that is valid and too old: a stream is young when it is
given back to a queue that takes it, and when the clock advances no pooled connection outgrows
`max_lifetime` while it is valid. -/
def RetiresInTime (p : Pool Shared Task) : Sched Event → Prop
  | .task i .giveBack => ∀ t, p.tasks[i]? = some t → ∀ stream, t.held = some stream →
      t.config.connectionPooling = true → p.shared.HasRoom t.upstream.name →
        Young p.shared stream p.shared.now
  | .env (.advance ns) => PoolsYoung p.shared (p.shared.now + ns)
  | _ => True

section

variable {instances : List ProxyInstanceConfig} {parse : ParseAddr}
variable {sh sh' : Shared} {t t' : Task} {e : Event} {stream instant : ℕ}

/-- New streams do not change the age of the old ones. -/
theorem Young.mono (h : Young sh stream instant)
    (hstreams : ∃ new, sh'.streams = sh.streams ++ new) : Young sh' stream instant := by
  obtain ⟨s, hs, hage⟩ := h
  obtain ⟨new, hnew⟩ := hstreams
  refine ⟨s, ?_, hage⟩
  rw [hnew, List.getElem?_append_left (List.getElem?_eq_some_iff.mp hs).1, hs]

/-- What a step hands out is a valid pooled connection. -/
theorem TaskStep.handedOut (h : TaskStep parse sh t e sh' t') :
    sh'.handedOut = sh.handedOut ∨
      ∃ name c, Pooled sh.connectionPools name c ∧
        c.isValid maxIdleTime maxLifetime sh.now = true ∧
        sh'.handedOut = sh.handedOut ++ [(c.stream, sh.now)] := by
  cases h with
  | take hget hpooling hpool hpop =>
      obtain ⟨⟨c₀, hc₀, hvalid, rfl⟩, -⟩ := popValid_spec hpop
      exact Or.inr ⟨_, c₀, ⟨_, hpool, hc₀⟩, hvalid, rfl⟩
  | giveBack =>
      obtain ⟨pools, heq⟩ := sh.returnConnectionToPool_eq t.config t.upstream.name _
      exact Or.inl (by rw [heq])
  | _ => exact Or.inl rfl

/-- From young pools a step hands out young streams. -/
theorem TaskStep.handsOutYoung (hI : HandsOutYoung sh) (hpools : PoolsYoung sh sh.now)
    (h : TaskStep parse sh t e sh' t') : HandsOutYoung sh' := by
  intro stream instant hmem
  apply Young.mono _ h.streams
  rcases h.handedOut with hsame | ⟨name, c, hc, hvalid, hnew⟩
  · rw [hsame] at hmem
    exact hI stream instant hmem
  · rw [hnew] at hmem
    rcases List.mem_append.mp hmem with hmem | hmem
    · exact hI stream instant hmem
    · obtain ⟨rfl, rfl⟩ : _ ∧ _ := by simpa using hmem
      exact hpools name c hc hvalid

/-- Young pools stay young if a stream that is given back is young. -/
theorem TaskStep.poolsYoung (hpools : PoolsYoung sh sh.now)
    (hyoung : e = .giveBack → ∀ stream, t.held = some stream →
      t.config.connectionPooling = true → sh.HasRoom t.upstream.name → Young sh stream sh.now)
    (h : TaskStep parse sh t e sh' t') : PoolsYoung sh' sh'.now := by
  intro name c hc hvalid
  rw [h.now] at hvalid ⊢
  apply Young.mono _ h.streams
  rcases h.pooled hc with hold | ⟨he, stream, hheld, hpooling, hroom, -, rfl⟩
  · exact hpools name c hold hvalid
  · exact hyoung he stream hheld hpooling hroom

/-- One step of the interleaving keeps the pools and the streams handed out young. -/
theorem step_young {p p' : Pool Shared Task} {a : Sched Event}
    (hI : HandsOutYoung p.shared ∧ PoolsYoung p.shared p.shared.now) (hretires : RetiresInTime p a)
    (hstep : (machine instances parse).step p a = some p') :
    HandsOutYoung p'.shared ∧ PoolsYoung p'.shared p'.shared.now := by
  obtain ⟨hout, hpools⟩ := hI
  rcases (system instances parse).step_cases hstep with ⟨i, e, t, sh, t', new, rfl, ht, hact, rfl⟩ |
    ⟨e, sh, new, rfl, henv, rfl⟩
  · obtain ⟨⟨sh₁, t₁⟩, htask, heq⟩ := Option.map_eq_some_iff.mp hact
    obtain ⟨rfl, rfl, rfl⟩ : _ ∧ _ ∧ _ := by simpa using heq
    have hinv := Task.step_inv htask
    refine ⟨hinv.handsOutYoung hout hpools, hinv.poolsYoung hpools ?_⟩
    intro he
    subst he
    exact hretires t ht
  · rcases env_cases henv with ⟨ns, rfl, rfl, -⟩ | ⟨inst, upstream, -, -, rfl, -⟩
    · exact ⟨hout, hretires⟩
    · exact ⟨hout, hpools⟩

/-- **The age of streams from the pools.** In every run of the TCP instances, with any advances of
the clock, whose steps leave no connection in the pools that is valid there and older than
`max_lifetime`, every stream handed out from the pools had been connected for at most
`max_lifetime`. -/
theorem handsOut_young (instances : List ProxyInstanceConfig) (parse : ParseAddr)
    (es : List (Sched Event)) (p : Pool Shared Task)
    (hretires : (machine instances parse).Along RetiresInTime initial es)
    (hrun : (machine instances parse).run initial es = some p) : HandsOutYoung p.shared := by
  have hstart : HandsOutYoung initial.shared ∧ PoolsYoung initial.shared initial.shared.now := by
    refine ⟨fun stream instant h => absurd h List.not_mem_nil, ?_⟩
    rintro name c ⟨pool, hpool, -⟩
    exact absurd hpool (by simp [initial, Shared.new])
  exact ((machine instances parse).run_preserves_along (P := RetiresInTime)
    (I := fun q => HandsOutYoung q.shared ∧ PoolsYoung q.shared q.shared.now)
    (fun q a q' hI hP hs => step_young hI hP hs) hstart hretires hrun).1

/-! ## Streams given back early -/

/-- A stream given back to a queue that takes it is young enough to be young still when its idle
time is over. -/
def ReturnsEarly (p : Pool Shared Task) : Sched Event → Prop
  | .task i .giveBack => ∀ t, p.tasks[i]? = some t → ∀ stream, t.held = some stream →
      t.config.connectionPooling = true → p.shared.HasRoom t.upstream.name →
        ∃ s, p.shared.streams[stream]? = some s ∧
          p.shared.now - s.establishedAt ≤ maxLifetime - maxIdleTime
  | _ => True

/-- Every pooled connection was given back early. -/
def PooledEarly (sh : Shared) : Prop :=
  ∀ name c, Pooled sh.connectionPools name c →
    ∃ s, sh.streams[c.stream]? = some s ∧ c.lastUsed - s.establishedAt ≤ maxLifetime - maxIdleTime

/-- Whoever was given back early is young as long as it is not idle for too long. -/
theorem PooledEarly.poolsYoung (h : PooledEarly sh) (instant : ℕ) : PoolsYoung sh instant := by
  intro name c hc hvalid
  obtain ⟨s, hs, hage⟩ := h name c hc
  unfold PooledConnection.isValid at hvalid
  obtain ⟨hidle, -⟩ : instant - c.lastUsed ≤ maxIdleTime ∧ _ := by simpa using hvalid
  refine ⟨s, hs, ?_⟩
  have hle : maxIdleTime ≤ maxLifetime := by decide
  omega

/-- A step in which what is given back is early leaves all pooled connections given back early. -/
theorem step_early {p p' : Pool Shared Task} {a : Sched Event} (hI : PooledEarly p.shared)
    (hearly : ReturnsEarly p a) (hstep : (machine instances parse).step p a = some p') :
    PooledEarly p'.shared ∧ RetiresInTime p a := by
  rcases (system instances parse).step_cases hstep with ⟨i, e, t, sh, t', new, rfl, ht, hact, rfl⟩ |
    ⟨e, sh, new, rfl, henv, rfl⟩
  · obtain ⟨⟨sh₁, t₁⟩, htask, heq⟩ := Option.map_eq_some_iff.mp hact
    obtain ⟨rfl, rfl, rfl⟩ : _ ∧ _ ∧ _ := by simpa using heq
    have hinv := Task.step_inv htask
    constructor
    · intro name c hc
      obtain ⟨new, hnew⟩ := hinv.streams
      have hold : ∃ s, p.shared.streams[c.stream]? = some s ∧
          c.lastUsed - s.establishedAt ≤ maxLifetime - maxIdleTime := by
        rcases hinv.pooled hc with hold | ⟨rfl, stream, hheld, hpooling, hroom, -, rfl⟩
        · exact hI name c hold
        · exact hearly t ht stream hheld hpooling hroom
      obtain ⟨s, hs, hage⟩ := hold
      refine ⟨s, ?_, hage⟩
      rw [hnew, List.getElem?_append_left (List.getElem?_eq_some_iff.mp hs).1, hs]
    · cases e with
      | giveBack =>
          intro u hu stream hheld hpooling hroom
          obtain ⟨s, hs, hage⟩ := hearly u hu stream hheld hpooling hroom
          exact ⟨s, hs, hage.trans (Nat.sub_le _ _)⟩
      | _ => trivial
  · rcases env_cases henv with ⟨ns, rfl, rfl, -⟩ | ⟨inst, upstream, rfl, -, rfl, -⟩
    · exact ⟨hI, hI.poolsYoung _⟩
    · exact ⟨hI, trivial⟩

/-- Connections are retired in time if every stream is given back at most `max_lifetime -
max_idle_time` after it was connected. -/
theorem retiresInTime_of_returnsEarly {es : List (Sched Event)} {p : Pool Shared Task}
    (hearly : (machine instances parse).Along ReturnsEarly initial es)
    (hrun : (machine instances parse).run initial es = some p) :
    (machine instances parse).Along RetiresInTime initial es := by
  refine (machine instances parse).along_of_invariant (I := fun q => PooledEarly q.shared)
    (fun q a q' hI hP hs => step_early hI hP hs) ?_ hearly hrun
  rintro name c ⟨pool, hpool, -⟩
  exact absurd hpool (by simp [initial, Shared.new])

/-! ## A long stay with the caller -/

/-- A caller keeps its stream for a while and gives it back, and the next call takes it. -/
def holdAndTake (i : ProxyInstanceConfig) (u : UpstreamConfig) (ns : ℕ) : List (Sched Event) :=
  [.env (.call i u), .task 0 (.get .step), .task 0 (.get .step), .task 0 (.get .connected),
    .task 0 (.get .step), .env (.advance ns), .task 0 .giveBack, .env (.call i u),
    .task 1 (.get .step)]

/-- The second call is handed the stream, however long the first one has kept it. -/
theorem run_holdAndTake {i : ProxyInstanceConfig} {u : UpstreamConfig} (hi : IsCall instances i u)
    (hpooling : i.config.tcp.connectionPooling = true) {addr : SocketAddr}
    (haddr : parse u.address = .ok addr) (ns : ℕ) :
    ∃ p, (machine instances parse).run initial (holdAndTake i u ns) = some p ∧
      p.shared.streams = [⟨addr, 0⟩] ∧ p.shared.handedOut = [(0, ns)] := by
  have hpop : popValid ns [⟨0, ns, ns⟩] = (some ⟨0, ns, ns⟩, []) := by
    simp [popValid, PooledConnection.isValid, PooledConnection.touch]
  simp [holdAndTake, Machine.run_cons, system, System.machine, System.next, initial, Task.step,
    GetPc.step, Task.held, Shared.new, Shared.tryGetPooledConnection, Shared.returnConnectionToPool,
    parseAddress, Shared.countMiss, Shared.count, hi, hpooling, haddr, lookup_singleton_queue, hpop,
    PooledConnection.new]

/-- The steps of that run retire connections in time if the stay is short enough. -/
theorem along_holdAndTake {i : ProxyInstanceConfig} {u : UpstreamConfig} (hi : IsCall instances i u)
    (hpooling : i.config.tcp.connectionPooling = true) {addr : SocketAddr}
    (haddr : parse u.address = .ok addr) {ns : ℕ} (hns : ns ≤ maxLifetime) :
    (machine instances parse).Along RetiresInTime initial (holdAndTake i u ns) := by
  simp [holdAndTake, Machine.Along, system, System.machine, System.next, initial, Task.step,
    GetPc.step, Task.held, Shared.new, Shared.tryGetPooledConnection, Shared.returnConnectionToPool,
    parseAddress, Shared.countMiss, Shared.count, hi, hpooling, haddr, RetiresInTime, PoolsYoung,
    Pooled, Young, hns]

end

/-- A stream that stays with its caller for ten seconds is young when it is handed out again. -/
theorem handsOut_young_tenSeconds :
    ∃ p, (machine [dbInstance "orders" 8000 "10.0.0.1:5432"] parseTwo).run initial
        (holdAndTake (dbInstance "orders" 8000 "10.0.0.1:5432") ⟨"db", "10.0.0.1:5432", 1, 0, 1000⟩
          (10 * 10 ^ 9)) = some p ∧
      HandsOutYoung p.shared := by
  have hi : IsCall [dbInstance "orders" 8000 "10.0.0.1:5432"]
      (dbInstance "orders" 8000 "10.0.0.1:5432") ⟨"db", "10.0.0.1:5432", 1, 0, 1000⟩ := by decide
  have haddr : parseTwo "10.0.0.1:5432" = .ok (.v4 ⟨10, 0, 0, 1⟩ 5432) := by decide
  obtain ⟨p, hp, -, -⟩ := run_holdAndTake hi rfl haddr (10 * 10 ^ 9)
  have hretires := along_holdAndTake hi rfl haddr
    (show 10 * 10 ^ 9 ≤ maxLifetime by unfold maxLifetime; omega)
  exact ⟨p, hp, handsOut_young _ _ _ _ hretires hp⟩

/-- A stream that a caller keeps for an hour and a second is handed out again. -/
theorem hands_out_old :
    ∃ es p, (machine [dbInstance "orders" 8000 "10.0.0.1:5432"] parseTwo).run initial es = some p ∧
      ¬ HandsOutYoung p.shared := by
  have hi : IsCall [dbInstance "orders" 8000 "10.0.0.1:5432"]
      (dbInstance "orders" 8000 "10.0.0.1:5432") ⟨"db", "10.0.0.1:5432", 1, 0, 1000⟩ := by decide
  obtain ⟨p, hp, hstreams, hout⟩ := run_holdAndTake hi rfl
    (show parseTwo "10.0.0.1:5432" = .ok (.v4 ⟨10, 0, 0, 1⟩ 5432) by decide) (3601 * 10 ^ 9)
  refine ⟨_, p, hp, fun hyoung => ?_⟩
  obtain ⟨s, hs, hage⟩ := hyoung 0 (3601 * 10 ^ 9) (by rw [hout]; exact List.mem_singleton_self _)
  rw [hstreams] at hs
  obtain rfl := Option.some.inj hs
  have hsince : 3601 * 10 ^ 9 - 0 ≤ maxLifetime := hage
  unfold maxLifetime at hsince
  omega

end HarbrRouter.Proxy.Tcp
