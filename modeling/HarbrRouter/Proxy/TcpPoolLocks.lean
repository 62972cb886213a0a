import HarbrRouter.Lib.Queues
import HarbrRouter.Proxy.TcpPool

/-!
# The lock of the connection pools

`proxy/tcp.rs`: the calls of `get_upstream_connection` and `return_connection_to_pool`, taken apart
inside the lock of the pools: taking the lock, the lookup, each turn of the loop that pops, the
creation of an entry, the size check and the push are steps of their own, between which the clock
advances and the other calls move. A step that takes the lock is enabled when nobody holds it.

**Theorem** (`mutex`): one call at a time holds the lock, and only that call changes the pools
(`TaskStep.connectionPools`): a step takes the lock only where nobody has it (`TaskStep.locked`).

**Theorem** (`tryGet_ownSteps`, `return_ownSteps`): what is done under the lock is, when the clock
stands still, `Shared.tryGetPooledConnection` and `Shared.returnConnectionToPool`. The own steps of
a call go one after the other (`OwnSteps.andThen`), and those of the loop by induction on the queue
(`loop_ownSteps`).
-/

set_option autoImplicit false

namespace HarbrRouter.Proxy.Tcp.Locks

open Transition TaskPool Queues

/-! ## Calls -/

/-- A call of `get_upstream_connection`. Source: `proxy/tcp.rs`, `TcpProxy::get_upstream_connection`
and `TcpProxy::try_get_pooled_connection` -/
inductive CallPc where
  /-- `if ctx.config.connection_pooling` -/
  | start
  /-- `ctx.connection_pools.lock()` -/
  | lock
  /-- `pools.get(&upstream.config.name)` -/
  | lookup
  /-- `pool.pop()` -/
  | pop
  /-- `is_valid(..)` of what was popped, and `touch()` -/
  | check (c : PooledConnection)
  /-- The end of the guard. -/
  | unlock (found : Option ℕ)
  /-- What comes after `try_get_pooled_connection`, and the caller with its stream. -/
  | after (get : GetPc)
  /-- The caller has given its stream back or dropped it. -/
  | released
deriving DecidableEq

/-- A call of `return_connection_to_pool`.
Source: `proxy/tcp.rs`, `TcpProxy::return_connection_to_pool` -/
inductive ReturnPc where
  /-- `if !ctx.config.connection_pooling` -/
  | start
  /-- `ctx.connection_pools.lock()` -/
  | lock
  /-- `pools.entry(upstream_name.to_string()).or_insert_with(..)` -/
  | entry
  /-- `if pool.len() < 100` -/
  | size
  /-- `pool.push(PooledConnection::new(stream))` -/
  | push
  /-- The end of the guard. -/
  | unlock
  | finished
deriving DecidableEq

/-- A call of one of the two functions. A stream that is given back goes with the call. -/
inductive Task where
  | call (config : TcpProxyConfig) (upstream : UpstreamConfig) (pc : CallPc)
  | ret (config : TcpProxyConfig) (upstreamName : String) (stream : ℕ) (pc : ReturnPc)
deriving DecidableEq

/-- A step of the code or a result of the operating system, the caller's decision what to do with
its stream, or an event of the environment. -/
inductive Event where
  | get (e : GetEvent)
  /-- The caller gives its stream back, with any context and under any name. -/
  | giveBack (config : TcpProxyConfig) (upstreamName : String)
  | drop
  /-- The clock advances. -/
  | advance (ns : ℕ)
  | call (config : TcpProxyConfig) (upstream : UpstreamConfig)
  /-- A stream that was connected elsewhere is given back. -/
  | ret (config : TcpProxyConfig) (upstreamName : String) (peer : SocketAddr)
deriving DecidableEq

namespace Task

/-- The context of the call. -/
def config : Task → TcpProxyConfig
  | .call config _ _ => config
  | .ret config _ _ _ => config

/-- The call holds the lock of the pools. -/
def locked : Task → Bool
  | .call _ _ .lookup | .call _ _ .pop | .call _ _ (.check _) | .call _ _ (.unlock _) => true
  | .ret _ _ _ .entry | .ret _ _ _ .size | .ret _ _ _ .push | .ret _ _ _ .unlock => true
  | _ => false

/-- The stream that the call or its caller has. -/
def owned : Task → Option ℕ
  | .call _ _ (.check c) => some c.stream
  | .call _ _ (.unlock found) => found
  | .call _ _ (.after (.countHit stream)) => some stream
  | .call _ _ (.after (.configuring stream)) => some stream
  | .call _ _ (.after (.finished (.ok stream))) => some stream
  | .ret _ _ stream .start | .ret _ _ stream .lock | .ret _ _ stream .entry => some stream
  | .ret _ _ stream .size | .ret _ _ stream .push => some stream
  | _ => none

/-- What the call has popped and not checked yet. -/
def popped : Task → Option PooledConnection
  | .call _ _ (.check c) => some c
  | _ => none

/-- The call is in the loop that pops. -/
def inLoop : Task → Bool
  | .call _ _ .pop | .call _ _ (.check _) => true
  | _ => false

end Task

/-- One step of a call of `get_upstream_connection`; `free`: nobody holds the lock.
Source: `proxy/tcp.rs`, `TcpProxy::get_upstream_connection` and
`TcpProxy::try_get_pooled_connection` -/
def CallPc.step (parse : ParseAddr) (free : Bool) (config : TcpProxyConfig)
    (upstream : UpstreamConfig) (sh : Shared) : CallPc → GetEvent → Option (Shared × CallPc)
  | .start, .step => some (sh, if config.connectionPooling then .lock else .after .countMiss)
  | .lock, .step => if free then some (sh, .lookup) else none
  | .lookup, .step =>
      some (sh, if (sh.connectionPools.lookup upstream.name).isSome then .pop else .unlock none)
  | .pop, .step =>
      match queue sh.connectionPools upstream.name with
      | c :: rest =>
          let connectionPools := sh.connectionPools.insert upstream.name rest
          some ({ sh with connectionPools }, .check c)
      | [] => some (sh, .unlock none)
  | .check c, .step =>
      if c.isValid maxIdleTime maxLifetime sh.now then
        let handedOut := sh.handedOut ++ [((c.touch sh.now).stream, sh.now)]
        some ({ sh with handedOut }, .unlock (some (c.touch sh.now).stream))
      else some (sh, .pop)
  | .unlock found, .step => some (sh, .after (found.elim .countMiss .countHit))
  -- `start` is the steps above
  | .after get, e =>
      if get = .start then none
      else (get.step parse config upstream sh e).map fun r => (r.1, .after r.2)
  | _, _ => none

/-- One step of a call of `return_connection_to_pool`.
Source: `proxy/tcp.rs`, `TcpProxy::return_connection_to_pool` -/
def ReturnPc.step (free : Bool) (config : TcpProxyConfig) (upstreamName : String) (stream : ℕ)
    (sh : Shared) : ReturnPc → Option (Shared × ReturnPc)
  | .start => some (sh, if config.connectionPooling then .lock else .finished)
  | .lock => if free then some (sh, .entry) else none
  | .entry =>
      let connectionPools := sh.connectionPools.insert upstreamName
        (queue sh.connectionPools upstreamName)
      some ({ sh with connectionPools }, .size)
  -- a stream for which there is no room is dropped
  | .size => some
      (sh, if (queue sh.connectionPools upstreamName).length < 100 then .push else .unlock)
  | .push =>
      let connectionPools := sh.connectionPools.insert upstreamName
        (queue sh.connectionPools upstreamName ++ [.new stream sh.now])
      some ({ sh with connectionPools }, .unlock)
  | .unlock => some (sh, .finished)
  | .finished => none

/-- Nobody holds the lock. -/
def free (ts : List Task) : Bool := ts.all fun t => !t.locked

/-- One step of a call, or of its caller. -/
def Task.step (parse : ParseAddr) (ts : List Task) (sh : Shared) :
    Task → Event → Option (Shared × Task × List Task)
  | .call config upstream pc, .get e =>
      (pc.step parse (free ts) config upstream sh e).map fun r =>
        (r.1, .call config upstream r.2, [])
  | .call config upstream (.after (.finished (.ok stream))), .giveBack config' upstreamName =>
      some (sh, .call config upstream .released, [.ret config' upstreamName stream .start])
  | .call config upstream (.after (.finished (.ok _))), .drop =>
      some (sh, .call config upstream .released, [])
  | .ret config upstreamName stream pc, .get .step =>
      (pc.step (free ts) config upstreamName stream sh).map fun r =>
        (r.1, .ret config upstreamName stream r.2, [])
  | _, _ => none

/-- Any number of calls of the two functions on the pools of one proxy. -/
def system (parse : ParseAddr) : System Shared Task Event where
  act ts sh t e := t.step parse ts sh e
  env sh
    | .advance ns => some ({ sh with now := sh.now + ns }, [])
    | .call config upstream => some (sh, [.call config upstream .start])
    | .ret config upstreamName peer => some ({ sh with streams := sh.streams ++ [⟨peer, sh.now⟩] },
        [.ret config upstreamName sh.streams.length .start])
    | _ => none

/-- The machine of the interleavings. -/
abbrev machine (parse : ParseAddr) : Machine (Pool Shared Task) (Sched Event) :=
  (system parse).machine

/-- A new proxy without calls. -/
def initial : Pool Shared Task := ⟨.new, []⟩

/-! ## What a step does -/

/-- The steps of a call and its caller, one constructor for each way on. -/
inductive TaskStep (parse : ParseAddr) (ts : List Task) (sh : Shared) :
    Task → Event → Shared → Task → List Task → Prop
  /-- Only a context with connection pooling goes for the lock. -/
  | start {config : TcpProxyConfig} {upstream : UpstreamConfig} {pc : CallPc}
      (hpc : pc = .lock ∧ config.connectionPooling = true ∨ pc = .after .countMiss) :
      TaskStep parse ts sh (.call config upstream .start) (.get .step) sh
        (.call config upstream pc) []
  | lock {config : TcpProxyConfig} {upstream : UpstreamConfig} (hfree : free ts = true) :
      TaskStep parse ts sh (.call config upstream .lock) (.get .step) sh
        (.call config upstream .lookup) []
  | lookup {config : TcpProxyConfig} {upstream : UpstreamConfig} {pc : CallPc}
      (hpc : pc = .pop ∨ pc = .unlock none) :
      TaskStep parse ts sh (.call config upstream .lookup) (.get .step) sh
        (.call config upstream pc) []
  | pop {config : TcpProxyConfig} {upstream : UpstreamConfig} {c : PooledConnection}
      {pool : List PooledConnection}
      (hqueue : queue sh.connectionPools upstream.name = c :: pool) :
      TaskStep parse ts sh (.call config upstream .pop) (.get .step)
        { sh with connectionPools := sh.connectionPools.insert upstream.name pool }
        (.call config upstream (.check c)) []
  | empty {config : TcpProxyConfig} {upstream : UpstreamConfig}
      (hqueue : queue sh.connectionPools upstream.name = []) :
      TaskStep parse ts sh (.call config upstream .pop) (.get .step) sh
        (.call config upstream (.unlock none)) []
  | valid {config : TcpProxyConfig} {upstream : UpstreamConfig} {c : PooledConnection}
      (hvalid : c.isValid maxIdleTime maxLifetime sh.now = true) :
      TaskStep parse ts sh (.call config upstream (.check c)) (.get .step)
        { sh with handedOut := sh.handedOut ++ [(c.stream, sh.now)] }
        (.call config upstream (.unlock (some c.stream))) []
  | expired {config : TcpProxyConfig} {upstream : UpstreamConfig} {c : PooledConnection}
      (hexpired : c.isValid maxIdleTime maxLifetime sh.now = false) :
      TaskStep parse ts sh (.call config upstream (.check c)) (.get .step) sh
        (.call config upstream .pop) []
  | unlock {config : TcpProxyConfig} {upstream : UpstreamConfig} {found : Option ℕ} :
      TaskStep parse ts sh (.call config upstream (.unlock found)) (.get .step) sh
        (.call config upstream (.after (found.elim .countMiss .countHit))) []
  | after {config : TcpProxyConfig} {upstream : UpstreamConfig} {get get' : GetPc} {e : GetEvent}
      {sh' : Shared} (hget : get ≠ .start)
      (hstep : get.step parse config upstream sh e = some (sh', get')) :
      TaskStep parse ts sh (.call config upstream (.after get)) (.get e) sh'
        (.call config upstream (.after get')) []
  | giveBack {config config' : TcpProxyConfig} {upstream : UpstreamConfig} {stream : ℕ}
      {upstreamName : String} :
      TaskStep parse ts sh (.call config upstream (.after (.finished (.ok stream))))
        (.giveBack config' upstreamName) sh (.call config upstream .released)
        [.ret config' upstreamName stream .start]
  | drop {config : TcpProxyConfig} {upstream : UpstreamConfig} {stream : ℕ} :
      TaskStep parse ts sh (.call config upstream (.after (.finished (.ok stream)))) .drop sh
        (.call config upstream .released) []
  | retStart {config : TcpProxyConfig} {upstreamName : String} {stream : ℕ} {pc : ReturnPc}
      (hpc : pc = .lock ∧ config.connectionPooling = true ∨ pc = .finished) :
      TaskStep parse ts sh (.ret config upstreamName stream .start) (.get .step) sh
        (.ret config upstreamName stream pc) []
  | retLock {config : TcpProxyConfig} {upstreamName : String} {stream : ℕ}
      (hfree : free ts = true) :
      TaskStep parse ts sh (.ret config upstreamName stream .lock) (.get .step) sh
        (.ret config upstreamName stream .entry) []
  | entry {config : TcpProxyConfig} {upstreamName : String} {stream : ℕ} :
      TaskStep parse ts sh (.ret config upstreamName stream .entry) (.get .step)
        { sh with
          connectionPools := sh.connectionPools.insert upstreamName
            (queue sh.connectionPools upstreamName) }
        (.ret config upstreamName stream .size) []
  | room {config : TcpProxyConfig} {upstreamName : String} {stream : ℕ}
      (hroom : (queue sh.connectionPools upstreamName).length < 100) :
      TaskStep parse ts sh (.ret config upstreamName stream .size) (.get .step) sh
        (.ret config upstreamName stream .push) []
  | full {config : TcpProxyConfig} {upstreamName : String} {stream : ℕ} :
      TaskStep parse ts sh (.ret config upstreamName stream .size) (.get .step) sh
        (.ret config upstreamName stream .unlock) []
  | push {config : TcpProxyConfig} {upstreamName : String} {stream : ℕ} :
      TaskStep parse ts sh (.ret config upstreamName stream .push) (.get .step)
        { sh with
          connectionPools := sh.connectionPools.insert upstreamName
            (queue sh.connectionPools upstreamName ++ [.new stream sh.now]) }
        (.ret config upstreamName stream .unlock) []
  | retUnlock {config : TcpProxyConfig} {upstreamName : String} {stream : ℕ} :
      TaskStep parse ts sh (.ret config upstreamName stream .unlock) (.get .step) sh
        (.ret config upstreamName stream .finished) []

variable {parse : ParseAddr} {ts new : List Task} {sh sh' : Shared} {t t' : Task} {e : Event}

/-- Every step of a call of `get_upstream_connection` is one of its ways on. -/
theorem CallPc.step_inv {config : TcpProxyConfig} {upstream : UpstreamConfig} {pc pc' : CallPc}
    {e : GetEvent} (h : pc.step parse (free ts) config upstream sh e = some (sh', pc')) :
    TaskStep parse ts sh (.call config upstream pc) (.get e) sh' (.call config upstream pc')
      [] := by
  unfold CallPc.step at h
  split at h
  · obtain ⟨rfl, rfl⟩ : _ ∧ _ := by simpa using h
    split_ifs with hpooling
    · exact .start (Or.inl ⟨rfl, hpooling⟩)
    · exact .start (Or.inr rfl)
  · split_ifs at h with hfree
    obtain ⟨rfl, rfl⟩ : _ ∧ _ := by simpa using h
    exact .lock hfree
  · obtain ⟨rfl, rfl⟩ : _ ∧ _ := by simpa using h
    split_ifs
    · exact .lookup (Or.inl rfl)
    · exact .lookup (Or.inr rfl)
  · split at h
    · next c pool hqueue =>
        obtain ⟨rfl, rfl⟩ : _ ∧ _ := by simpa using h
        exact .pop hqueue
    · next hqueue =>
        obtain ⟨rfl, rfl⟩ : _ ∧ _ := by simpa using h
        exact .empty hqueue
  · split_ifs at h with hvalid
    · obtain ⟨rfl, rfl⟩ : _ ∧ _ := by simpa using h
      exact .valid hvalid
    · obtain ⟨rfl, rfl⟩ : _ ∧ _ := by simpa using h
      exact .expired (by simpa using hvalid)
  · obtain ⟨rfl, rfl⟩ : _ ∧ _ := by simpa using h
    exact .unlock
  · split_ifs at h with hget
    obtain ⟨⟨sh₁, get'⟩, hstep, heq⟩ := Option.map_eq_some_iff.mp h
    obtain ⟨rfl, rfl⟩ : _ ∧ _ := by simpa using heq
    exact .after hget hstep
  · exact absurd h (by simp)

/-- Every step of a call of `return_connection_to_pool` is one of its ways on. -/
theorem ReturnPc.step_inv {config : TcpProxyConfig} {upstreamName : String} {stream : ℕ}
    {pc pc' : ReturnPc}
    (h : pc.step (free ts) config upstreamName stream sh = some (sh', pc')) :
    TaskStep parse ts sh (.ret config upstreamName stream pc) (.get .step) sh'
      (.ret config upstreamName stream pc') [] := by
  unfold ReturnPc.step at h
  split at h
  · obtain ⟨rfl, rfl⟩ : _ ∧ _ := by simpa using h
    split_ifs with hpooling
    · exact .retStart (Or.inl ⟨rfl, hpooling⟩)
    · exact .retStart (Or.inr rfl)
  · split_ifs at h with hfree
    obtain ⟨rfl, rfl⟩ : _ ∧ _ := by simpa using h
    exact .retLock hfree
  · obtain ⟨rfl, rfl⟩ : _ ∧ _ := by simpa using h
    exact .entry
  · obtain ⟨rfl, rfl⟩ : _ ∧ _ := by simpa using h
    split_ifs with hroom
    · exact .room hroom
    · exact .full
  · obtain ⟨rfl, rfl⟩ : _ ∧ _ := by simpa using h
    exact .push
  · obtain ⟨rfl, rfl⟩ : _ ∧ _ := by simpa using h
    exact .retUnlock
  · exact absurd h (by simp)

/-- Every step of a task is one of its ways on. -/
theorem Task.step_inv (h : t.step parse ts sh e = some (sh', t', new)) :
    TaskStep parse ts sh t e sh' t' new := by
  unfold Task.step at h
  split at h
  · obtain ⟨⟨sh₁, pc'⟩, hstep, heq⟩ := Option.map_eq_some_iff.mp h
    obtain ⟨rfl, rfl, rfl⟩ : _ ∧ _ ∧ _ := by simpa using heq
    exact CallPc.step_inv hstep
  · obtain ⟨rfl, rfl, rfl⟩ : _ ∧ _ ∧ _ := by simpa using h
    exact .giveBack
  · obtain ⟨rfl, rfl, rfl⟩ : _ ∧ _ ∧ _ := by simpa using h
    exact .drop
  · obtain ⟨⟨sh₁, pc'⟩, hstep, heq⟩ := Option.map_eq_some_iff.mp h
    obtain ⟨rfl, rfl, rfl⟩ : _ ∧ _ ∧ _ := by simpa using heq
    exact ReturnPc.step_inv hstep
  · exact absurd h (by simp)

/-- What comes after `try_get_pooled_connection` leaves the pools and the clock alone, and at most
connects one new stream. -/
theorem after_step {config : TcpProxyConfig} {upstream : UpstreamConfig} {get get' : GetPc}
    {e : GetEvent} (hget : get ≠ .start)
    (hstep : get.step parse config upstream sh e = some (sh', get')) :
    sh'.connectionPools = sh.connectionPools ∧ sh'.now = sh.now ∧
      (sh'.streams = sh.streams ∧
          ((Task.call config upstream (.after get')).owned = none ∨
            (Task.call config upstream (.after get')).owned =
              (Task.call config upstream (.after get)).owned) ∨
        ∃ s, sh'.streams = sh.streams ++ [s] ∧
          (Task.call config upstream (.after get')).owned = some sh.streams.length) := by
  have hinv := GetPc.step_inv (t := ⟨config, upstream, get, false⟩) hstep
  generalize htask : (⟨config, upstream, get, false⟩ : Tcp.Task) = task at hinv
  generalize htask' : ({ task with get := get' } : Tcp.Task) = task' at hinv
  cases hinv with
  | take hstart | miss hstart => subst htask; exact absurd hstart hget
  | hit hget' =>
      subst htask
      obtain rfl : get' = _ := congrArg Tcp.Task.get htask'
      obtain rfl : get = _ := hget'
      exact ⟨rfl, rfl, Or.inl ⟨rfl, Or.inr rfl⟩⟩
  | connect | badAddress | failed =>
      subst htask
      obtain rfl : get' = _ := congrArg Tcp.Task.get htask'
      exact ⟨rfl, rfl, Or.inl ⟨rfl, Or.inl rfl⟩⟩
  | connected =>
      subst htask
      obtain rfl : get' = _ := congrArg Tcp.Task.get htask'
      exact ⟨rfl, rfl, Or.inr ⟨_, rfl, rfl⟩⟩
  | configured hget' =>
      subst htask
      obtain rfl : get' = _ := congrArg Tcp.Task.get htask'
      obtain rfl : get = _ := hget'
      exact ⟨rfl, rfl, Or.inl ⟨rfl, Or.inr rfl⟩⟩

/-! ## Mutual exclusion -/

/-- Only the call that holds the lock changes the pools. -/
theorem TaskStep.connectionPools (h : TaskStep parse ts sh t e sh' t' new)
    (hlocked : t.locked = false) : sh'.connectionPools = sh.connectionPools := by
  cases h with
  | after hget hstep => exact (after_step hget hstep).1
  | pop | entry | push => exact absurd hlocked (by simp [Task.locked])
  | _ => rfl

/-- The clock stands still during a step. -/
theorem TaskStep.now (h : TaskStep parse ts sh t e sh' t' new) : sh'.now = sh.now := by
  cases h with
  | after hget hstep => exact (after_step hget hstep).2.1
  | _ => rfl

/-- A call that holds the lock after a step held it before, or nobody did. -/
theorem TaskStep.locked (h : TaskStep parse ts sh t e sh' t' new) (hlocked : t'.locked = true) :
    t.locked = true ∨ free ts = true := by
  cases h with
  | lock hfree | retLock hfree => exact Or.inr hfree
  | start hpc | retStart hpc =>
      rcases hpc with ⟨rfl, -⟩ | rfl
      · exact absurd hlocked (by simp [Task.locked])
      · exact absurd hlocked (by simp [Task.locked])
  | unlock | after | giveBack | drop | retUnlock => exact absurd hlocked (by simp [Task.locked])
  | _ => exact Or.inl rfl

/-- A call that a step begins is a return. -/
theorem TaskStep.new_start (h : TaskStep parse ts sh t e sh' t' new) :
    ∀ u ∈ new, ∃ config upstreamName stream, u = .ret config upstreamName stream .start := by
  cases h with
  | giveBack => exact fun u hu => ⟨_, _, _, List.mem_singleton.mp hu⟩
  | _ => exact fun u hu => absurd hu List.not_mem_nil

/-- What one step of the environment does: the clock advances, or a call comes in. -/
theorem env_cases (h : (system parse).env sh e = some (sh', new)) :
    (∃ ns, sh' = { sh with now := sh.now + ns } ∧ new = []) ∨
      (∃ config upstream, sh' = sh ∧ new = [.call config upstream .start]) ∨
      ∃ config upstreamName s, sh' = { sh with streams := sh.streams ++ [s] } ∧
        new = [.ret config upstreamName sh.streams.length .start] := by
  simp only [system] at h
  split at h
  · obtain ⟨rfl, rfl⟩ : _ ∧ _ := by simpa using h
    exact Or.inl ⟨_, rfl, rfl⟩
  · obtain ⟨rfl, rfl⟩ : _ ∧ _ := by simpa using h
    exact Or.inr (Or.inl ⟨_, _, rfl, rfl⟩)
  · obtain ⟨rfl, rfl⟩ : _ ∧ _ := by simpa using h
    exact Or.inr (Or.inr ⟨_, _, _, rfl, rfl⟩)
  · exact absurd h (by simp)

/-- At most one call holds the lock. -/
def Mutex (ts : List Task) : Prop := AtMostOne (fun t => t.locked = true) ts

/-- Every step keeps mutual exclusion. -/
theorem step_mutex {p p' : Pool Shared Task} {a : Sched Event} (hmutex : Mutex p.tasks)
    (hstep : (machine parse).step p a = some p') : Mutex p'.tasks := by
  rcases (system parse).step_cases hstep with ⟨i, e, t, sh, t', new, rfl, ht, hact, rfl⟩ |
    ⟨e, sh, new, rfl, henv, rfl⟩
  · have hinv := Task.step_inv hact
    refine AtMostOne.set_append hmutex ht ?_ fun hlocked => ?_
    · intro u hu
      obtain ⟨_, _, _, rfl⟩ := hinv.new_start u hu
      simp [Task.locked]
    · rcases hinv.locked hlocked with hlocked | hfree
      · exact Or.inl hlocked
      · exact Or.inr fun u hu => by simpa using List.all_eq_true.mp hfree u hu
  · apply AtMostOne.append hmutex
    rcases env_cases henv with ⟨_, -, rfl⟩ | ⟨_, _, -, rfl⟩ | ⟨_, _, _, -, rfl⟩
    · exact fun u hu => absurd hu List.not_mem_nil
    · exact fun u hu => by simp [List.mem_singleton.mp hu, Task.locked]
    · exact fun u hu => by simp [List.mem_singleton.mp hu, Task.locked]

/-- **Mutual exclusion.** In every run at most one call holds the lock of the pools. -/
theorem mutex {es : List (Sched Event)} {p : Pool Shared Task}
    (hrun : (machine parse).run initial es = some p) : Mutex p.tasks := by
  refine (machine parse).run_preserves (I := fun q => Mutex q.tasks)
    (fun q a q' hI hs => step_mutex hI hs) ?_ hrun
  intro i j t u hi
  exact absurd hi (by simp [initial])

/-- While a call holds the lock, a step of another call or of the environment leaves the pools
alone. -/
theorem step_connectionPools {p p' : Pool Shared Task} {a : Sched Event} {i : ℕ} {t : Task}
    (hmutex : Mutex p.tasks) (ht : p.tasks[i]? = some t) (hlocked : t.locked = true)
    (hother : ∀ e, a ≠ .task i e) (hstep : (machine parse).step p a = some p') :
    p'.shared.connectionPools = p.shared.connectionPools := by
  rcases (system parse).step_cases hstep with ⟨j, e, u, sh, u', new, rfl, hu, hact, rfl⟩ |
    ⟨e, sh, new, rfl, henv, rfl⟩
  · apply (Task.step_inv hact).connectionPools
    by_contra hne
    exact hother e (by rw [hmutex j i u t hu ht (by simpa using hne) hlocked])
  · rcases env_cases henv with ⟨_, rfl, -⟩ | ⟨_, _, rfl, -⟩ | ⟨_, _, _, rfl, -⟩
    · rfl
    · rfl
    · rfl

/-! ## What is done under the lock, in one step -/

/-- The call at the position goes from one state to the other by steps of its own, with nothing in
between. -/
def OwnSteps (parse : ParseAddr) (i : ℕ) (p p' : Pool Shared Task) : Prop :=
  ∃ n, (machine parse).run p (List.replicate n (.task i (.get .step))) = some p'

/-- Own steps after own steps are own steps. -/
theorem OwnSteps.trans {i : ℕ} {p q r : Pool Shared Task} (h₁ : OwnSteps parse i p q)
    (h₂ : OwnSteps parse i q r) : OwnSteps parse i p r := by
  obtain ⟨n₁, h₁⟩ := h₁
  obtain ⟨n₂, h₂⟩ := h₂
  refine ⟨n₁ + n₂, ?_⟩
  rw [List.replicate_add, Machine.run_append, h₁]
  exact h₂

/-- One own step of a task are own steps. -/
theorem OwnSteps.single {i : ℕ} {p : Pool Shared Task} (ht : p.tasks[i]? = some t)
    (hstep : t.step parse p.tasks p.shared (.get .step) = some (sh', t', [])) :
    OwnSteps parse i p ⟨sh', p.tasks.set i t'⟩ := by
  have h := (system parse).step_task ht hstep
  rw [List.append_nil] at h
  exact ⟨1, by simpa using h⟩

/-- Own steps of a task and one more are own steps. -/
theorem OwnSteps.andThen {i : ℕ} {p : Pool Shared Task} {tasks : List Task}
    (h : OwnSteps parse i p ⟨sh, tasks.set i t⟩) (hi : i < tasks.length)
    (hstep : t.step parse (tasks.set i t) sh (.get .step) = some (sh', t', [])) :
    OwnSteps parse i p ⟨sh', tasks.set i t'⟩ := by
  have hsingle : OwnSteps parse i ⟨sh, tasks.set i t⟩ ⟨sh', (tasks.set i t).set i t'⟩ :=
    .single (List.getElem?_set_self hi) hstep
  rw [List.set_set] at hsingle
  exact h.trans hsingle

/-- The loop, left to itself, pops what `popValid` pops. -/
theorem loop_ownSteps {i : ℕ} {config : TcpProxyConfig} {upstream : UpstreamConfig}
    {pool : List PooledConnection} {p : Pool Shared Task} {tasks : List Task}
    (h : OwnSteps parse i p ⟨sh, tasks.set i (.call config upstream .pop)⟩) (hi : i < tasks.length)
    (hpool : sh.connectionPools.lookup upstream.name = some pool) :
    ∃ pools, OwnSteps parse i p
      ⟨{ sh with
          connectionPools := pools
          handedOut := sh.handedOut ++
            ((popValid sh.now pool).1.map fun c => (c.stream, sh.now)).toList },
        tasks.set i (.call config upstream
          (.unlock ((popValid sh.now pool).1.map PooledConnection.stream)))⟩ ∧
      ∀ name, pools.lookup name = (sh.connectionPools.insert upstream.name
        (popValid sh.now pool).2).lookup name := by
  induction pool generalizing sh with
  | nil =>
      refine ⟨sh.connectionPools, ?_, fun name => ?_⟩
      · have hqueue : queue sh.connectionPools upstream.name = [] := queue_of_lookup hpool
        have hempty : OwnSteps parse i p
            ⟨sh, tasks.set i (.call config upstream (.unlock none))⟩ :=
          h.andThen hi (by simp [Task.step, CallPc.step, hqueue])
        simpa [popValid] using hempty
      · by_cases hname : name = upstream.name
        · rw [hname, hpool, AList.lookup_insert]
          rfl
        · rw [AList.lookup_insert_ne hname]
  | cons c pool ih =>
      have hqueue : queue sh.connectionPools upstream.name = c :: pool := queue_of_lookup hpool
      let sh₁ : Shared := { sh with
        connectionPools := sh.connectionPools.insert upstream.name pool }
      have hpop : OwnSteps parse i p ⟨sh₁, tasks.set i (.call config upstream (.check c))⟩ :=
        h.andThen hi (by simp [Task.step, CallPc.step, hqueue, sh₁])
      cases hvalid : c.isValid maxIdleTime maxLifetime sh.now with
      | true =>
          have hfound : OwnSteps parse i p
              ⟨{ sh₁ with handedOut := sh.handedOut ++ [(c.stream, sh.now)] },
                tasks.set i (.call config upstream (.unlock (some c.stream)))⟩ :=
            hpop.andThen hi
              (by simp [Task.step, CallPc.step, hvalid, PooledConnection.touch, sh₁])
          refine ⟨_, ?_, fun name => by rw [popValid, if_pos hvalid]⟩
          simpa [popValid, hvalid, PooledConnection.touch, sh₁] using hfound
      | false =>
          have hexpired : OwnSteps parse i p ⟨sh₁, tasks.set i (.call config upstream .pop)⟩ :=
            hpop.andThen hi (by simp [Task.step, CallPc.step, hvalid, sh₁])
          obtain ⟨pools, hrest, hlookup⟩ := ih hexpired (AList.lookup_insert _)
          refine ⟨pools, by simpa [popValid, hvalid, sh₁] using hrest, fun name => ?_⟩
          rw [hlookup name, popValid, if_neg (by simp [hvalid]), AList.insert_insert]

/-- **The access of a get under its lock is `try_get_pooled_connection`.** A call that finds the
lock free and is left to itself comes out with the stream, the queues and the hand-over of
`Shared.tryGetPooledConnection`. -/
theorem tryGet_ownSteps {i : ℕ} {config : TcpProxyConfig} {upstream : UpstreamConfig}
    {p : Pool Shared Task} (ht : p.tasks[i]? = some (.call config upstream .lock))
    (hfree : free p.tasks = true) :
    ∃ pools, OwnSteps parse i p
      ⟨{ (p.shared.tryGetPooledConnection upstream.name).1 with connectionPools := pools },
        p.tasks.set i (.call config upstream
          (.unlock (p.shared.tryGetPooledConnection upstream.name).2))⟩ ∧
      ∀ name, pools.lookup name = (p.shared.tryGetPooledConnection
        upstream.name).1.connectionPools.lookup name := by
  have hi := (List.getElem?_eq_some_iff.mp ht).1
  have hlock : OwnSteps parse i p ⟨p.shared, p.tasks.set i (.call config upstream .lookup)⟩ :=
    .single ht (by simp [Task.step, CallPc.step, hfree])
  unfold Shared.tryGetPooledConnection
  cases hpool : p.shared.connectionPools.lookup upstream.name with
  | none =>
      have habsent : OwnSteps parse i p
          ⟨p.shared, p.tasks.set i (.call config upstream (.unlock none))⟩ :=
        hlock.andThen hi (by simp [Task.step, CallPc.step, hpool])
      exact ⟨_, habsent, fun name => rfl⟩
  | some pool =>
      have hfound : OwnSteps parse i p ⟨p.shared, p.tasks.set i (.call config upstream .pop)⟩ :=
        hlock.andThen hi (by simp [Task.step, CallPc.step, hpool])
      obtain ⟨pools, hloop, hpools⟩ := loop_ownSteps hfound hi hpool
      refine ⟨pools, ?_, fun name => ?_⟩
      · cases hpop : (popValid p.shared.now pool).1 with
        | none => simpa [hpop] using hloop
        | some c => simpa [hpop] using hloop
      · rw [hpools name]
        cases hpop : (popValid p.shared.now pool).1 with
        | none => simp [hpop]
        | some c => simp [hpop]

/-- **The access of a return under its lock is `return_connection_to_pool`.** -/
theorem return_ownSteps {i : ℕ} {config : TcpProxyConfig} {upstreamName : String} {stream : ℕ}
    {p : Pool Shared Task} (ht : p.tasks[i]? = some (.ret config upstreamName stream .lock))
    (hpooling : config.connectionPooling = true) (hfree : free p.tasks = true) :
    OwnSteps parse i p
      ⟨p.shared.returnConnectionToPool config upstreamName stream,
        p.tasks.set i (.ret config upstreamName stream .unlock)⟩ := by
  have hi := (List.getElem?_eq_some_iff.mp ht).1
  obtain ⟨pool, hpool⟩ : ∃ pool, queue p.shared.connectionPools upstreamName = pool := ⟨_, rfl⟩
  have hgetD : (p.shared.connectionPools.lookup upstreamName).getD [] = pool := hpool
  let sh₁ : Shared := { p.shared with
    connectionPools := p.shared.connectionPools.insert upstreamName pool }
  have hqueue : queue sh₁.connectionPools upstreamName = pool := queue_insert _ _ _
  have hlock : OwnSteps parse i p
      ⟨p.shared, p.tasks.set i (.ret config upstreamName stream .entry)⟩ :=
    .single ht (by simp [Task.step, ReturnPc.step, hfree])
  have hentry : OwnSteps parse i p ⟨sh₁, p.tasks.set i (.ret config upstreamName stream .size)⟩ :=
    hlock.andThen hi (by simp [Task.step, ReturnPc.step, hpool, sh₁])
  by_cases hroom : pool.length < 100
  · have hsize : OwnSteps parse i p ⟨sh₁, p.tasks.set i (.ret config upstreamName stream .push)⟩ :=
      hentry.andThen hi (by simp [Task.step, ReturnPc.step, hqueue, hroom])
    have hpush : OwnSteps parse i p
        ⟨{ sh₁ with
            connectionPools := sh₁.connectionPools.insert upstreamName
              (pool ++ [.new stream sh₁.now]) },
          p.tasks.set i (.ret config upstreamName stream .unlock)⟩ :=
      hsize.andThen hi (by simp [Task.step, ReturnPc.step, hqueue])
    simpa [Shared.returnConnectionToPool, hpooling, hgetD, hroom, sh₁, AList.insert_insert]
      using hpush
  · have hsize : OwnSteps parse i p
        ⟨sh₁, p.tasks.set i (.ret config upstreamName stream .unlock)⟩ :=
      hentry.andThen hi (by simp [Task.step, ReturnPc.step, hqueue, hroom])
    simpa [Shared.returnConnectionToPool, hpooling, hgetD, hroom, sh₁] using hsize

end HarbrRouter.Proxy.Tcp.Locks
