import HarbrRouter.Proxy.LeastConnections
import HarbrRouter.Proxy.TcpCounters

/-!
# No connection is ever pooled

`proxy/tcp.rs`: `handle_connection` drops its upstream connection after the streaming, and
`return_connection_to_pool` is called nowhere. So the pools stay empty, whatever the configuration
says, and each handler streams over a connection of its own, opened for it.

**Theorem** (`opened_for_each`): in every reachable state the pools are empty and no hit is
counted, and a handler with an upstream connection, up to the end of its streaming, has one that no
other handler has, to the address of the upstream that was selected for it, opened since its client
came in.

`Unpooled` is what stays true of the shared state and `Handler.Fresh` of each handler, and the steps
of other handlers do not disturb it, since they only add streams (`OpenedFor.mono`). With nothing in
the pools `get_upstream_connection` never answers a hit (`unpooled_of_get`), so it ends with a
stream that was connected just now (`ownStream_of_get`). The number of that stream is new
(`Handler.stream_of_step`), which is why no two handlers have the same.
-/

set_option autoImplicit false

namespace HarbrRouter.Proxy.Tcp.Connection

open Transition TaskPool PointRing Routing

variable {F : Type} [ScoreArith F] {D : Deployment} {heap : Heap} {routers : ℕ → Router}
  {sh sh' : ProxyState} {t t' : Handler} {e : Event}

/-! ## Streams and addresses -/

/-- The upstream connection that a handler has, up to the end of its streaming, with the
upstream. -/
def HandlerPc.stream : HandlerPc → Option (UpstreamRef × ℕ)
  | .getting upstream (.countHit stream) | .getting upstream (.configuring stream)
  | .incrementing upstream stream | .streaming upstream stream _ _ => some (upstream, stream)
  | _ => none

/-- The stream is connected to the address of the upstream, since the handler started. -/
def OpenedFor (D : Deployment) (heap : Heap) (sh : ProxyState) (startTime : ℕ)
    (upstream : UpstreamRef) (stream : ℕ) : Prop :=
  ∃ s, sh.streams[stream]? = some s ∧ D.parse (heap.get upstream).config.address = .ok s.peer ∧
    startTime ≤ s.establishedAt ∧ s.establishedAt ≤ sh.now

/-- What is true of a handler at a program point. -/
def HandlerPc.OwnStream (D : Deployment) (heap : Heap) (sh : ProxyState) (startTime : ℕ) :
    HandlerPc → Prop
  | .getting _ (.countHit _) => False
  | .getting upstream (.connecting addr) => D.parse (heap.get upstream).config.address = .ok addr
  | .getting upstream (.configuring stream) | .incrementing upstream stream
  | .streaming upstream stream _ _ => OpenedFor D heap sh startTime upstream stream
  | _ => True

/-- What stays true of the shared state: there is nothing in the pools, and the upstreams are
configured as they were. -/
structure Unpooled (heap : Heap) (sh : ProxyState) : Prop where
  pools : ∀ name c, ¬ Pooled sh.connectionPools name c
  handedOut : sh.handedOut = []
  hits : sh.metrics.poolHits = 0
  config : ∀ u, (sh.heap.get u).config = (heap.get u).config

/-- A handler started no later than now, and has a connection of its own. -/
def Handler.Fresh (D : Deployment) (heap : Heap) (sh : ProxyState) (t : Handler) : Prop :=
  t.startTime ≤ sh.now ∧ t.pc.OwnStream D heap sh t.startTime

/-- A stream stays where it is connected to. -/
theorem OpenedFor.mono {startTime stream : ℕ} {upstream : UpstreamRef}
    (h : OpenedFor D heap sh startTime upstream stream)
    (hstreams : ∃ new, sh'.streams = sh.streams ++ new) (hnow : sh.now ≤ sh'.now) :
    OpenedFor D heap sh' startTime upstream stream := by
  obtain ⟨s, hs, hpeer, hstart, hest⟩ := h
  obtain ⟨new, hnew⟩ := hstreams
  refine ⟨s, ?_, hpeer, hstart, hest.trans hnow⟩
  rw [hnew]
  exact getElem?_append_of_some hs new

/-- The stream of a handler stays where it is connected to. -/
theorem HandlerPc.OwnStream.mono {startTime : ℕ} {pc : HandlerPc}
    (h : pc.OwnStream D heap sh startTime) (hstreams : ∃ new, sh'.streams = sh.streams ++ new)
    (hnow : sh.now ≤ sh'.now) : pc.OwnStream D heap sh' startTime := by
  cases pc with
  | getting upstream get =>
      cases get with
      | configuring stream => exact OpenedFor.mono h hstreams hnow
      | _ => exact h
  | incrementing upstream stream => exact OpenedFor.mono h hstreams hnow
  | streaming upstream stream since copy => exact OpenedFor.mono h hstreams hnow
  | _ => trivial

/-- No handler has a pooled connection. -/
theorem HandlerPc.OwnStream.ne_countHit {startTime : ℕ} {upstream : UpstreamRef} {get : GetPc}
    (h : (HandlerPc.getting upstream get).OwnStream D heap sh startTime) (stream : ℕ) :
    get ≠ .countHit stream := by
  rintro rfl
  exact h

/-- Who has a connection has one of its own. -/
theorem HandlerPc.OwnStream.openedFor {startTime stream : ℕ} {upstream : UpstreamRef}
    {pc : HandlerPc} (h : pc.OwnStream D heap sh startTime)
    (hstream : pc.stream = some (upstream, stream)) :
    OpenedFor D heap sh startTime upstream stream := by
  unfold HandlerPc.stream at hstream
  split at hstream
  · exact h.elim
  · obtain ⟨rfl, rfl⟩ := Prod.mk.inj (Option.some.inj hstream)
    exact h
  · obtain ⟨rfl, rfl⟩ := Prod.mk.inj (Option.some.inj hstream)
    exact h
  · obtain ⟨rfl, rfl⟩ := Prod.mk.inj (Option.some.inj hstream)
    exact h
  · exact absurd hstream (by simp)

/-! ## What a step does -/

/-- With nothing in the pools, getting a connection leaves nothing there and counts no hit. -/
theorem unpooled_of_get {parse : ParseAddr} {config : TcpProxyConfig} {upstream : UpstreamConfig}
    {sh sh' : Shared} {get get' : GetPc} {e : GetEvent}
    (h : get.step parse config upstream sh e = some (sh', get'))
    (hpools : ∀ name c, ¬ Pooled sh.connectionPools name c)
    (hget : ∀ stream, get ≠ .countHit stream) :
    (∀ name c, ¬ Pooled sh'.connectionPools name c) ∧ sh'.handedOut = sh.handedOut ∧
      sh'.metrics.poolHits = sh.metrics.poolHits ∧ ∀ stream, get' ≠ .countHit stream := by
  have hinv := GetPc.step_inv (t := ⟨config, upstream, get, false⟩) h
  have hpooled : ∀ name c, ¬ Pooled sh'.connectionPools name c := by
    intro name c hc
    rcases hinv.pooled hc with hold | ⟨he, -⟩
    · exact hpools name c hold
    · exact absurd he (by simp)
  refine ⟨hpooled, ?_⟩
  generalize htask' : ({ config, upstream, get := get', released := false } : Task) = t' at hinv
  generalize he : Tcp.Event.get e = e' at hinv
  cases hinv with
  | take hstart hpooling hpool hpop =>
      obtain ⟨⟨c, hmem, -⟩, -⟩ := popValid_spec hpop
      exact absurd ⟨_, hpool, hmem⟩ (hpools upstream.name c)
  | hit hhit => exact absurd hhit (hget _)
  | giveBack | drop => exact absurd he (by simp)
  | _ =>
      simp only [Task.mk.injEq] at htask'
      refine ⟨rfl, rfl, fun stream => ?_⟩
      rw [htask'.2.2.1]
      simp

/-- The connection that a call of `get_upstream_connection` ends up with is to the address of the
upstream, and was opened since the handler started. -/
theorem ownStream_of_get {upstream : UpstreamRef} {get get' : GetPc} {e : GetEvent} {sh₁ : Shared}
    {config : TcpProxyConfig} {startTime : ℕ}
    (h : get.step D.parse config (heap.get upstream).config sh.toShared e = some (sh₁, get'))
    (hget' : ∀ stream, get' ≠ .countHit stream) (hstart : startTime ≤ sh.now)
    (hown : (HandlerPc.getting upstream get).OwnStream D heap sh startTime) :
    (HandlerPc.afterGet upstream get').OwnStream D heap { sh with toShared := sh₁ } startTime := by
  have hinv := GetPc.step_inv (t := ⟨config, (heap.get upstream).config, get, false⟩) h
  generalize htask' : (⟨config, (heap.get upstream).config, get', false⟩ : Task) = t' at hinv
  generalize he : Tcp.Event.get e = e' at hinv
  cases hinv with
  | take => exact absurd (congrArg Task.get htask') (hget' _)
  | miss =>
      obtain rfl := congrArg Task.get htask'
      trivial
  | hit hhit =>
      obtain rfl : get = .countHit _ := hhit
      exact hown.elim
  | connect hmiss hparse =>
      obtain rfl := congrArg Task.get htask'
      exact hparse
  | badAddress =>
      obtain rfl := congrArg Task.get htask'
      trivial
  | connected hconnecting =>
      obtain rfl := congrArg Task.get htask'
      obtain rfl : get = .connecting _ := hconnecting
      exact ⟨_, List.getElem?_concat_length, hown, hstart, le_rfl⟩
  | configured hconfiguring =>
      obtain rfl := congrArg Task.get htask'
      obtain rfl : get = .configuring _ := hconfiguring
      exact hown
  | failed =>
      obtain rfl := congrArg Task.get htask'
      trivial
  | giveBack | drop => exact absurd he (by simp)

/-- A handler's step leaves the streams connected and takes no time. -/
theorem Handler.streams_of_step (h : t.step F D sh e = some (sh', t')) :
    (∃ new, sh'.streams = sh.streams ++ new) ∧ sh'.now = sh.now := by
  have hsame : ∃ new, sh.streams = sh.streams ++ new := ⟨[], (List.append_nil _).symm⟩
  have hcount : ∀ f, (∃ new, (sh.count f).streams = sh.streams ++ new) ∧
      (sh.count f).now = sh.now := fun f => ⟨hsame, rfl⟩
  have hstep := t.step_inv h
  generalize t.pc = pc at hstep
  cases hstep with
  | start | incActive | copy | decActive | addDuration | countDuration => exact hcount _
  | @get upstream get get' e sh₁ hget =>
      have hinv := GetPc.step_inv (t := ⟨_, _, get, false⟩) hget
      exact ⟨hinv.streams, hinv.now⟩
  | _ => exact ⟨hsame, rfl⟩

/-- A handler's step leaves nothing in the pools. -/
theorem Handler.unpooled_of_step (h : t.step F D sh e = some (sh', t')) (hI : Unpooled heap sh)
    (hJ : t.Fresh D heap sh) : Unpooled heap sh' := by
  have hcount : ∀ f, (∀ m, (f m).poolHits = m.poolHits) → Unpooled heap (sh.count f) :=
    fun f hf => ⟨hI.pools, hI.handedOut, (hf _).trans hI.hits, hI.config⟩
  have hstats : ∀ u f, Unpooled heap (sh.modifyStats u f) := by
    refine fun u f => ⟨hI.pools, hI.handedOut, hI.hits, fun v => ?_⟩
    rw [← hI.config v]
    exact Heap.get_modify_proj (f := fun info => { info with stats := f info.stats })
      UpstreamInfo.config (fun _ => rfl) sh.heap u v
  have hstep := t.step_inv h
  obtain ⟨-, hown⟩ := hJ
  generalize t.pc = pc at hstep hown
  cases hstep with
  | start | incActive | copy | decActive | addDuration | countDuration =>
      exact hcount _ fun _ => rfl
  | @get upstream get get' e sh₁ hget =>
      obtain ⟨hpools, hout, hhits, -⟩ := unpooled_of_get hget hI.pools hown.ne_countHit
      exact ⟨hpools, hout.trans hI.handedOut, hhits.trans hI.hits, hI.config⟩
  | increment | decrement | success | failure => exact hstats _ _
  | selected | noUpstream | raced => exact ⟨hI.pools, hI.handedOut, hI.hits, hI.config⟩

/-- A handler's step keeps the handler's connection its own. -/
theorem Handler.fresh_of_step (h : t.step F D sh e = some (sh', t')) (hI : Unpooled heap sh)
    (hJ : t.Fresh D heap sh) : t'.Fresh D heap sh' := by
  obtain ⟨hstreams, hnow⟩ := t.streams_of_step h
  have hstep := t.step_inv h
  obtain ⟨hstart, hown⟩ := hJ
  generalize t.pc = pc at hstep hown
  cases hstep with
  | start => exact ⟨hnow.ge, trivial⟩
  | @get upstream get get' e sh₁ hget =>
      obtain ⟨-, -, -, hget'⟩ := unpooled_of_get hget hI.pools hown.ne_countHit
      rw [hI.config upstream] at hget
      exact ⟨hstart.trans hnow.ge, ownStream_of_get hget hget' hstart hown⟩
  | increment | copy =>
      exact ⟨hstart.trans hnow.ge, OpenedFor.mono hown hstreams hnow.ge⟩
  | _ => exact ⟨hstart.trans hnow.ge, trivial⟩

/-- A connection that a handler has after a step it had before, or opened just now. -/
theorem Handler.stream_of_step {upstream : UpstreamRef} {stream : ℕ}
    (h : t.step F D sh e = some (sh', t')) (hI : Unpooled heap sh) (hJ : t.Fresh D heap sh)
    (hstream : t'.pc.stream = some (upstream, stream)) :
    t.pc.stream = some (upstream, stream) ∨ stream = sh.streams.length := by
  have hstep := t.step_inv h
  obtain ⟨-, hown⟩ := hJ
  generalize t.pc = pc at hstep hown
  cases hstep with
  | @get upstream' get get' e sh₁ hget =>
      obtain ⟨-, -, -, hget'⟩ := unpooled_of_get hget hI.pools hown.ne_countHit
      have hinv := GetPc.step_inv (t := ⟨_, _, get, false⟩) hget
      generalize htask' : (⟨_, _, get', false⟩ : Task) = t₁ at hinv
      generalize he : Tcp.Event.get e = e' at hinv
      cases hinv with
      | hit hhit =>
          obtain rfl : get = .countHit _ := hhit
          exact hown.elim
      | connected =>
          obtain rfl := congrArg Task.get htask'
          obtain ⟨-, rfl⟩ := Prod.mk.inj (Option.some.inj hstream)
          exact Or.inr rfl
      | configured hconfiguring =>
          obtain rfl := congrArg Task.get htask'
          obtain rfl : get = .configuring _ := hconfiguring
          exact Or.inl hstream
      | take => exact absurd (congrArg Task.get htask') (hget' _)
      | miss | connect | badAddress | failed =>
          obtain rfl := congrArg Task.get htask'
          exact absurd hstream (by simp [HandlerPc.afterGet, HandlerPc.stream])
      | giveBack | drop => exact absurd he (by simp)
  | increment | copy => exact Or.inl hstream
  | _ => exact absurd hstream (by simp [HandlerPc.stream])

/-! ## Runs -/

/-- Of a run the pools are empty and the handlers' connections their own. -/
theorem fresh_of_run {es : List (Sched Event)} {p : Pool ProxyState Handler}
    (hrun : (machine F D).run (initial heap routers) es = some p) :
    Unpooled heap p.shared ∧ ∀ t ∈ p.tasks, t.Fresh D heap p.shared := by
  refine (system F D).run_owickiGries (P := fun _ _ => True) (I := Unpooled heap)
    (J := fun sh t => t.Fresh D heap sh) ?_ ?_ ?_ ?_
    ((machine F D).along_of_take fun _ _ _ _ _ => trivial) hrun
  · intro q i e t sh t' new hI hJ _ ht hact
    obtain ⟨⟨sh₁, t₁⟩, hstep, heq⟩ := Option.map_eq_some_iff.mp hact
    obtain ⟨rfl, rfl, rfl⟩ : _ ∧ _ ∧ _ := by simpa using heq
    have hfresh := hJ t (List.mem_of_getElem? ht)
    obtain ⟨hstreams, hnow⟩ := t.streams_of_step hstep
    refine ⟨t.unpooled_of_step hstep hI hfresh, t.fresh_of_step hstep hI hfresh, by simp, ?_⟩
    exact fun u _ hu => ⟨hu.1.trans hnow.ge, hu.2.mono hstreams hnow.ge⟩
  · intro q e sh new hI hJ _ henv
    rcases env_cases henv with ⟨ns, rfl, rfl, rfl⟩ | ⟨inst, client, rfl, rfl, rfl⟩
    · have hnow : q.shared.now ≤ q.shared.now + ns := Nat.le_add_right _ _
      refine ⟨⟨hI.pools, hI.handedOut, hI.hits, hI.config⟩, by simp, fun u _ hu => ?_⟩
      exact ⟨hu.1.trans hnow, hu.2.mono ⟨[], (List.append_nil _).symm⟩ hnow⟩
    · refine ⟨hI, fun u hu => ?_, fun u _ hu => hu⟩
      obtain rfl := List.mem_singleton.mp hu
      exact ⟨Nat.zero_le _, trivial⟩
  · refine ⟨fun name c hc => ?_, rfl, rfl, fun _ => rfl⟩
    obtain ⟨pool, hpool, -⟩ := hc
    exact absurd hpool (by simp [initial, ProxyState.new, Shared.new])
  · exact fun t ht => absurd ht List.not_mem_nil

/-- **Each handler streams over a connection of its own.** In every reachable state nothing is
pooled and no hit was ever counted; a handler with an upstream connection has one to the address of
the upstream that was selected for it, opened since the handler started; and no two handlers have
the same. -/
theorem opened_for_each {es : List (Sched Event)} {p : Pool ProxyState Handler}
    (hrun : (machine F D).run (initial heap routers) es = some p) :
    (∀ name c, ¬ Pooled p.shared.connectionPools name c) ∧ p.shared.metrics.poolHits = 0 ∧
      (∀ t ∈ p.tasks, ∀ upstream stream, t.pc.stream = some (upstream, stream) →
        OpenedFor D heap p.shared t.startTime upstream stream) ∧
      ∀ stream, AtMostOne (fun t : Handler => ∃ upstream, t.pc.stream = some (upstream, stream))
        p.tasks := by
  obtain ⟨hI, hJ⟩ := fresh_of_run hrun
  refine ⟨hI.pools, hI.hits, ?_, fun stream => ?_⟩
  · intro t ht upstream stream hstream
    exact HandlerPc.OwnStream.openedFor (hJ t ht).2 hstream
  · refine (machine F D).run_induction (Q := fun _ q => AtMostOne
      (fun t : Handler => ∃ upstream, t.pc.stream = some (upstream, stream)) q.tasks) ?_ ?_ hrun
    · exact fun i j t u hi => absurd hi (by simp [initial])
    · intro es a q q' hq hone hstep
      obtain ⟨hunpooled, hfresh⟩ := fresh_of_run hq
      rcases machine_step hstep with ⟨i, e, t, sh, t', rfl, ht, hact, rfl⟩ | ⟨ns, rfl, rfl⟩ |
        ⟨inst, client, rfl, rfl⟩
      · dsimp only
        rw [← List.append_nil (q.tasks.set i t')]
        refine hone.set_append ht (by simp) ?_
        rintro ⟨upstream, hstream⟩
        rcases t.stream_of_step hact hunpooled (hfresh t (List.mem_of_getElem? ht)) hstream with
          hold | rfl
        · exact Or.inl ⟨upstream, hold⟩
        · -- no stream had this number before
          refine Or.inr fun u hu hu' => ?_
          obtain ⟨v, hv⟩ := hu'
          obtain ⟨s, hs, -⟩ := HandlerPc.OwnStream.openedFor (hfresh u hu).2 hv
          exact absurd hs (by simp)
      · exact hone
      · exact hone.append (by simp [HandlerPc.stream])

/-- Two clients come in one after the other, and the handler of the first is streaming when that of
the second connects. -/
def twoConnect : List (Sched Event) :=
  untilSelected 0 ++ untilStreaming 0 ++ untilSelected 1 ++ (untilStreaming 1).take 4

/-- The two handlers have two connections. -/
theorem opened_for_each_twoConnect :
    ∃ p, (machine ℚ exampleDeployment).run (initial exampleUpstreams.2 exampleRouters) twoConnect =
        some p ∧
      p.tasks.map (fun t => t.pc.isStreaming) = [true, false] ∧
      p.tasks.map (fun t => t.pc.stream.map Prod.snd) = [some 0, some 1] ∧
      p.shared.metrics.poolHits = 0 := by
  obtain ⟨p, hp, hstreaming, hstreams⟩ : ∃ p, (machine ℚ exampleDeployment).run
      (initial exampleUpstreams.2 exampleRouters) twoConnect = some p ∧
      p.tasks.map (fun t => t.pc.isStreaming) = [true, false] ∧
      p.tasks.map (fun t => t.pc.stream.map Prod.snd) = [some 0, some 1] := ⟨_, rfl, rfl, rfl⟩
  exact ⟨p, hp, hstreaming, hstreams, (opened_for_each hp).2.1⟩

end HarbrRouter.Proxy.Tcp.Connection
