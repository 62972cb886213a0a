import HarbrRouter.Proxy.LeastConnections

/-!
# The counters of the TCP connection handlers

`proxy/tcp.rs`: `handle_connection` increments `connections_total` and `connections_active` when it
begins and decrements the second and counts a duration when it ends, whatever became of the
connection; `stream_bidirectional` does the same for the `active_connections` of its upstream around
the streaming.

**Theorem** (`counters_right`): in every state the active counters are the handlers in their
sections, none of them is below zero, and with no handler in flight the books are closed.

Each step of a handler, whichever exit it takes, moves a counter just when it enters or leaves the
section of that counter (`Handler.counters`), so the counters count the handlers in their sections
(`counters_of_run`, `active_mod_of_run`). The sections lie within the flight of a handler
(`countPc_le_inFlight`), and a handler that is not in flight has passed them all or none
(`countPc_of_idle`).
-/

set_option autoImplicit false

namespace HarbrRouter.Proxy.Tcp.Connection

open Transition TaskPool PointRing Routing

/-! ## The sections of a handler -/

namespace HandlerPc

/-- Has the handler counted its connection? -/
def isCounted : HandlerPc → Bool
  | .start => false
  | _ => true

/-- Is the handler between the increment and the decrement of `connections_active`? -/
def isActive : HandlerPc → Bool
  | .start | .incActive | .addDuration _ | .countDuration _ | .finished _ => false
  | _ => true

/-- Has the handler ended? -/
def isFinished : HandlerPc → Bool
  | .finished _ => true
  | _ => false

/-- The sections that the counters follow. -/
def sections (pc : HandlerPc) : Bool × Bool × Bool := (pc.isCounted, pc.isActive, pc.isFinished)

end HandlerPc

/-- The number of handlers at such program points. -/
def countPc (P : HandlerPc → Bool) (ts : List Handler) : ℕ := ts.countP fun t => P t.pc

/-- The number of handlers in flight. -/
def inFlight (ts : List Handler) : ℕ := countPc (fun pc => !pc.isFinished) ts

variable {F : Type} [ScoreArith F] {D : Deployment}

/-! ## What a step does to the counters -/

/-- Each counter follows its section. -/
structure Counters (sh sh' : ProxyState) (t t' : Handler) : Prop where
  total : Follows t.pc.isCounted t'.pc.isCounted sh.metrics.connectionsTotal
    sh'.metrics.connectionsTotal
  active : Follows t.pc.isActive t'.pc.isActive sh.metrics.connectionsActive
    sh'.metrics.connectionsActive
  durations : Follows t.pc.isFinished t'.pc.isFinished sh.metrics.connectionDurationCount
    sh'.metrics.connectionDurationCount

/-- A step between sections leaves the counters alone. -/
theorem Counters.quiet {sh sh' : ProxyState} {t t' : Handler}
    (htotal : sh'.metrics.connectionsTotal = sh.metrics.connectionsTotal)
    (hactive : sh'.metrics.connectionsActive = sh.metrics.connectionsActive)
    (hdurations : sh'.metrics.connectionDurationCount = sh.metrics.connectionDurationCount)
    (hsections : t'.pc.sections = t.pc.sections) : Counters sh sh' t t' := by
  obtain ⟨hcounted, hsection, hfinished⟩ : t'.pc.isCounted = t.pc.isCounted ∧
      t'.pc.isActive = t.pc.isActive ∧ t'.pc.isFinished = t.pc.isFinished := by
    simpa [HandlerPc.sections] using hsections
  refine ⟨?_, ?_, ?_⟩
  · rw [htotal]
    exact .same hcounted _
  · rw [hactive]
    exact .same hsection _
  · rw [hdurations]
    exact .same hfinished _

/-- The counters after a decrement. -/
theorem decActive_metrics (sh : ProxyState) : sh.decActive.metrics =
    { sh.metrics with connectionsActive := wrappingSub sh.metrics.connectionsActive 1 } := by
  rw [ProxyState.decActive, ProxyState.count, Shared.count]

/-- Getting a connection counts hits and misses only. -/
theorem metrics_of_get {parse : ParseAddr} {config : TcpProxyConfig} {upstream : UpstreamConfig}
    {sh sh' : Shared} {get get' : GetPc} {e : GetEvent}
    (h : get.step parse config upstream sh e = some (sh', get')) :
    ∃ hits misses, sh'.metrics = { sh.metrics with poolHits := hits, poolMisses := misses } := by
  have hinv := GetPc.step_inv (t := ⟨config, upstream, get, false⟩) h
  generalize htask' : ({ config, upstream, get := get', released := false } : Task) = t' at hinv
  generalize he : Tcp.Event.get e = e' at hinv
  cases hinv with
  | giveBack => exact absurd he (by simp)
  | _ => exact ⟨_, _, rfl⟩

/-- The counters follow their sections. -/
theorem Handler.counters {sh sh' : ProxyState} {t t' : Handler} {e : Event}
    (h : t.step F D sh e = some (sh', t')) : Counters sh sh' t t' := by
  have hstep := t.step_inv h
  generalize hpc : t.pc = pc at hstep
  cases hstep with
  | start =>
      unfold ProxyState.countTotal
      exact ⟨.enter (by rw [hpc]; rfl) rfl _, .same (by rw [hpc]; rfl) _,
        .same (by rw [hpc]; rfl) _⟩
  | incActive =>
      exact ⟨.same (by rw [hpc]; rfl) _, .enter (by rw [hpc]; rfl) rfl _,
        .same (by rw [hpc]; rfl) _⟩
  | decActive =>
      refine ⟨?_, ?_, ?_⟩
      all_goals rw [decActive_metrics]
      · exact .same (by rw [hpc]; rfl) _
      · exact .leave (by rw [hpc]; rfl) rfl _
      · exact .same (by rw [hpc]; rfl) _
  | countDuration =>
      exact ⟨.same (by rw [hpc]; rfl) _, .same (by rw [hpc]; rfl) _,
        .enter (by rw [hpc]; rfl) rfl _⟩
  | get hget =>
      obtain ⟨hits, misses, hmetrics⟩ := metrics_of_get hget
      refine .quiet (by simp [hmetrics]) (by simp [hmetrics]) (by simp [hmetrics]) ?_
      rw [hpc]
      unfold HandlerPc.afterGet
      split <;> rfl
  | selected | noUpstream | increment | copy | raced | decrement | success | failure |
    addDuration => exact .quiet rfl rfl rfl (by rw [hpc]; rfl)

/-! ## Runs -/

variable {heap : Heap} {routers : ℕ → Router} {es : List (Sched Event)}
  {p : Pool ProxyState Handler}

/-- **The counters count the handlers in their sections**, as far as a word can count them. -/
theorem counters_of_run (hrun : (machine F D).run (initial heap routers) es = some p) :
    p.shared.metrics.connectionsTotal = countPc HandlerPc.isCounted p.tasks % 2 ^ 64 ∧
      p.shared.metrics.connectionsActive = countPc HandlerPc.isActive p.tasks % 2 ^ 64 ∧
      p.shared.metrics.connectionDurationCount =
        countPc HandlerPc.isFinished p.tasks % 2 ^ 64 := by
  refine (machine F D).run_preserves (I := fun q =>
    q.shared.metrics.connectionsTotal = countPc HandlerPc.isCounted q.tasks % 2 ^ 64 ∧
    q.shared.metrics.connectionsActive = countPc HandlerPc.isActive q.tasks % 2 ^ 64 ∧
    q.shared.metrics.connectionDurationCount = countPc HandlerPc.isFinished q.tasks % 2 ^ 64)
    ?_ ⟨rfl, rfl, rfl⟩ hrun
  rintro q a q' ⟨htotal, hactive, hdurations⟩ hstep
  rcases machine_step hstep with ⟨i, e, t, sh, t', rfl, ht, hmove, rfl⟩ | ⟨ns, rfl, rfl⟩ |
    ⟨inst, client, rfl, rfl⟩
  · have hcounters := t.counters hmove
    have hmoves : ∀ (P : HandlerPc → Bool) (x x' : ℕ), Follows (P t.pc) (P t'.pc) x x' →
        x = countPc P q.tasks % 2 ^ 64 → x' = countPc P (q.tasks.set i t') % 2 ^ 64 := by
      intro P x x' hfollows hx
      rw [← Nat.zero_add (countPc P q.tasks)] at hx
      have h := Follows.countP_mod (P := fun u : Handler => P u.pc) hfollows ht hx
      rwa [Nat.zero_add] at h
    exact ⟨hmoves _ _ _ hcounters.total htotal, hmoves _ _ _ hcounters.active hactive,
      hmoves _ _ _ hcounters.durations hdurations⟩
  · exact ⟨htotal, hactive, hdurations⟩
  · -- the new handler is in no section yet
    simpa [countPc, List.countP_append, HandlerPc.isCounted, HandlerPc.isActive,
      HandlerPc.isFinished] using ⟨htotal, hactive, hdurations⟩

/-- No upstream has connections yet. -/
def FreshHeap (heap : Heap) : Prop := ∀ u, (heap.get u).stats.activeConnections = 0

/-- A heap without upstreams is fresh. -/
theorem FreshHeap.empty : FreshHeap .empty := fun _ => rfl

/-- A fresh heap stays fresh while a router gets its upstreams. -/
theorem FreshHeap.updateUpstreams (hfresh : FreshHeap heap) (hashKey : String → U64)
    (router : Router) (configs : List UpstreamConfig) (now : ℕ) :
    FreshHeap (router.updateUpstreams hashKey heap configs now).2 := by
  intro u
  have hcells : (router.updateUpstreams hashKey heap configs now).2.cells =
      heap.cells ++ configs.map fun config => .new config now := rfl
  have hold := hfresh u
  unfold Heap.get at hold ⊢
  rw [hcells, List.getD_eq_getElem?_getD]
  rw [List.getD_eq_getElem?_getD] at hold
  by_cases hu : u < heap.cells.length
  · rwa [List.getElem?_append_left hu]
  · rw [List.getElem?_append_right (not_lt.mp hu), List.getElem?_map]
    cases configs[u - heap.cells.length]? with
    | none => rfl
    | some config => rfl

/-- **`active_connections` of each upstream counts the handlers that stream over it**, as far as a
word can count them. -/
theorem active_mod_of_run (hfresh : FreshHeap heap)
    (hrun : (machine F D).run (initial heap routers) es = some p) {u : UpstreamRef}
    (hu : u < heap.cells.length) : (p.shared.heap.get u).stats.activeConnections =
      inPhase (.counted u) p.tasks % 2 ^ 64 := by
  have hI := (machine F D).run_preserves (I := fun q =>
    q.shared.heap.cells.length = heap.cells.length ∧
    (q.shared.heap.get u).stats.activeConnections = (0 + inPhase (.counted u) q.tasks) % 2 ^ 64)
    ?_ ⟨rfl, hfresh u⟩ hrun
  · rw [hI.2, Nat.zero_add]
  · rintro q a q' ⟨hlength, hcount⟩ hstep
    rcases step_cases hstep with ⟨i, e, t, t', -, ht, -, heffect, htasks⟩ |
      ⟨hheap, -, new, htasks, hnew⟩
    · refine ⟨heffect.length.trans hlength, ?_⟩
      rw [htasks]
      exact (heffect.active (hlength ▸ hu)).countP_mod (P := fun t : Handler =>
        decide (t.pc.phase = .counted u)) ht hcount
    · rw [hheap, htasks, inPhase_append (by simp) hnew]
      exact ⟨hlength, hcount⟩

/-! ## The counters are right -/

/-- The active counters are the handlers in their sections, exactly and without underflow unless
`2 ^ 64` handlers are in flight, and with none in flight the books are closed. -/
structure CountersRight (p : Pool ProxyState Handler) : Prop where
  upstream_mod : ∀ u < p.shared.heap.cells.length,
    (p.shared.heap.get u).stats.activeConnections = inPhase (.counted u) p.tasks % 2 ^ 64
  active_mod : p.shared.metrics.connectionsActive = countPc HandlerPc.isActive p.tasks % 2 ^ 64
  upstream : inFlight p.tasks < 2 ^ 64 → ∀ u < p.shared.heap.cells.length,
    (p.shared.heap.get u).stats.activeConnections = inPhase (.counted u) p.tasks
  active : inFlight p.tasks < 2 ^ 64 →
    p.shared.metrics.connectionsActive = countPc HandlerPc.isActive p.tasks
  /-- Whoever will decrement a counter finds it positive. -/
  no_underflow : inFlight p.tasks < 2 ^ 64 → ∀ t ∈ p.tasks,
    (∀ u < p.shared.heap.cells.length, t.pc.phase = .counted u →
      0 < (p.shared.heap.get u).stats.activeConnections) ∧
    (t.pc.isActive = true → 0 < p.shared.metrics.connectionsActive)
  idle : inFlight p.tasks = 0 →
    p.shared.metrics.connectionsTotal = p.shared.metrics.connectionDurationCount ∧
    p.shared.metrics.connectionsActive = 0 ∧
    ∀ u < p.shared.heap.cells.length, (p.shared.heap.get u).stats.activeConnections = 0

/-- A handler in one of the sections is in flight. -/
theorem countPc_le_inFlight {P : HandlerPc → Bool} (hP : ∀ pc, P pc = true → pc.isFinished = false)
    (ts : List Handler) : countPc P ts ≤ inFlight ts := by
  refine List.countP_mono_left fun t _ ht => ?_
  simp [hP t.pc ht]

/-- A handler that is counted for an upstream is in flight. -/
theorem inPhase_counted_le_inFlight (u : UpstreamRef) (ts : List Handler) :
    inPhase (.counted u) ts ≤ inFlight ts := by
  refine countPc_le_inFlight (P := fun pc => decide (pc.phase = .counted u)) ?_ ts
  intro pc hpc
  cases pc <;> simp_all [HandlerPc.phase, HandlerPc.isFinished]

/-- With no handler in flight every connection was counted, and so was its duration. -/
theorem countPc_of_idle {ts : List Handler} (hidle : inFlight ts = 0) :
    countPc HandlerPc.isCounted ts = countPc HandlerPc.isFinished ts := by
  unfold inFlight countPc at hidle
  rw [List.countP_eq_zero] at hidle
  refine List.countP_congr fun t ht => ?_
  have hfinished : t.pc.isFinished = true := by simpa using hidle t ht
  cases hpc : t.pc with
  | finished => simp [HandlerPc.isCounted, HandlerPc.isFinished]
  | _ => exact absurd hfinished (by simp [hpc, HandlerPc.isFinished])

/-- **The counters of the connection handlers are right**, for any number of handlers, however they
are interleaved and by whichever exit each of them leaves. -/
theorem counters_right (F : Type) [ScoreArith F] (D : Deployment) (heap : Heap)
    (routers : ℕ → Router) (hfresh : FreshHeap heap) (es : List (Sched Event))
    (p : Pool ProxyState Handler)
    (hrun : (machine F D).run (initial heap routers) es = some p) : CountersRight p := by
  obtain ⟨htotal, hactive, hdurations⟩ := counters_of_run hrun
  have hupstream : ∀ u < p.shared.heap.cells.length,
      (p.shared.heap.get u).stats.activeConnections = inPhase (.counted u) p.tasks % 2 ^ 64 :=
    fun u hu => active_mod_of_run hfresh hrun (by rwa [length_of_run hrun] at hu)
  have hsection := countPc_le_inFlight (P := HandlerPc.isActive) (fun pc hpc => by
    cases pc <;> simp_all [HandlerPc.isActive, HandlerPc.isFinished]) p.tasks
  have hupstreamExact : inFlight p.tasks < 2 ^ 64 → ∀ u < p.shared.heap.cells.length,
      (p.shared.heap.get u).stats.activeConnections = inPhase (.counted u) p.tasks := by
    intro hfew u hu
    rw [hupstream u hu,
      Nat.mod_eq_of_lt ((inPhase_counted_le_inFlight u p.tasks).trans_lt hfew)]
  have hactiveExact : inFlight p.tasks < 2 ^ 64 →
      p.shared.metrics.connectionsActive = countPc HandlerPc.isActive p.tasks := by
    intro hfew
    rw [hactive, Nat.mod_eq_of_lt (hsection.trans_lt hfew)]
  refine ⟨hupstream, hactive, hupstreamExact, hactiveExact, ?_, ?_⟩
  · intro hfew t ht
    constructor
    · intro u hu hcounted
      rw [hupstreamExact hfew u hu]
      exact List.countP_pos_iff.mpr ⟨t, ht, by simp [hcounted]⟩
    · intro hin
      rw [hactiveExact hfew]
      exact List.countP_pos_iff.mpr ⟨t, ht, hin⟩
  · intro hidle
    refine ⟨by rw [htotal, hdurations, countPc_of_idle hidle], ?_, fun u hu => ?_⟩
    · rw [hactiveExact (by omega)]
      omega
    · have hle := inPhase_counted_le_inFlight u p.tasks
      rw [hupstreamExact (by omega) u hu]
      omega

/-- The counters are right while one connection is streaming. -/
theorem counters_right_streaming :
    ∃ p, (machine ℚ exampleDeployment).run (initial exampleUpstreams.2 exampleRouters)
        (untilSelected 0 ++ untilStreaming 0) = some p ∧
      inPhase (.counted 0) p.tasks = 1 ∧ CountersRight p := by
  obtain ⟨p, hp, hcounted⟩ : ∃ p, (machine ℚ exampleDeployment).run
      (initial exampleUpstreams.2 exampleRouters) (untilSelected 0 ++ untilStreaming 0) = some p ∧
      inPhase (.counted 0) p.tasks = 1 := ⟨_, rfl, rfl⟩
  have hfresh : FreshHeap exampleUpstreams.2 := FreshHeap.empty.updateUpstreams _ _ _ _
  exact ⟨p, hp, hcounted, counters_right ℚ exampleDeployment _ _ hfresh _ p hp⟩

end HarbrRouter.Proxy.Tcp.Connection
