import HarbrRouter.Counter
import HarbrRouter.Proxy.Http

/-!
# The counters of the HTTP proxy

`proxy/http.rs`: `handle_request` increments `connections_active` before its await and decrements it
behind it, with no guard that would do so when the handler is dropped there.

**Theorem** (`counters_right_iff`): with all live handlers at their await, the counters are right
exactly when no handler was dropped. Each of the counters follows a section of the handler: a step
that enters the section increments it and one that leaves it decrements it (`Handler.counters`), so
it counts the handlers in the section (`counters_of_run`). The section of `connections_active` is
left by an own step only, so a dropped handler stays in it. With the live handlers at their await
the sections are those, the dropped ones and the ended ones (`countPc_of_suspended`), and what is
left is arithmetic.
-/

set_option autoImplicit false

namespace HarbrRouter.Proxy.Http

open Transition TaskPool PointRing Routing Tally

/-! ## The sections of a handler -/

namespace HandlerPc

/-- Has the handler counted its request? -/
def isCounted : HandlerPc → Bool
  | .start => false
  | _ => true

/-- Is the handler behind the increment of `connections_active`, with no decrement made? -/
def isActive : HandlerPc → Bool
  | .start | .incActive | .addDuration _ | .countStatus _ | .finished _ => false
  | _ => true

/-- Has the handler ended? -/
def isFinished : HandlerPc → Bool
  | .finished _ => true
  | _ => false

/-- Was the handler dropped? -/
def isDropped : HandlerPc → Bool
  | .dropped => true
  | _ => false

/-- The sections that the counters follow. -/
def sections (pc : HandlerPc) : Bool × Bool × Bool := (pc.isCounted, pc.isActive, pc.isFinished)

/-- Is the handler live: neither ended nor dropped? -/
def isLive : HandlerPc → Bool
  | .finished _ | .dropped => false
  | _ => true

/-- Is the handler suspended at its await? -/
def isSuspended : HandlerPc → Bool
  | .requesting _ _ _ => true
  | _ => false

end HandlerPc

/-- The number of handlers at such program points. -/
def countPc (P : HandlerPc → Bool) (ts : List Handler) : ℕ := ts.countP fun t => P t.pc

section

variable {F : Type} [ScoreArith F] {D : Deployment}

/-- What a step of a handler does to the counters. -/
structure Counters (sh sh' : ProxyState) (t t' : Handler) : Prop where
  requests : Follows t.pc.isCounted t'.pc.isCounted sh.metrics.requestsTotal
    sh'.metrics.requestsTotal
  active : Follows t.pc.isActive t'.pc.isActive sh.metrics.connectionsActive
    sh'.metrics.connectionsActive
  statuses : (t.pc.isFinished = false → total sh.metrics.statusCodes + 1 < 2 ^ 64) →
    Follows t.pc.isFinished t'.pc.isFinished (total sh.metrics.statusCodes)
      (total sh'.metrics.statusCodes)

/-- A step between sections leaves the counters alone. -/
theorem Counters.quiet {sh sh' : ProxyState} {t t' : Handler}
    (hrequests : sh'.metrics.requestsTotal = sh.metrics.requestsTotal)
    (hactive : sh'.metrics.connectionsActive = sh.metrics.connectionsActive)
    (hstatuses : sh'.metrics.statusCodes = sh.metrics.statusCodes)
    (hsections : t'.pc.sections = t.pc.sections) : Counters sh sh' t t' := by
  obtain ⟨hcounted, hsection, hfinished⟩ : t'.pc.isCounted = t.pc.isCounted ∧
      t'.pc.isActive = t.pc.isActive ∧ t'.pc.isFinished = t.pc.isFinished := by
    simpa [HandlerPc.sections] using hsections
  refine ⟨?_, ?_, fun _ => ?_⟩
  · rw [hrequests]
    exact .same hcounted _
  · rw [hactive]
    exact .same hsection _
  · rw [hstatuses]
    exact .same hfinished _

/-- Counting a status counts one more. -/
theorem total_countStatus {sh : ProxyState} (status : ℕ)
    (hroom : total sh.metrics.statusCodes + 1 < 2 ^ 64) :
    total (sh.countStatus status).metrics.statusCodes =
      wrappingAdd (total sh.metrics.statusCodes) 1 := by
  have hle := count_le_total sh.metrics.statusCodes status
  have hinsert := total_insert sh.metrics.statusCodes status
    (wrappingAdd (Tally.count sh.metrics.statusCodes status) 1)
  unfold ProxyState.countStatus
  rw [ProxyState.count_metrics]
  dsimp only
  rw [wrappingAdd_eq (by omega)] at hinsert ⊢
  rw [wrappingAdd_eq (by omega)]
  omega

/-- The counters follow their sections. -/
theorem Handler.counters {sh sh' : ProxyState} {t t' : Handler} {e : Event}
    (h : t.step F D sh e = some (sh', t')) : Counters sh sh' t t' := by
  have hstep := t.step_inv h
  generalize hpc : t.pc = pc at hstep
  cases hstep with
  | start =>
      refine ⟨.enter (by rw [hpc]; rfl) rfl _, .same (by rw [hpc]; rfl) _, fun _ => ?_⟩
      exact .same (by rw [hpc]; rfl) _
  | incActive =>
      refine ⟨.same (by rw [hpc]; rfl) _, .enter (by rw [hpc]; rfl) rfl _, fun _ => ?_⟩
      exact .same (by rw [hpc]; rfl) _
  | decActive =>
      refine ⟨?_, ?_, fun _ => ?_⟩
      all_goals rw [ProxyState.decActive_metrics]
      · exact .same (by rw [hpc]; rfl) _
      · exact .leave (by rw [hpc]; rfl) rfl _
      · exact .same (by rw [hpc]; rfl) _
  | countStatus =>
      refine ⟨.same (by rw [hpc]; rfl) _, .same (by rw [hpc]; rfl) _, fun hroom => ?_⟩
      have hbefore : t.pc.isFinished = false := by rw [hpc]; rfl
      rw [total_countStatus _ (hroom hbefore)]
      exact .enter hbefore rfl _
  -- a dropped handler stays active
  | drop => exact .quiet rfl rfl rfl (by rw [hpc]; rfl)
  | selected | noUpstream | noUri | notTransformed | prepared | countSent | responded |
    requestFailed | timedOut | success | failure | countReceived | addDuration =>
      exact .quiet rfl rfl rfl (by rw [hpc]; rfl)

/-! ## Runs -/

variable {heap : Heap} {routers : ℕ → Router} {es : List (Sched Event)}
variable {p : Pool ProxyState Handler}

/-- **The counters count the handlers in their sections**, in every state that fewer than `2 ^ 64`
requests have reached. -/
theorem counters_of_run (hrun : (machine F D).run (initial heap routers) es = some p)
    (hbound : p.tasks.length < 2 ^ 64) :
    p.shared.metrics.requestsTotal = countPc HandlerPc.isCounted p.tasks ∧
      p.shared.metrics.connectionsActive = countPc HandlerPc.isActive p.tasks ∧
      total p.shared.metrics.statusCodes = countPc HandlerPc.isFinished p.tasks := by
  refine (machine F D).run_induction (Q := fun _ q => q.tasks.length < 2 ^ 64 →
    q.shared.metrics.requestsTotal = countPc HandlerPc.isCounted q.tasks ∧
    q.shared.metrics.connectionsActive = countPc HandlerPc.isActive q.tasks ∧
    total q.shared.metrics.statusCodes = countPc HandlerPc.isFinished q.tasks) ?_ ?_ hrun hbound
  · exact fun _ => ⟨rfl, rfl, rfl⟩
  · intro es a q q' hq ih hstep hbound
    rcases machine_step hstep with ⟨i, e, t, sh, t', rfl, ht, hmove, rfl⟩ | ⟨ns, rfl, rfl⟩ |
      ⟨inst, req, rfl, rfl⟩
    · rw [List.length_set] at hbound
      obtain ⟨hrequests, hactive, hstatuses⟩ := ih hbound
      have hcounters := t.counters hmove
      have hroom : t.pc.isFinished = false → total q.shared.metrics.statusCodes + 1 < 2 ^ 64 := by
        intro hlive
        have hlt : countPc HandlerPc.isFinished q.tasks < q.tasks.length := by
          rw [countPc, List.countP_lt_length_iff]
          exact ⟨t, List.mem_of_getElem? ht, hlive⟩
        omega
      have hmoves : ∀ (P : HandlerPc → Bool) (x x' : ℕ), Follows (P t.pc) (P t'.pc) x x' →
          x = countPc P q.tasks → x' = countPc P (q.tasks.set i t') := by
        intro P x x' hfollows hx
        have hx₀ : x = 0 + q.tasks.countP fun u => P u.pc := by rw [Nat.zero_add, hx, countPc]
        have h := Follows.countP (P := fun u : Handler => P u.pc) hfollows ht hx₀ (by omega)
        rwa [Nat.zero_add] at h
      exact ⟨hmoves _ _ _ hcounters.requests hrequests, hmoves _ _ _ hcounters.active hactive,
        hmoves _ _ _ (hcounters.statuses hroom) hstatuses⟩
    · exact ih hbound
    · -- the new handler is in no section yet
      rw [List.length_append] at hbound
      have hold := ih (by omega)
      simpa [countPc, List.countP_append, HandlerPc.isCounted, HandlerPc.isActive,
        HandlerPc.isFinished] using hold

/-! ## States in which all live handlers wait -/

/-- With every live handler at its await, the sections are the live handlers, the dropped ones and
the ended ones. -/
theorem countPc_of_suspended {ts : List Handler}
    (hsuspended : ∀ t ∈ ts, t.pc.isLive = true → t.pc.isSuspended = true) :
    countPc HandlerPc.isActive ts =
        countPc HandlerPc.isLive ts + countPc HandlerPc.isDropped ts ∧
      countPc HandlerPc.isCounted ts =
        countPc HandlerPc.isLive ts + countPc HandlerPc.isDropped ts +
          countPc HandlerPc.isFinished ts := by
  induction ts with
  | nil => exact ⟨rfl, rfl⟩
  | cons t ts ih =>
      obtain ⟨hactive, hcounted⟩ := ih fun u hu => hsuspended u (List.mem_cons_of_mem t hu)
      have ht := hsuspended t List.mem_cons_self
      have hcons : ∀ P : HandlerPc → Bool,
          countPc P (t :: ts) = countPc P ts + if P t.pc then 1 else 0 := fun P => List.countP_cons
      simp only [hcons, hactive, hcounted]
      cases hpc : t.pc with
      | requesting | finished | dropped =>
          simp only [HandlerPc.isActive, HandlerPc.isLive, HandlerPc.isDropped,
            HandlerPc.isCounted, HandlerPc.isFinished, if_true, Bool.false_eq_true, if_false]
          omega
      | _ =>
          rw [hpc] at ht
          exact absurd (ht rfl) Bool.false_ne_true

/-- The counters as they should be: `connections_active` counts the live handlers, and
`requests_total` those, the dropped ones and the answered requests. -/
def CountersRight (p : Pool ProxyState Handler) : Prop :=
  p.shared.metrics.connectionsActive = countPc HandlerPc.isLive p.tasks ∧
    p.shared.metrics.requestsTotal =
      countPc HandlerPc.isLive p.tasks + countPc HandlerPc.isDropped p.tasks +
        total p.shared.metrics.statusCodes

/-- **When the counters are right.** For any interleaving of fewer than `2 ^ 64` handlers, in every
state in which each live handler is suspended at its await, the counters are right if and only if no
handler was dropped. -/
theorem counters_right_iff (F : Type) [ScoreArith F] (D : Deployment) (heap : Heap)
    (routers : ℕ → Router) (es : List (Sched Event)) (p : Pool ProxyState Handler)
    (hrun : (machine F D).run (initial heap routers) es = some p)
    (hsuspended : ∀ t ∈ p.tasks, t.pc.isLive = true → t.pc.isSuspended = true)
    (hbound : p.tasks.length < 2 ^ 64) :
    CountersRight p ↔ ∀ t ∈ p.tasks, t.pc ≠ .dropped := by
  obtain ⟨hrequests, hactive, hstatuses⟩ := counters_of_run hrun hbound
  obtain ⟨hactive', hrequests'⟩ := countPc_of_suspended hsuspended
  have hnone : countPc HandlerPc.isDropped p.tasks = 0 ↔ ∀ t ∈ p.tasks, t.pc ≠ .dropped := by
    unfold countPc
    rw [List.countP_eq_zero]
    apply forall₂_congr
    intro t _
    cases t.pc <;> simp [HandlerPc.isDropped]
  unfold CountersRight
  rw [← hnone]
  constructor
  · rintro ⟨hlive, -⟩
    omega
  · intro hzero
    constructor
    · omega
    · omega

end

/-! ## One request -/

/-- Parsing accepts everything, and every header is a text. -/
def exampleCrate : HttpCrate where
  fromBytes := .ok
  fromStr := fun text => .ok (bytes text)
  toStr := fun _ => none
  parseUri := fun text => .ok ⟨some "http", some text, none⟩

/-- One instance with the default configuration. -/
def exampleDeployment : Deployment where
  config := fun _ => ⟨"web", .http, .v4 ⟨0, 0, 0, 0⟩ 80, [], .default⟩
  crate := exampleCrate
  hashKey := fun key => key.hash.toFin
  search := .linear U64

/-- One upstream, behind the router of the instance. -/
def exampleUpstreams : Router × Heap :=
  (Router.new .roundRobin).updateUpstreams exampleDeployment.hashKey .empty
    [⟨"a", "10.0.0.1:80", 1, 0, 1000⟩] 0

/-- A request without headers. -/
def exampleRequest : Request := ⟨⟨none, none, some "/"⟩, ⟨[]⟩, []⟩

/-- The steps of the handler of the request, up to the await. -/
def untilRequesting : List (Sched Event) :=
  .env (.request 0 exampleRequest) :: List.replicate 5 (.task 0 .step)

/-- While the handler waits, the counters are right. -/
theorem counters_right_iff_waiting :
    ∃ p, (machine ℚ exampleDeployment).run (initial exampleUpstreams.2 fun _ => exampleUpstreams.1)
        untilRequesting = some p ∧ CountersRight p := by
  obtain ⟨p, hp, hlength, hpcs⟩ : ∃ p, (machine ℚ exampleDeployment).run
      (initial exampleUpstreams.2 fun _ => exampleUpstreams.1) untilRequesting = some p ∧
      p.tasks.length = 1 ∧ p.tasks.all (fun t => t.pc.isSuspended) = true := ⟨_, rfl, rfl, rfl⟩
  rw [List.all_eq_true] at hpcs
  refine ⟨p, hp, (counters_right_iff ℚ exampleDeployment _ _ _ p hp (fun t ht _ => hpcs t ht)
    (by omega)).mpr fun t ht hdropped => ?_⟩
  have hwaits := hpcs t ht
  rw [hdropped] at hwaits
  exact absurd hwaits (by decide)

/-- When the client goes away there, no handler is live, and one connection stays active. -/
theorem dropped_stays_active :
    ∃ p, (machine ℚ exampleDeployment).run (initial exampleUpstreams.2 fun _ => exampleUpstreams.1)
        (untilRequesting ++ [.task 0 .drop]) = some p ∧
      (∀ t ∈ p.tasks, t.pc.isLive = true → t.pc.isSuspended = true) ∧ ¬ CountersRight p := by
  obtain ⟨p, hp, hlive, hactive⟩ : ∃ p, (machine ℚ exampleDeployment).run
      (initial exampleUpstreams.2 fun _ => exampleUpstreams.1)
      (untilRequesting ++ [.task 0 .drop]) = some p ∧
      countPc HandlerPc.isLive p.tasks = 0 ∧ p.shared.metrics.connectionsActive = 1 :=
    ⟨_, rfl, rfl, rfl⟩
  refine ⟨p, hp, fun t ht hl => ?_, fun hright => ?_⟩
  · exact absurd hl (List.countP_eq_zero.mp hlive t ht)
  · have := hright.1
    omega

end HarbrRouter.Proxy.Http
