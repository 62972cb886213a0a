import HarbrRouter.Lib.SlidingWindow
import HarbrRouter.Proxy.HttpCounters
import HarbrRouter.Proxy.Manager
import Mathlib.Tactic.NormNum

/-!
# The durations of recent requests

`proxy/http.rs`: each handler pushes the duration of its request to `request_durations`, whatever
became of the request, and drops the oldest thousand when there are more than ten thousand;
`get_metrics` averages over what is left.

**Theorem** (`durations_recent`): in every run the durations that are kept are the last ones of all
that were pushed, and at least 9001 of them where there are so many; `get_metrics` gives their sum
in milliseconds divided by their number.

The only step that changes the durations is the push of a handler (`Handler.durations`), and a push
keeps a window over all durations in the order of the pushes (`window_of_run`). What a window has
of them is a fact of the sliding window alone.
-/

set_option autoImplicit false

namespace HarbrRouter.Proxy.Http

open Transition TaskPool Routing Tally SlidingWindow

/-! ## The metrics of the proxy -/

section metrics

variable (F : Type) [ScoreArith F]

/-- `duration.as_secs_f64() * 1000.0`, of a duration in nanoseconds.
Source: `proxy/http.rs`, `HttpProxy::handle_request` -/
def durationMs (duration : ℕ) : F :=
  (((duration / 10 ^ 9 : ℕ) : F) + ((duration % 10 ^ 9 : ℕ) : F) / 1000000000.0) * 1000.0

/-- Source: `proxy/http.rs`, `HttpProxy::get_metrics` -/
def avgDurationMs (durations : List ℕ) : F :=
  if durations.isEmpty then 0.0
  else (durations.map (durationMs F)).foldl (· + ·) (0.0 : F) / (durations.length : F)

/-- The average is the sum of the durations in milliseconds divided by their number. -/
theorem avgDurationMs_eq (durations : List ℕ) :
    avgDurationMs F durations =
      if durations.length = 0 then 0.0
      else (durations.map fun ns => (((ns / 10 ^ 9 : ℕ) : F) +
        ((ns % 10 ^ 9 : ℕ) : F) / 1000000000.0) * 1000.0).foldl (· + ·) (0.0 : F) /
          (durations.length : F) := by
  cases durations with
  | nil => rfl
  | cons ns durations => rfl

/-- Source: `proxy/http.rs`, `HttpProxy::get_metrics` -/
def HttpProxyMetrics.getMetrics (self : HttpProxyMetrics) : ProxyMetrics F :=
  let totalResponses : ℕ := total self.statusCodes % 2 ^ 64
  let errorResponses : ℕ :=
    ((self.statusCodes.entries.filter fun entry => 400 ≤ entry.1).map Sigma.snd).sum % 2 ^ 64
  { totalRequests := self.requestsTotal
    activeConnections := self.connectionsActive
    bytesSent := self.bytesSent
    bytesReceived := self.bytesReceived
    requestRate := 0.0
    errorRate := if 0 < totalResponses then (errorResponses : F) / (totalResponses : F) else 0.0
    avgResponseTimeMs := avgDurationMs F self.requestDurations }

end metrics

/-! ## The pushes of a run -/

/-- The duration that a step pushes. -/
def pushedBy (p : Pool ProxyState Handler) :
    Sched Event → Pool ProxyState Handler → List ℕ
  | .task i .step, _ =>
      match p.tasks[i]? with
      | some t =>
          match t.pc with
          | .addDuration _ => [p.shared.now - t.startTime]
          | _ => []
      | none => []
  | _, _ => []

/-- Has the handler pushed its duration? -/
def HandlerPc.isTimed : HandlerPc → Bool
  | .countStatus _ | .finished _ => true
  | _ => false

section

variable {F : Type} [ScoreArith F] {D : Deployment}

/-- What a step of a handler does to the durations: it pushes the duration of the request, or it
leaves them alone. -/
theorem Handler.durations {sh sh' : ProxyState} {t t' : Handler} {e : Event}
    (h : t.step F D sh e = some (sh', t')) :
    (∃ result, t.pc = .addDuration result ∧ e = .step ∧ t'.pc.isTimed = true ∧
        sh'.metrics.requestDurations =
          push 10000 1000 sh.metrics.requestDurations (sh.now - t.startTime)) ∨
      (∀ result, t.pc ≠ .addDuration result) ∧ t'.pc.isTimed = t.pc.isTimed ∧
        sh'.metrics.requestDurations = sh.metrics.requestDurations := by
  have hstep := t.step_inv h
  generalize hpc : t.pc = pc at hstep
  cases hstep with
  | addDuration => exact Or.inl ⟨_, rfl, rfl, rfl, rfl⟩
  | decActive =>
      refine Or.inr ⟨fun result h => absurd h (by simp), rfl, ?_⟩
      rw [ProxyState.decActive_metrics]
  | _ => exact Or.inr ⟨fun result h => absurd h (by simp), rfl, rfl⟩

variable {heap : Heap} {routers : ℕ → Router} {es : List (Sched Event)}
  {p : Pool ProxyState Handler}

/-- **The durations are a window** over those of all requests, in the order of the pushes, and there
is one for each handler that has come past its push. -/
theorem window_of_run (hrun : (machine F D).run (initial heap routers) es = some p) :
    Window 10000 1000 ((machine F D).log pushedBy (initial heap routers) es)
        p.shared.metrics.requestDurations ∧
      ((machine F D).log pushedBy (initial heap routers) es).length =
        countPc HandlerPc.isTimed p.tasks := by
  refine (machine F D).run_induction (Q := fun es p =>
    Window 10000 1000 ((machine F D).log pushedBy (initial heap routers) es)
        p.shared.metrics.requestDurations ∧
      ((machine F D).log pushedBy (initial heap routers) es).length =
        countPc HandlerPc.isTimed p.tasks) ⟨.nil, rfl⟩ ?_ hrun
  rintro es a q q' hq ⟨hwindow, hcount⟩ hstep
  rw [(machine F D).log_concat pushedBy hq hstep]
  rcases machine_step hstep with ⟨i, e, t, sh, t', rfl, ht, hmove, rfl⟩ | ⟨ns, rfl, rfl⟩ |
    ⟨inst, req, rfl, rfl⟩
  · rcases t.durations hmove with ⟨result, hpc, rfl, htimed, hpush⟩ | ⟨hpc, htimed, hsame⟩
    · have hpushed : pushedBy q (.task i .step) ⟨sh, q.tasks.set i t'⟩ =
          [q.shared.now - t.startTime] := by
        simp [pushedBy, ht, hpc]
      rw [hpushed]
      refine ⟨hpush ▸ hwindow.push (by decide) _, ?_⟩
      rw [List.length_append, List.length_singleton, hcount]
      exact (countP_set_of_enter (fun u : Handler => u.pc.isTimed) ht (by rw [hpc]; rfl)
        htimed).symm
    · have hpushed : pushedBy q (.task i e) ⟨sh, q.tasks.set i t'⟩ = [] := by
        cases e with
        | step => simp only [pushedBy, ht]
        | _ => rfl
      rw [hpushed, List.append_nil]
      refine ⟨hsame ▸ hwindow, hcount.trans ?_⟩
      exact (countP_set_of_same (fun u : Handler => u.pc.isTimed) ht htimed).symm
  · simpa [pushedBy] using ⟨hwindow, hcount⟩
  · -- the new handler has pushed nothing yet
    simpa [pushedBy, countPc, HandlerPc.isTimed] using ⟨hwindow, hcount⟩

/-- **The durations are the recent ones.** However the handlers are interleaved: the durations that
are kept are the last ones of all that were pushed, all of them up to ten thousand and at least 9001
beyond that, and `get_metrics` gives the sum of the last `k` durations, in milliseconds, divided by
`k`. -/
theorem durations_recent (F : Type) [ScoreArith F] (D : Deployment) (heap : Heap)
    (routers : ℕ → Router) (es : List (Sched Event)) (p : Pool ProxyState Handler)
    (hrun : (machine F D).run (initial heap routers) es = some p) (pushed : List ℕ)
    (hpushed : pushed = (machine F D).log pushedBy (initial heap routers) es) :
    pushed.length = countPc HandlerPc.isTimed p.tasks ∧
      p.shared.metrics.requestDurations <:+ pushed ∧
      (pushed.length ≤ 10000 →
        p.shared.metrics.requestDurations.length = pushed.length) ∧
      (10000 < pushed.length →
        9001 ≤ p.shared.metrics.requestDurations.length ∧
          p.shared.metrics.requestDurations.length ≤ 10000) ∧
      ∃ k, min pushed.length 9001 ≤ k ∧ k ≤ pushed.length ∧
        (p.shared.metrics.getMetrics F).avgResponseTimeMs =
          if k = 0 then 0.0
          else ((pushed.drop (pushed.length - k)).map fun ns =>
            (((ns / 10 ^ 9 : ℕ) : F) + ((ns % 10 ^ 9 : ℕ) : F) / 1000000000.0) * 1000.0).foldl
              (· + ·) (0.0 : F) / (k : F) := by
  subst hpushed
  obtain ⟨hwindow, hcount⟩ := window_of_run hrun
  refine ⟨hcount, hwindow.suffix, fun hshort => by rw [hwindow.full hshort],
    fun hlong => ⟨?_, hwindow.length_le⟩, _, hwindow.min_le_length, hwindow.suffix.length_le, ?_⟩
  · have := hwindow.le_length hlong
    omega
  · rw [← hwindow.eq_drop]
    exact avgDurationMs_eq F p.shared.metrics.requestDurations

/-- The handler of one request, answered after 20 ms, to its end. -/
def answeredIn20Ms : List (Sched Event) :=
  untilRequesting ++ [.env (.advance (20 * 10 ^ 6)),
    .task 0 (.responded (createErrorResponse 404 "Not Found"))] ++ List.replicate 5 (.task 0 .step)

/-- After one request there is one duration, and the average is 20 ms. -/
theorem durations_recent_answered :
    ∃ p, (machine ℚ exampleDeployment).run (initial exampleUpstreams.2 fun _ => exampleUpstreams.1)
        answeredIn20Ms = some p ∧
      p.shared.metrics.requestDurations = [20 * 10 ^ 6] ∧
      (p.shared.metrics.getMetrics ℚ).avgResponseTimeMs = 20 := by
  obtain ⟨p, hp⟩ : ∃ p, (machine ℚ exampleDeployment).run
      (initial exampleUpstreams.2 fun _ => exampleUpstreams.1) answeredIn20Ms = some p := ⟨_, rfl⟩
  obtain ⟨-, hsuffix, hall, -, k, hmin, hk, havg⟩ :=
    durations_recent ℚ exampleDeployment _ _ answeredIn20Ms p hp [20 * 10 ^ 6] rfl
  have hlength := hall (by decide)
  refine ⟨p, hp, hsuffix.eq_of_length hlength, ?_⟩
  obtain rfl : k = 1 := by
    simp only [List.length_singleton] at hmin hk
    omega
  rw [havg]
  norm_num

end

end HarbrRouter.Proxy.Http
