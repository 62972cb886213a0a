import HarbrRouter.Lib.TaskPool
import HarbrRouter.Routing.Upstream
import Mathlib.Tactic.NormNum
import Mathlib.Tactic.Positivity

/-!
# Concurrent calls on the statistics of an upstream

`routing.rs`, one `UpstreamInfo` under any number of concurrent calls of `record_success`,
`record_failure`, `success_rate` and `health_score`. A task is one call at one of its program
points; between two points lies one load, one store or one increment of an atomic, or one use of a
lock.

**Theorem** (`rates_bounded_iff`): `success_rate` stays at most one if and only if, between its two
loads, no more responses are counted than there were requests without one. Every counted request is
answered, or its call is still to answer it, or it failed (`Inv`), so what the second load finds is
bounded by what the first one found and what was counted in between (`keepsUp_iff_covered`).

The quotient is a rational number here and an `f64` in the code. The conversion and the division of
`f64` are rounded monotonically and are exact at one, so a quotient of at most one stays so, and as
long as the counts are below `2 ^ 53`, where the conversion is exact, one above it stays above: the
division of two such counts rounds to one only if they are equal. The other factors of a score are
constants of at most one, and a product of such factors is rounded to at most one as well.
-/

set_option autoImplicit false

namespace HarbrRouter.Routing.ConcurrentStats

open Transition TaskPool

/-! ## Calls and their program points -/

/-- A call. -/
inductive Call where
  | recordSuccess (responseTime : ℕ)
  | recordFailure
  | successRate
  | healthScore
deriving DecidableEq, Repr

/-- A call at a program point: what it does next. -/
inductive Task (F : Type) where
  /-- `self.requests_sent.fetch_add(1)` of `record_success` -/
  | countRequest (responseTime : ℕ)
  /-- `self.responses_received.fetch_add(1)` -/
  | countResponse (responseTime : ℕ)
  /-- `self.avg_response_time_ns.load()` of `record_success` -/
  | loadAvg (responseTime : ℕ)
  /-- `self.avg_response_time_ns.store(new_avg)` -/
  | storeAvg (responseTime currentAvg : ℕ)
  /-- `*self.last_update.write() = Instant::now()` of `record_success` -/
  | touch
  /-- The end of `record_success`. -/
  | recorded
  /-- `self.requests_sent.fetch_add(1)` of `record_failure` -/
  | countFailedRequest
  /-- `self.failures.fetch_add(1)` -/
  | countFailure
  /-- `*self.last_update.write() = Instant::now()` of `record_failure` -/
  | touchFailed
  /-- The end of `record_failure`. -/
  | failed
  /-- `*self.health_state.read()` of `health_score` -/
  | readHealth
  /-- `self.requests_sent.load()` of `success_rate`; `health_score` calls it with the health that it
  read. -/
  | loadRequests (caller : Option HealthState)
  /-- `self.responses_received.load()` -/
  | loadResponses (caller : Option HealthState) (requests : ℕ)
  /-- `self.avg_response_time_ns.load()` of `avg_response_time_ms`, in `health_score` -/
  | loadLatency (healthState : HealthState) (rate : F)
  /-- The end of `success_rate`. -/
  | rated (rate : F)
  /-- The end of `health_score`, with what `success_rate` returned to it. -/
  | scored (rate score : F)

/-- A step of a task at an instant, or an event of the environment. -/
inductive Event where
  | step (now : ℕ)
  | call (c : Call)
  /-- `UpstreamInfo::set_health_state` -/
  | setHealth (state : HealthState) (now : ℕ)
deriving DecidableEq, Repr

/-- The first program point of a call. -/
def Call.start (F : Type) : Call → Task F
  | .recordSuccess responseTime => .countRequest responseTime
  | .recordFailure => .countFailedRequest
  | .successRate => .loadRequests none
  | .healthScore => .readHealth

section system

variable (F : Type) [ScoreArith F]

/-- Where `success_rate` returns to. -/
def rateReturned (rate : F) : Option HealthState → Task F
  | none => .rated rate
  | some healthState => .loadLatency healthState rate

/-- One step of a call.
Source: `routing.rs`, `UpstreamStats::record_success`, `UpstreamStats::record_failure`,
`UpstreamStats::success_rate` and `UpstreamInfo::health_score` -/
def Task.step (u : UpstreamInfo) (now : ℕ) : Task F → Option (UpstreamInfo × Task F)
  | .countRequest responseTime =>
      some ({ u with stats.requestsSent := wrappingAdd u.stats.requestsSent 1 },
        .countResponse responseTime)
  | .countResponse responseTime =>
      some ({ u with stats.responsesReceived := wrappingAdd u.stats.responsesReceived 1 },
        .loadAvg responseTime)
  | .loadAvg responseTime => some (u, .storeAvg responseTime u.stats.avgResponseTimeNs)
  | .storeAvg responseTime currentAvg =>
      let newAvg := UpstreamStats.newAvg currentAvg (responseTime % 2 ^ 64)
      some ({ u with stats.avgResponseTimeNs := newAvg }, .touch)
  | .touch => some ({ u with stats.lastUpdate := now }, .recorded)
  | .countFailedRequest =>
      some ({ u with stats.requestsSent := wrappingAdd u.stats.requestsSent 1 }, .countFailure)
  | .countFailure =>
      some ({ u with stats.failures := wrappingAdd u.stats.failures 1 }, .touchFailed)
  | .touchFailed => some ({ u with stats.lastUpdate := now }, .failed)
  | .readHealth => some (u, .loadRequests (some u.healthState))
  | .loadRequests caller =>
      if u.stats.requestsSent = 0 then some (u, rateReturned F 1.0 caller)
      else some (u, .loadResponses caller u.stats.requestsSent)
  | .loadResponses caller requests =>
      let rate := (u.stats.responsesReceived : F) / (requests : F)
      some (u, rateReturned F rate caller)
  | .loadLatency healthState rate =>
      let score := baseScore F healthState * rate *
        latencyFactor F (u.stats.avgResponseTimeMs F)
      some (u, .scored rate score)
  | .recorded | .failed | .rated _ | .scored _ _ => none

/-- The calls on one upstream. -/
def system : System UpstreamInfo (Task F) Event where
  act _ u t
    | .step now => (t.step F u now).map fun r => (r.1, r.2, [])
    | _ => none
  env u
    | .call c => some (u, [c.start F])
    | .setHealth state now => some (u.setHealthState state now, [])
    | .step _ => none

/-- The interleavings of the calls. -/
def machine : Machine (Pool UpstreamInfo (Task F)) (Sched Event) := (system F).machine

/-- A new upstream, before any call. -/
def initial (config : UpstreamConfig) (now : ℕ) : Pool UpstreamInfo (Task F) :=
  ⟨.new config now, []⟩

end system

section steps

variable {F : Type} [ScoreArith F]

/-- A step of the interleaving moves one call, begins one, or changes the health. -/
theorem machine_step {p p' : Pool UpstreamInfo (Task F)} {a : Sched Event}
    (h : (machine F).step p a = some p') :
    (∃ i now t u t', a = .task i (.step now) ∧ p.tasks[i]? = some t ∧
        t.step F p.shared now = some (u, t') ∧ p' = ⟨u, p.tasks.set i t'⟩) ∨
      (∃ c, a = .env (.call c) ∧ p' = ⟨p.shared, p.tasks ++ [c.start F]⟩) ∨
      ∃ state now, a = .env (.setHealth state now) ∧
        p' = ⟨p.shared.setHealthState state now, p.tasks⟩ := by
  rcases (system F).step_cases h with ⟨i, e, t, sh, t', new, rfl, ht, hact, rfl⟩ |
    ⟨e, sh, new, rfl, henv, rfl⟩
  · cases e with
    | step now =>
        obtain ⟨⟨u, t₁⟩, hstep, heq⟩ := Option.map_eq_some_iff.mp hact
        obtain ⟨rfl, rfl, rfl⟩ : u = sh ∧ t₁ = t' ∧ [] = new := by simpa using heq
        exact Or.inl ⟨i, now, t, u, t₁, rfl, ht, hstep, by rw [List.append_nil]⟩
    | _ => exact absurd hact (by simp [system])
  · cases e with
    | step now => exact absurd henv (by simp [system])
    | call c =>
        obtain ⟨rfl, rfl⟩ : p.shared = sh ∧ [c.start F] = new := by simpa [system] using henv
        exact Or.inr (Or.inl ⟨c, rfl, rfl⟩)
    | setHealth state now =>
        obtain ⟨rfl, rfl⟩ : p.shared.setHealthState state now = sh ∧ [] = new := by
          simpa [system] using henv
        exact Or.inr (Or.inr ⟨state, now, rfl, by rw [List.append_nil]⟩)

/-- A change of the health leaves the statistics alone. -/
@[simp] theorem setHealthState_stats (u : UpstreamInfo) (state : HealthState) (now : ℕ) :
    (u.setHealthState state now).stats = u.stats := by
  cases state <;> rfl

/-! ## Requests and responses -/

/-- The request of the call is counted, and no response to it is. -/
def Task.unanswered : Task F → Bool
  | .countResponse _ | .countFailure | .touchFailed | .failed => true
  | _ => false

/-- The call counts a response next. -/
def Task.responds : Task F → Bool
  | .countResponse _ => true
  | _ => false

/-- What a step does to the two counters. -/
theorem step_counts {u u' : UpstreamInfo} {now : ℕ} {t t' : Task F}
    (h : t.step F u now = some (u', t')) :
    (t.responds = false ∧ t.unanswered = false ∧ t'.unanswered = true ∧
        u'.stats.requestsSent = wrappingAdd u.stats.requestsSent 1 ∧
        u'.stats.responsesReceived = u.stats.responsesReceived) ∨
      (t.responds = true ∧ t.unanswered = true ∧ t'.unanswered = false ∧
        u'.stats.requestsSent = u.stats.requestsSent ∧
        u'.stats.responsesReceived = wrappingAdd u.stats.responsesReceived 1) ∨
      (t.responds = false ∧ t'.unanswered = t.unanswered ∧
        u'.stats.requestsSent = u.stats.requestsSent ∧
        u'.stats.responsesReceived = u.stats.responsesReceived) := by
  cases t with
  | countRequest responseTime | countFailedRequest =>
      obtain ⟨rfl, rfl⟩ : _ ∧ _ := by simpa [Task.step] using h
      exact Or.inl ⟨rfl, rfl, rfl, rfl, rfl⟩
  | countResponse responseTime =>
      obtain ⟨rfl, rfl⟩ : _ ∧ _ := by simpa [Task.step] using h
      exact Or.inr (Or.inl ⟨rfl, rfl, rfl, rfl, rfl⟩)
  | loadRequests caller =>
      simp only [Task.step] at h
      split_ifs at h
      · obtain ⟨rfl, rfl⟩ : _ ∧ _ := by simpa using h
        exact Or.inr (Or.inr ⟨rfl, by cases caller <;> rfl, rfl, rfl⟩)
      · obtain ⟨rfl, rfl⟩ : _ ∧ _ := by simpa using h
        exact Or.inr (Or.inr ⟨rfl, rfl, rfl, rfl⟩)
  | loadResponses caller requests =>
      obtain ⟨rfl, rfl⟩ : _ ∧ _ := by simpa [Task.step] using h
      exact Or.inr (Or.inr ⟨rfl, by cases caller <;> rfl, rfl, rfl⟩)
  | recorded | failed | rated | scored => exact absurd h (by simp [Task.step])
  | _ =>
      obtain ⟨rfl, rfl⟩ : _ ∧ _ := by simpa [Task.step] using h
      exact Or.inr (Or.inr ⟨rfl, rfl, rfl, rfl⟩)

/-- The counter of the requests has room for one more. -/
def NoWrap (p : Pool UpstreamInfo (Task F)) (_ : Sched Event) : Prop :=
  p.shared.stats.requestsSent + 1 < 2 ^ 64

/-- Every request is answered, or it is the one of a call that has counted no response. -/
structure Inv (p : Pool UpstreamInfo (Task F)) : Prop where
  requests : p.shared.stats.requestsSent =
    p.shared.stats.responsesReceived + p.tasks.countP Task.unanswered
  /-- Whoever goes on to load the responses has seen a request. -/
  positive : ∀ caller requests, .loadResponses caller requests ∈ p.tasks → 0 < requests

omit [ScoreArith F] in
/-- A call that begins has counted nothing. -/
theorem unanswered_start (c : Call) : (c.start F).unanswered = false := by cases c <;> rfl

/-- A call that goes on to load the responses has seen a request. -/
theorem positive_of_step {u u' : UpstreamInfo} {now : ℕ} {t : Task F} {caller : Option HealthState}
    {requests : ℕ} (h : t.step F u now = some (u', .loadResponses caller requests)) :
    t = .loadRequests caller ∧ requests = u.stats.requestsSent ∧ 0 < requests := by
  cases t with
  | loadRequests caller' =>
      simp only [Task.step] at h
      split_ifs at h with hzero
      · cases caller' <;> simp [rateReturned] at h
      · obtain ⟨-, rfl, rfl⟩ : _ ∧ _ ∧ _ := by simpa using h
        exact ⟨rfl, rfl, Nat.pos_of_ne_zero hzero⟩
  | loadResponses caller' requests' =>
      cases caller' <;> simp [Task.step, rateReturned] at h
  | _ => simp [Task.step] at h

/-- A step keeps the invariant. -/
theorem Inv.step {p p' : Pool UpstreamInfo (Task F)} {a : Sched Event} (h : Inv p)
    (hwrap : NoWrap p a) (hstep : (machine F).step p a = some p') : Inv p' := by
  have hrequests := h.requests
  unfold NoWrap at hwrap
  rcases machine_step hstep with ⟨i, now, t, u, t', rfl, ht, hact, rfl⟩ | ⟨c, rfl, rfl⟩ |
    ⟨state, now, rfl, rfl⟩
  · refine ⟨?_, fun caller requests hmem => ?_⟩
    · rcases step_counts hact with ⟨-, hbefore, hafter, hreq, hresp⟩ |
        ⟨-, hbefore, hafter, hreq, hresp⟩ | ⟨-, hsame, hreq, hresp⟩
      · rw [hreq, hresp, wrappingAdd_eq hwrap,
          countP_set_of_enter Task.unanswered ht hbefore hafter]
        omega
      · have hcount := countP_set_of_leave Task.unanswered ht hbefore hafter
        rw [hreq, hresp, wrappingAdd_eq (by omega)]
        change _ = _ + (p.tasks.set i t').countP Task.unanswered
        omega
      · rw [hreq, hresp, countP_set_of_same Task.unanswered ht hsame, hrequests]
    · rcases List.mem_or_eq_of_mem_set hmem with hmem | rfl
      · exact h.positive caller requests hmem
      · obtain ⟨-, rfl, hpos⟩ := positive_of_step hact
        exact hpos
  · refine ⟨by simp [hrequests, unanswered_start], fun caller requests hmem => ?_⟩
    rcases List.mem_append.mp hmem with hmem | hmem
    · exact h.positive caller requests hmem
    · cases c <;> simp [Call.start] at hmem
  · exact ⟨by simpa using hrequests, h.positive⟩

/-- The response that a step counts, if it counts one. -/
def answers (p : Pool UpstreamInfo (Task F)) : Sched Event → List Unit
  | .task i (.step _) => if (p.tasks[i]?).any Task.responds then [()] else []
  | _ => []

/-- How many responses are counted in the run of a schedule. -/
def responsesIn (p : Pool UpstreamInfo (Task F)) (es : List (Sched Event)) : ℕ :=
  ((machine F).log (fun q a _ => answers q a) p es).length

/-- A step counts what it says. -/
theorem Inv.responses_step {p p' : Pool UpstreamInfo (Task F)} {a : Sched Event} (h : Inv p)
    (hwrap : NoWrap p a) (hstep : (machine F).step p a = some p') :
    p'.shared.stats.responsesReceived =
      p.shared.stats.responsesReceived + (answers p a).length := by
  have hrequests := h.requests
  unfold NoWrap at hwrap
  rcases machine_step hstep with ⟨i, now, t, u, t', rfl, ht, hact, rfl⟩ | ⟨c, rfl, rfl⟩ |
    ⟨state, now, rfl, rfl⟩
  · rcases step_counts hact with ⟨hresponds, -, -, -, hresp⟩ | ⟨hresponds, -, -, -, hresp⟩ |
      ⟨hresponds, -, -, hresp⟩
    · simp [answers, ht, hresponds, hresp]
    · simp only [answers, ht, Option.any_some, hresponds, if_true, List.length_singleton, hresp]
      exact wrappingAdd_eq (by omega)
    · simp [answers, ht, hresponds, hresp]
  · simp [answers]
  · simp [answers]

/-- A run counts what its steps say. -/
theorem Inv.responses_run {p p' : Pool UpstreamInfo (Task F)} {es : List (Sched Event)} (h : Inv p)
    (hwrap : (machine F).Along NoWrap p es) (hrun : (machine F).run p es = some p') :
    p'.shared.stats.responsesReceived =
      p.shared.stats.responsesReceived + responsesIn p es := by
  induction es generalizing p with
  | nil =>
      obtain rfl : p = p' := by simpa using hrun
      rfl
  | cons a es ih =>
      obtain ⟨q, hstep, hrest⟩ := (machine F).run_cons_eq_some.mp hrun
      rw [(machine F).along_cons hstep] at hwrap
      rw [ih (h.step hwrap.1 hstep) hwrap.2 hrest, h.responses_step hwrap.1 hstep]
      simp [responsesIn, Machine.log, hstep, Nat.add_assoc]

variable {config : UpstreamConfig} {now₀ : ℕ}

omit [ScoreArith F] in
/-- Before any call nothing is counted. -/
theorem Inv.initial : Inv (initial F config now₀) :=
  ⟨by simp [ConcurrentStats.initial, UpstreamInfo.new, UpstreamStats.new],
    by simp [ConcurrentStats.initial]⟩

/-- The invariant holds in every state. -/
theorem Inv.of_run {es : List (Sched Event)} {p : Pool UpstreamInfo (Task F)}
    (hwrap : (machine F).Along NoWrap (ConcurrentStats.initial F config now₀) es)
    (hrun : (machine F).run (ConcurrentStats.initial F config now₀) es = some p) : Inv p :=
  (machine F).run_preserves_along (fun _ _ _ h hP hstep => h.step hP hstep) Inv.initial hwrap hrun

end steps

/-! ## The two loads of a call -/

section loads

variable {F : Type} [ScoreArith F] {config : UpstreamConfig} {now₀ : ℕ}

/-- A call that is between its loads has loaded the requests of a state of the run. -/
theorem exists_first_load {es : List (Sched Event)} {p : Pool UpstreamInfo (Task F)}
    (hrun : (machine F).run (initial F config now₀) es = some p) :
    ∀ i caller requests, p.tasks[i]? = some (.loadResponses caller requests) →
      ∃ before now mid q, es = before ++ .task i (.step now) :: mid ∧
        (machine F).run (initial F config now₀) before = some q ∧
        q.tasks[i]? = some (.loadRequests caller) ∧ requests = q.shared.stats.requestsSent := by
  refine (machine F).run_induction (Q := fun es p => ∀ i caller requests,
    p.tasks[i]? = some (.loadResponses caller requests) →
      ∃ before now mid q, es = before ++ .task i (.step now) :: mid ∧
        (machine F).run (initial F config now₀) before = some q ∧
        q.tasks[i]? = some (.loadRequests caller) ∧ requests = q.shared.stats.requestsSent)
    (by simp [initial]) ?_ hrun
  intro es a p p' hrun ih hstep i caller requests hi
  -- a call that was there before has loaded before
  have hold : p.tasks[i]? = some (.loadResponses caller requests) →
      ∃ before now mid q, es ++ [a] = before ++ .task i (.step now) :: mid ∧
        (machine F).run (initial F config now₀) before = some q ∧
        q.tasks[i]? = some (.loadRequests caller) ∧ requests = q.shared.stats.requestsSent := by
    intro hi
    obtain ⟨before, now, mid, q, rfl, hq, hload, hrequests⟩ := ih i caller requests hi
    exact ⟨before, now, mid ++ [a], q, by simp, hq, hload, hrequests⟩
  rcases machine_step hstep with ⟨j, now, t, u, t', rfl, ht, hact, rfl⟩ | ⟨c, rfl, rfl⟩ |
    ⟨state, now, rfl, rfl⟩
  · have hi' : (p.tasks.set j t' ++ [])[i]? = some (.loadResponses caller requests) := by
      rwa [List.append_nil]
    rcases getElem?_set_append hi' with ⟨rfl, rfl⟩ | ⟨-, hi⟩ | ⟨-, hmem⟩
    · obtain ⟨rfl, rfl, -⟩ := positive_of_step hact
      exact ⟨es, now, [], p, rfl, hrun, ht, rfl⟩
    · exact hold hi
    · exact absurd hmem List.not_mem_nil
  · by_cases hlt : i < p.tasks.length
    · rw [List.getElem?_append_left hlt] at hi
      exact hold hi
    · rw [List.getElem?_append_right (not_lt.mp hlt)] at hi
      have hmem := List.mem_of_getElem? hi
      cases c <;> simp [Call.start] at hmem
  · exact hold hi

/-- What the steps of a call keep stays true of the call at its position. -/
theorem task_run {P : Task F → Prop}
    (hP : ∀ u u' now t t', P t → Task.step F u now t = some (u', t') → P t')
    {p p' : Pool UpstreamInfo (Task F)} {es : List (Sched Event)} {i : ℕ} {t : Task F}
    (hi : p.tasks[i]? = some t) (ht : P t) (hrun : (machine F).run p es = some p') :
    ∃ t', p'.tasks[i]? = some t' ∧ P t' := by
  refine (machine F).run_preserves (I := fun q => ∃ t, q.tasks[i]? = some t ∧ P t) ?_
    ⟨t, hi, ht⟩ hrun
  rintro q a q' ⟨t, hi, ht⟩ hstep
  rcases machine_step hstep with ⟨j, now, t₁, u, t', rfl, ht₁, hact, rfl⟩ | ⟨c, rfl, rfl⟩ |
    ⟨state, now, rfl, rfl⟩
  · by_cases hij : j = i
    · subst hij
      obtain rfl : t₁ = t := Option.some.inj (ht₁.symm.trans hi)
      refine ⟨t', ?_, hP _ _ _ _ _ ht hact⟩
      simpa using getElem?_set_append_self ht₁ t' []
    · exact ⟨t, by rwa [List.getElem?_set_ne hij], ht⟩
  · exact ⟨t, by rwa [List.getElem?_append_left (List.getElem?_eq_some_iff.mp hi).1], ht⟩
  · exact ⟨t, hi, ht⟩

/-- The call has loaded so many requests, or it has returned. -/
def Task.Loaded (requests : ℕ) : Task F → Prop
  | .loadResponses _ q => q = requests
  | .loadLatency _ _ | .rated _ | .scored _ _ => True
  | _ => False

/-- A call that has loaded so many requests keeps them, until it returns. -/
theorem Task.Loaded.step {requests now : ℕ} {u u' : UpstreamInfo} {t t' : Task F}
    (h : t.Loaded requests) (hstep : t.step F u now = some (u', t')) : t'.Loaded requests := by
  cases t with
  | loadResponses caller q =>
      obtain ⟨rfl, rfl⟩ : _ ∧ _ := by simpa [Task.step] using hstep
      cases caller <;> trivial
  | loadLatency state rate =>
      obtain ⟨rfl, rfl⟩ : _ ∧ _ := by simpa [Task.step] using hstep
      trivial
  | rated | scored => exact absurd hstep (by simp [Task.step])
  | _ => exact absurd h (by simp [Task.Loaded])

/-- The first load of a call sees the requests of its state. -/
theorem Task.loaded_of_first {now : ℕ} {u u' : UpstreamInfo} {t' : Task F}
    {caller : Option HealthState} (h : (Task.loadRequests caller).step F u now = some (u', t')) :
    t'.Loaded u.stats.requestsSent := by
  simp only [Task.step] at h
  split_ifs at h
  · obtain ⟨-, rfl⟩ : _ ∧ _ := by simpa using h
    cases caller <;> trivial
  · obtain ⟨-, rfl⟩ : _ ∧ _ := by simpa using h
    rfl

/-- A call that is between its loads has what it loaded first. -/
theorem requests_of_loads {p p' : Pool UpstreamInfo (Task F)} {i now requests : ℕ}
    {mid : List (Sched Event)} {caller caller' : Option HealthState}
    (hfirst : p.tasks[i]? = some (.loadRequests caller))
    (hrun : (machine F).run p (.task i (.step now) :: mid) = some p')
    (hsecond : p'.tasks[i]? = some (.loadResponses caller' requests)) :
    requests = p.shared.stats.requestsSent := by
  obtain ⟨q, hstep, hrest⟩ := (machine F).run_cons_eq_some.mp hrun
  rcases machine_step hstep with ⟨j, now', t, u, t', heq, ht, hact, rfl⟩ | ⟨c, heq, -⟩ |
    ⟨state, now', heq, -⟩
  · obtain ⟨rfl, rfl⟩ : i = j ∧ now = now' := by simpa using heq
    obtain rfl := Option.some.inj (hfirst.symm.trans ht)
    have hq : (p.tasks.set i t')[i]? = some t' := by
      simpa using getElem?_set_append_self ht t' []
    obtain ⟨t, ht', hloaded⟩ := task_run (fun _ _ _ _ _ h hstep => Task.Loaded.step h hstep) hq
      (Task.loaded_of_first hact) hrest
    obtain rfl := Option.some.inj (hsecond.symm.trans ht')
    exact hloaded
  · exact absurd heq (by simp)
  · exact absurd heq (by simp)

/-- **The condition.** Between the two loads of each call of `success_rate`, no more responses are
counted than there were, at the first load, calls whose request was counted and no response to
it. -/
def KeepsUp (F : Type) [ScoreArith F] (config : UpstreamConfig) (now₀ : ℕ)
    (es : List (Sched Event)) : Prop :=
  ∀ before i now mid now' behind p q caller requests,
    es = before ++ (.task i (.step now) :: mid ++ .task i (.step now') :: behind) →
    (machine F).run (initial F config now₀) before = some p →
    p.tasks[i]? = some (.loadRequests caller) →
    (machine F).run p (.task i (.step now) :: mid) = some q →
    q.tasks[i]? = some (.loadResponses caller requests) →
    responsesIn p (.task i (.step now) :: mid) ≤ p.tasks.countP Task.unanswered

/-- At the second load of a call, no more responses are counted than it has loaded requests. -/
def Covered (p : Pool UpstreamInfo (Task F)) (a : Sched Event) : Prop :=
  ∀ i now caller requests, a = .task i (.step now) →
    p.tasks[i]? = some (.loadResponses caller requests) →
    p.shared.stats.responsesReceived ≤ requests

/-- The condition says that every second load is covered. -/
theorem keepsUp_iff_covered {es : List (Sched Event)}
    (hwrap : (machine F).Along NoWrap (initial F config now₀) es) :
    KeepsUp F config now₀ es ↔ (machine F).Along Covered (initial F config now₀) es := by
  -- the two loads of a call, and what is counted in between
  have hloads : ∀ before i now mid behind p q caller requests,
      es = before ++ (.task i (.step now) :: mid ++ behind) →
      (machine F).run (initial F config now₀) before = some p →
      p.tasks[i]? = some (.loadRequests caller) →
      (machine F).run p (.task i (.step now) :: mid) = some q →
      q.tasks[i]? = some (.loadResponses caller requests) →
      (responsesIn p (.task i (.step now) :: mid) ≤ p.tasks.countP Task.unanswered ↔
        q.shared.stats.responsesReceived ≤ requests) := by
    intro before i now mid behind p q caller requests heq hp hfirst hq hsecond
    rw [heq] at hwrap
    have hinv := Inv.of_run (Machine.Along.of_append _ hwrap) hp
    have hafter := Machine.Along.of_append _ (Machine.Along.after _ hwrap hp)
    rw [requests_of_loads hfirst hq hsecond, hinv.responses_run hafter hq, hinv.requests]
    omega
  rw [Machine.along_iff]
  constructor
  · rintro h es₁ a es₂ rfl q hq i now' caller requests rfl hsecond
    obtain ⟨before, now, mid, p, rfl, hp, hfirst, -⟩ :=
      exists_first_load hq i caller requests hsecond
    obtain ⟨p', hp', hmid⟩ := (machine F).run_append_eq_some.mp hq
    obtain rfl : p = p' := Option.some.inj (hp.symm.trans hp')
    have hkeeps := h before i now mid now' es₂ p q caller requests (by simp) hp hfirst hmid hsecond
    exact (hloads before i now mid (.task i (.step now') :: es₂) p q caller requests (by simp) hp
      hfirst hmid hsecond).mp hkeeps
  · rintro h before i now mid now' behind p q caller requests rfl hp hfirst hmid hsecond
    apply (hloads before i now mid _ p q caller requests rfl hp hfirst hmid hsecond).mpr
    have hq := (machine F).run_append_eq_some.mpr ⟨p, hp, hmid⟩
    exact h _ _ behind (by simp) q hq i now' caller requests rfl hsecond

end loads

/-! ## Rates and scores -/

section rates

variable {config : UpstreamConfig} {now₀ : ℕ}

/-- What `success_rate` has returned, as a result or to the score that called it. -/
def Task.rateOf {F : Type} : Task F → Option F
  | .rated rate | .loadLatency _ rate | .scored rate _ => some rate
  | _ => none

/-- What is returned lies between zero and one. -/
def Task.Bounded : Task ℚ → Prop
  | .rated rate | .loadLatency _ rate => 0 ≤ rate ∧ rate ≤ 1
  | .scored rate score => (0 ≤ rate ∧ rate ≤ 1) ∧ 0 ≤ score ∧ score ≤ 1
  | _ => True

/-- A product of a number between zero and one with another one lies between them. -/
theorem unit_mul {x y : ℚ} (hx : 0 ≤ x ∧ x ≤ 1) (hy : 0 ≤ y ∧ y ≤ 1) : 0 ≤ x * y ∧ x * y ≤ 1 :=
  ⟨mul_nonneg hx.1 hy.1, mul_le_one₀ hx.2 hy.1 hy.2⟩

/-- The weight of a health lies between zero and one. -/
theorem unit_baseScore (state : HealthState) : 0 ≤ baseScore ℚ state ∧ baseScore ℚ state ≤ 1 := by
  cases state <;> norm_num [baseScore]

/-- The penalty for slow responses lies between zero and one. -/
theorem unit_latencyFactor (ms : ℚ) : 0 ≤ latencyFactor ℚ ms ∧ latencyFactor ℚ ms ≤ 1 := by
  unfold latencyFactor
  split_ifs <;> norm_num

/-- A covered step keeps what is returned between zero and one. -/
theorem Task.Bounded.step {u u' : UpstreamInfo} {now : ℕ} {t t' : Task ℚ} (h : t.Bounded)
    (hcovered : ∀ caller requests, t = .loadResponses caller requests →
      u.stats.responsesReceived ≤ requests)
    (hstep : t.step ℚ u now = some (u', t')) : t'.Bounded := by
  cases t with
  | loadRequests caller =>
      simp only [Task.step] at hstep
      split_ifs at hstep
      · obtain ⟨-, rfl⟩ : _ ∧ _ := by simpa using hstep
        cases caller <;> norm_num [rateReturned, Task.Bounded]
      · obtain ⟨-, rfl⟩ : _ ∧ _ := by simpa using hstep
        trivial
  | loadResponses caller requests =>
      obtain ⟨-, rfl⟩ : _ ∧ _ := by simpa [Task.step] using hstep
      have hle : (u.stats.responsesReceived : ℚ) ≤ (requests : ℚ) :=
        Nat.cast_le.mpr (hcovered caller requests rfl)
      have hrate : 0 ≤ (u.stats.responsesReceived : ℚ) / (requests : ℚ) ∧
          (u.stats.responsesReceived : ℚ) / (requests : ℚ) ≤ 1 :=
        ⟨by positivity, div_le_one_of_le₀ hle (by positivity)⟩
      cases caller <;> exact hrate
  | loadLatency state rate =>
      obtain ⟨-, rfl⟩ : _ ∧ _ := by simpa [Task.step] using hstep
      exact ⟨h, unit_mul (unit_mul (unit_baseScore state) h) (unit_latencyFactor _)⟩
  | recorded | failed | rated | scored => exact absurd hstep (by simp [Task.step])
  | _ =>
      obtain ⟨-, rfl⟩ : _ ∧ _ := by simpa [Task.step] using hstep
      trivial

/-- What was returned stays. -/
theorem rateOf_step {F : Type} [ScoreArith F] {rate : F} {u u' : UpstreamInfo} {now : ℕ}
    {t t' : Task F} (h : t.rateOf = some rate) (hstep : t.step F u now = some (u', t')) :
    t'.rateOf = some rate := by
  cases t with
  | loadLatency state rate' =>
      obtain ⟨-, rfl⟩ : _ ∧ _ := by simpa [Task.step] using hstep
      exact h
  | rated | scored => exact absurd hstep (by simp [Task.step])
  | _ => exact absurd h (by simp [Task.rateOf])

/-- What is returned is between zero and one. -/
theorem Task.Bounded.rate_le {t : Task ℚ} (h : t.Bounded) {rate : ℚ}
    (hrate : t.rateOf = some rate) :
    rate ≤ 1 := by
  cases t with
  | rated r | loadLatency state r =>
      obtain rfl := Option.some.inj hrate
      exact h.2
  | scored r score =>
      obtain rfl := Option.some.inj hrate
      exact h.1.2
  | _ => exact absurd hrate (by simp [Task.rateOf])

/-- All that calls have returned, and that `success_rate` returned to `health_score`, lies between
zero and one. -/
def AllBounded (p : Pool UpstreamInfo (Task ℚ)) : Prop := ∀ t ∈ p.tasks, t.Bounded

/-- In a run with covered loads all rates that were returned are between zero and one. -/
theorem allBounded_of_covered {es : List (Sched Event)} {p : Pool UpstreamInfo (Task ℚ)}
    (hcovered : (machine ℚ).Along Covered (initial ℚ config now₀) es)
    (hrun : (machine ℚ).run (initial ℚ config now₀) es = some p) : AllBounded p := by
  refine (machine ℚ).run_preserves_along ?_ (by simp [AllBounded, initial]) hcovered hrun
  intro q a q' hq hP hstep
  rcases machine_step hstep with ⟨i, now, t, u, t', rfl, ht, hact, rfl⟩ | ⟨c, rfl, rfl⟩ |
    ⟨state, now, rfl, rfl⟩
  · intro v hv
    rcases List.mem_or_eq_of_mem_set hv with hv | rfl
    · exact hq v hv
    · refine (hq t (List.mem_of_getElem? ht)).step (fun caller requests heq => ?_) hact
      exact hP i now caller requests rfl (heq ▸ ht)
  · intro v hv
    rcases List.mem_append.mp hv with hv | hv
    · exact hq v hv
    · obtain rfl := List.mem_singleton.mp hv
      cases c <;> trivial
  · exact hq

/-- **When the rate stays below one.** In every run in which no counter wraps, the rates and scores
that are returned lie between zero and one, if and only if between the two loads of each call of
`success_rate` no more responses are counted than there were calls, at its first load, whose request
was counted and no response to it. -/
theorem rates_bounded_iff {es : List (Sched Event)} {p : Pool UpstreamInfo (Task ℚ)}
    (hwrap : (machine ℚ).Along NoWrap (initial ℚ config now₀) es)
    (hrun : (machine ℚ).run (initial ℚ config now₀) es = some p) :
    AllBounded p ↔ KeepsUp ℚ config now₀ es := by
  rw [keepsUp_iff_covered hwrap]
  refine ⟨fun h => ?_, fun h => allBounded_of_covered h hrun⟩
  rw [Machine.along_iff]
  rintro es₁ a es₂ rfl q hq i now caller requests rfl hsecond
  by_contra hlt
  -- the rate that this load leads to is above one, and it stays
  have hpos := (Inv.of_run (Machine.Along.of_append _ hwrap) hq).positive caller requests
    (List.mem_of_getElem? hsecond)
  obtain ⟨q₁, hq₁, hrest⟩ := (machine ℚ).run_append_eq_some.mp hrun
  obtain rfl := Option.some.inj (hq.symm.trans hq₁)
  obtain ⟨q', hstep, hbehind⟩ := (machine ℚ).run_cons_eq_some.mp hrest
  obtain ⟨t', ht', hrate⟩ : ∃ t', q'.tasks[i]? = some t' ∧
      t'.rateOf = some ((q.shared.stats.responsesReceived : ℚ) / (requests : ℚ)) := by
    have hact : (system ℚ).act q.tasks q.shared (.loadResponses caller requests) (.step now) =
        some (q.shared, rateReturned ℚ ((q.shared.stats.responsesReceived : ℚ) / (requests : ℚ))
          caller, []) := rfl
    obtain rfl := Option.some.inj (hstep.symm.trans ((system ℚ).step_task hsecond hact))
    exact ⟨_, getElem?_set_append_self hsecond _ [], by cases caller <;> rfl⟩
  obtain ⟨t, ht, hlast⟩ := task_run (fun _ _ _ _ _ h hstep => rateOf_step h hstep) ht' hrate hbehind
  have hle := (h t (List.mem_of_getElem? ht)).rate_le hlast
  rw [div_le_one (by exact_mod_cast hpos), Nat.cast_le] at hle
  exact hlt hle

/-- No more requests are counted than steps were made. -/
theorem requests_le_length {F : Type} [ScoreArith F] {es : List (Sched Event)}
    {p : Pool UpstreamInfo (Task F)} (hrun : (machine F).run (initial F config now₀) es = some p) :
    p.shared.stats.requestsSent ≤ es.length := by
  refine (machine F).run_induction (Q := fun es p => p.shared.stats.requestsSent ≤ es.length)
    (by simp [initial, UpstreamInfo.new, UpstreamStats.new]) ?_ hrun
  intro es a p p' _ ih hstep
  rw [List.length_append, List.length_singleton]
  rcases machine_step hstep with ⟨i, now, t, u, t', rfl, ht, hact, rfl⟩ | ⟨c, rfl, rfl⟩ |
    ⟨state, now, rfl, rfl⟩
  · rcases step_counts hact with ⟨-, -, -, hreq, -⟩ | ⟨-, -, -, hreq, -⟩ | ⟨-, -, hreq, -⟩
    · rw [hreq]
      exact (Nat.mod_le _ _).trans (Nat.succ_le_succ ih)
    · rw [hreq]
      exact ih.trans (Nat.le_succ _)
    · rw [hreq]
      exact ih.trans (Nat.le_succ _)
  · exact ih.trans (Nat.le_succ _)
  · rw [setHealthState_stats]
    exact ih.trans (Nat.le_succ _)

/-- No counter wraps in a run that is not too long. -/
theorem noWrap_of_length {F : Type} [ScoreArith F] {es : List (Sched Event)}
    (hlen : es.length + 1 < 2 ^ 64) : (machine F).Along NoWrap (initial F config now₀) es := by
  refine (machine F).along_of_take fun n hn p hrun _ => ?_
  have hle := requests_le_length hrun
  rw [List.length_take] at hle
  unfold NoWrap
  omega

end rates

/-- Two successes are recorded around the two loads of a call of `success_rate`. -/
def overtaken : List (Sched Event) :=
  [.env (.call (.recordSuccess 1000)), .env (.call .successRate),
    .env (.call (.recordSuccess 1000)), .task 0 (.step 0), .task 1 (.step 0), .task 2 (.step 0),
    .task 2 (.step 0), .task 0 (.step 0), .task 1 (.step 0)]

/-- The upstream of the examples. -/
def ratedUpstream : UpstreamConfig := ⟨"backend", "10.0.0.1:80", 1, 0, 1000⟩

/-- A rate of two is returned when one request is loaded, and then two responses. -/
theorem rate_exceeds_one :
    (machine ℚ).Along NoWrap (initial ℚ ratedUpstream 0) overtaken ∧
      ∃ p, (machine ℚ).run (initial ℚ ratedUpstream 0) overtaken = some p ∧
        .rated 2 ∈ p.tasks ∧ ¬ AllBounded p := by
  obtain ⟨p, hrun, hrated⟩ : ∃ p, (machine ℚ).run (initial ℚ ratedUpstream 0) overtaken = some p ∧
      p.tasks[1]? = some (.rated (((2 : ℕ) : ℚ) / ((1 : ℕ) : ℚ))) := ⟨_, rfl, rfl⟩
  have htwo : ((2 : ℕ) : ℚ) / ((1 : ℕ) : ℚ) = 2 := by norm_num
  rw [htwo] at hrated
  have hmem := List.mem_of_getElem? hrated
  exact ⟨noWrap_of_length (by decide), p, hrun, hmem, fun h => absurd (h _ hmem).2 (by norm_num)⟩

/-- What two recorded successes and a rate between them do. -/
theorem rates_bounded_overtaken :
    ∃ p, (machine ℚ).run (initial ℚ ratedUpstream 0) overtaken = some p ∧
      (AllBounded p ↔ KeepsUp ℚ ratedUpstream 0 overtaken) :=
  ⟨_, rfl, rates_bounded_iff (noWrap_of_length (by decide)) rfl⟩

end HarbrRouter.Routing.ConcurrentStats
