import HarbrRouter.Lib.TaskPool
import HarbrRouter.Routing.Upstream

/-!
# Concurrent health reports

`routing.rs`, `UpstreamInfo::set_health_state` on one upstream, called any number of times at once.
The call writes the state, then the time of the check, then the counter of the failures, each of
them for itself, so that the call that writes the state last need not be the last at the counter.

**Theorem** (`failures_agree_iff`): after every run the counter agrees with the state exactly if the
reports came to the counter as they came to the state. Two lists are read off the run, of the states
in the order in which they were written and in the order in which they were counted; the state is
the last of the first (`healthState_of_run`) and the counter the number of `Unhealthy` ones behind
the last `Healthy` one of the second (`healthFailures_of_run`). What is left is about the two last
elements.
-/

set_option autoImplicit false

namespace HarbrRouter.Routing.ConcurrentHealth

open Transition TaskPool

/-! ## Reports and their program points -/

/-- A report at a program point: what it does next. -/
inductive Task where
  /-- `*self.health_state.write() = state` -/
  | writeState (state : HealthState)
  /-- `*self.last_health_check.write() = Instant::now()` -/
  | writeCheck (state : HealthState)
  /-- `self.health_failures.store(0)` or `self.health_failures.fetch_add(1)` -/
  | countFailure (state : HealthState)
  | returned
deriving DecidableEq, Repr

/-- A step of a report at an instant, or a report that begins. -/
inductive Event where
  | step (now : ℕ)
  | call (state : HealthState)
deriving DecidableEq, Repr

/-- One step of a report. Source: `routing.rs`, `UpstreamInfo::set_health_state` -/
def Task.step (u : UpstreamInfo) (now : ℕ) : Task → Option (UpstreamInfo × Task)
  | .writeState state => some ({ u with healthState := state }, .writeCheck state)
  | .writeCheck state => some ({ u with lastHealthCheck := now }, .countFailure state)
  | .countFailure state => some (u.countHealthFailure state, .returned)
  | .returned => none

/-- The reports on one upstream. -/
def system : System UpstreamInfo Task Event where
  act _ u t
    | .step now => (t.step u now).map fun r => (r.1, r.2, [])
    | .call _ => none
  env u
    | .call state => some (u, [.writeState state])
    | .step _ => none

/-- The interleavings of the reports. -/
def machine : Machine (Pool UpstreamInfo Task) (Sched Event) := system.machine

/-- A new upstream, before any report. -/
def initial (config : UpstreamConfig) (now : ℕ) : Pool UpstreamInfo Task := ⟨.new config now, []⟩

/-- A report that nobody interrupts does what `UpstreamInfo.setHealthState` says. -/
theorem run_alone (u : UpstreamInfo) (state : HealthState) (now : ℕ) :
    machine.run ⟨u, []⟩ [.env (.call state), .task 0 (.step now), .task 0 (.step now),
      .task 0 (.step now)] = some ⟨u.setHealthState state now, [.returned]⟩ := by
  cases state <;> rfl

/-- A step of the interleaving moves one report or begins one. -/
theorem machine_step {p p' : Pool UpstreamInfo Task} {a : Sched Event}
    (h : machine.step p a = some p') :
    (∃ i now t u t', a = .task i (.step now) ∧ p.tasks[i]? = some t ∧
        t.step p.shared now = some (u, t') ∧ p' = ⟨u, p.tasks.set i t'⟩) ∨
      ∃ state, a = .env (.call state) ∧ p' = ⟨p.shared, p.tasks ++ [.writeState state]⟩ := by
  rcases system.step_cases h with ⟨i, e, t, sh, t', new, rfl, ht, hact, rfl⟩ |
    ⟨e, sh, new, rfl, henv, rfl⟩
  · cases e with
    | step now =>
        obtain ⟨⟨u, t₁⟩, hstep, heq⟩ := Option.map_eq_some_iff.mp hact
        obtain ⟨rfl, rfl, rfl⟩ : u = sh ∧ t₁ = t' ∧ [] = new := by simpa using heq
        exact Or.inl ⟨i, now, t, u, t₁, rfl, ht, hstep, by rw [List.append_nil]⟩
    | call state => exact absurd hact (by simp [system])
  · cases e with
    | step now => exact absurd henv (by simp [system])
    | call state =>
        obtain ⟨rfl, rfl⟩ : p.shared = sh ∧ [.writeState state] = new := by
          simpa [system] using henv
        exact Or.inr ⟨state, rfl, rfl⟩

/-! ## The order of the writes -/

/-- The state that a step writes. -/
def stateWritten (p : Pool UpstreamInfo Task) : Sched Event → List HealthState
  | .task i _ =>
      match p.tasks[i]? with
      | some (.writeState state) => [state]
      | _ => []
  | .env _ => []

/-- The state for which a step updates the counter. -/
def stateCounted (p : Pool UpstreamInfo Task) : Sched Event → List HealthState
  | .task i _ =>
      match p.tasks[i]? with
      | some (.countFailure state) => [state]
      | _ => []
  | .env _ => []

/-- The states in the order in which a run writes them. -/
def written (p : Pool UpstreamInfo Task) (es : List (Sched Event)) : List HealthState :=
  machine.log (fun q a _ => stateWritten q a) p es

/-- The states in the order in which a run counts them. -/
def counted (p : Pool UpstreamInfo Task) (es : List (Sched Event)) : List HealthState :=
  machine.log (fun q a _ => stateCounted q a) p es

/-- The `Unhealthy` reports counted after the last `Healthy` one. -/
def unhealthySince (states : List HealthState) : ℕ :=
  (states.reverse.takeWhile (· != .healthy)).count .unhealthy

/-- The last report counted that is not `Unknown`. -/
def lastKnown (states : List HealthState) : Option HealthState :=
  states.reverse.find? (· != .unknown)

/-- One more report ends, continues or keeps the count of `Unhealthy` reports. -/
theorem unhealthySince_concat (states : List HealthState) (state : HealthState) :
    unhealthySince (states ++ [state]) =
      match state with
      | .healthy => 0
      | .unhealthy => unhealthySince states + 1
      | .unknown => unhealthySince states := by
  cases state <;> simp [unhealthySince]

/-- No `Unhealthy` report is counted since the last `Healthy` one when the last report is that. -/
theorem unhealthySince_of_lastKnown {states : List HealthState}
    (h : lastKnown states = some .healthy) : unhealthySince states = 0 := by
  induction states using List.reverseRecOn with
  | nil => rfl
  | append_singleton states state ih =>
      rw [unhealthySince_concat]
      cases state with
      | healthy => rfl
      | unhealthy => simp [lastKnown] at h
      | unknown => exact ih (by simpa [lastKnown] using h)

/-- When `Unhealthy` reports are counted since the last `Healthy` one, the last report is
`Unhealthy`. -/
theorem lastKnown_of_unhealthySince {states : List HealthState}
    (h : unhealthySince states ≠ 0) : lastKnown states = some .unhealthy := by
  induction states using List.reverseRecOn with
  | nil => exact absurd rfl h
  | append_singleton states state ih =>
      rw [unhealthySince_concat] at h
      cases state with
      | healthy => exact absurd rfl h
      | unhealthy => simp [lastKnown]
      | unknown => simpa [lastKnown] using ih h

/-- What a step writes: a state, the counter for a state, or neither. -/
inductive Write (p p' : Pool UpstreamInfo Task) (a : Sched Event) : Prop
  | state (state : HealthState) (hwritten : stateWritten p a = [state])
      (hcounted : stateCounted p a = []) (hstate : p'.shared.healthState = state)
      (hfailures : p'.shared.healthFailures = p.shared.healthFailures)
  | failures (state : HealthState) (hwritten : stateWritten p a = [])
      (hcounted : stateCounted p a = [state])
      (hshared : p'.shared = p.shared.countHealthFailure state)
  | neither (hwritten : stateWritten p a = []) (hcounted : stateCounted p a = [])
      (hstate : p'.shared.healthState = p.shared.healthState)
      (hfailures : p'.shared.healthFailures = p.shared.healthFailures)

/-- Every step writes the state or the counter, or neither of them. -/
theorem write_of_step {p p' : Pool UpstreamInfo Task} {a : Sched Event}
    (h : machine.step p a = some p') : Write p p' a := by
  rcases machine_step h with ⟨i, now, t, u, t', rfl, ht, ht', rfl⟩ | ⟨state, rfl, rfl⟩
  · cases t with
    | writeState state =>
        obtain ⟨rfl, rfl⟩ : _ ∧ _ := by simpa [Task.step] using ht'
        exact .state state (by simp [stateWritten, ht]) (by simp [stateCounted, ht]) rfl rfl
    | writeCheck state =>
        obtain ⟨rfl, rfl⟩ : _ ∧ _ := by simpa [Task.step] using ht'
        exact .neither (by simp [stateWritten, ht]) (by simp [stateCounted, ht]) rfl rfl
    | countFailure state =>
        obtain ⟨rfl, rfl⟩ : _ ∧ _ := by simpa [Task.step] using ht'
        exact .failures state (by simp [stateWritten, ht]) (by simp [stateCounted, ht]) rfl
    | returned => exact absurd ht' (by simp [Task.step])
  · exact .neither rfl rfl rfl rfl

/-! ## What a run leaves -/

section run

variable {config : UpstreamConfig} {now : ℕ} {es : List (Sched Event)}
  {p : Pool UpstreamInfo Task}

/-- The state after a run is the one written last. -/
theorem healthState_of_run (hrun : machine.run (initial config now) es = some p) :
    p.shared.healthState = (written (initial config now) es).getLast?.getD .unknown := by
  refine machine.run_induction (Q := fun es p => p.shared.healthState =
    (written (initial config now) es).getLast?.getD .unknown) rfl ?_ hrun
  intro es a q q' hrun ih hstep
  rw [written, machine.log_concat _ hrun hstep, ← written]
  cases write_of_step hstep with
  | state state hwritten _ hstate => rw [hstate, hwritten, List.getLast?_concat, Option.getD_some]
  | failures state hwritten _ hshared =>
      have hkept : q'.shared.healthState = q.shared.healthState := by
        rw [hshared]
        cases state <;> rfl
      rw [hkept, hwritten, List.append_nil, ih]
  | neither hwritten _ hstate => rw [hstate, hwritten, List.append_nil, ih]

/-- The counter after a run is the number of the `Unhealthy` reports counted after the last
`Healthy` one, in 64 bits. -/
theorem healthFailures_of_run (hrun : machine.run (initial config now) es = some p) :
    p.shared.healthFailures = unhealthySince (counted (initial config now) es) % 2 ^ 64 := by
  refine machine.run_induction (Q := fun es p => p.shared.healthFailures =
    unhealthySince (counted (initial config now) es) % 2 ^ 64) rfl ?_ hrun
  intro es a q q' hrun ih hstep
  rw [counted, machine.log_concat _ hrun hstep, ← counted]
  cases write_of_step hstep with
  | state state _ hcounted _ hfailures => rw [hfailures, hcounted, List.append_nil, ih]
  | failures state _ hcounted hshared =>
      rw [hshared, hcounted, unhealthySince_concat]
      cases state with
      | healthy => rfl
      | unhealthy =>
          change wrappingAdd q.shared.healthFailures 1 = _
          rw [ih, wrappingAdd, Nat.mod_add_mod]
      | unknown => exact ih
  | neither _ hcounted _ hfailures => rw [hfailures, hcounted, List.append_nil, ih]

/-- The counter says what the state says: a healthy upstream has no failures, and an unhealthy one
has some. -/
def FailuresAgree (u : UpstreamInfo) : Prop :=
  (u.healthState = .healthy → u.healthFailures = 0) ∧
    (u.healthState = .unhealthy → 1 ≤ u.healthFailures)

/-- The reports came to the counter as they came to the state: when the last state written is
`Healthy` or `Unhealthy`, the last known one that was counted is the same, the counter being in
64 bits. -/
def InStep (written counted : List HealthState) : Prop :=
  (written.getLast? = some .healthy →
      lastKnown counted = some .healthy ∨ 2 ^ 64 ∣ unhealthySince counted) ∧
    (written.getLast? = some .unhealthy →
      lastKnown counted = some .unhealthy ∧ ¬ 2 ^ 64 ∣ unhealthySince counted)

/-- **When the counter agrees with the state**: after every run, reports being in flight or not,
exactly if the reports came to the counter as they came to the state. -/
theorem failures_agree_iff (hrun : machine.run (initial config now) es = some p) :
    FailuresAgree p.shared ↔
      InStep (written (initial config now) es) (counted (initial config now) es) := by
  have hstate := healthState_of_run hrun
  have hfailures := healthFailures_of_run hrun
  generalize hw : (written (initial config now) es).getLast? = last at hstate
  rw [FailuresAgree, InStep, hw, hstate, hfailures, ← Nat.dvd_iff_mod_eq_zero,
    Nat.one_le_iff_ne_zero, ne_eq, ← Nat.dvd_iff_mod_eq_zero]
  cases last with
  | none => simp
  | some state =>
      simp only [Option.getD_some, Option.some.injEq]
      refine and_congr (forall_congr' fun _ => ?_) (forall_congr' fun _ => ?_)
      · refine ⟨Or.inr, fun h => ?_⟩
        rcases h with hlast | hdvd
        · rw [unhealthySince_of_lastKnown hlast]
          exact dvd_zero _
        · exact hdvd
      · refine ⟨fun hnot => ⟨?_, hnot⟩, And.right⟩
        apply lastKnown_of_unhealthySince
        intro hzero
        rw [hzero] at hnot
        exact hnot (dvd_zero _)

end run

/-- The configuration of an upstream. -/
def newUpstream : UpstreamConfig := ⟨"a", "127.0.0.1:80", 1, 0, 5000⟩

/-- Two reports at once: the first writes `Healthy`, the second writes `Unhealthy` over it and
counts its failure, and then the first sets the counter to zero. -/
def crossedReports : List (Sched Event) :=
  [.env (.call .healthy), .env (.call .unhealthy), .task 0 (.step 1), .task 1 (.step 2),
    .task 0 (.step 3), .task 1 (.step 4), .task 1 (.step 5), .task 0 (.step 6)]

/-- The two reports are counted in the other order than they are written, and so the counter does
not agree with the state. -/
theorem failures_agree_iff_crossed :
    ∃ p, machine.run (initial newUpstream 0) crossedReports = some p ∧
      written (initial newUpstream 0) crossedReports = [.healthy, .unhealthy] ∧
      counted (initial newUpstream 0) crossedReports = [.unhealthy, .healthy] ∧
      ¬ FailuresAgree p.shared := by
  obtain ⟨p, hp⟩ : ∃ p, machine.run (initial newUpstream 0) crossedReports = some p := ⟨_, rfl⟩
  refine ⟨p, hp, rfl, rfl, fun hagree => ?_⟩
  obtain ⟨-, hunhealthy⟩ := (failures_agree_iff hp).mp hagree
  obtain ⟨hlast, -⟩ := hunhealthy rfl
  exact absurd hlast (by decide)

/-- **Two reports at once.** No report is in flight any more, the upstream is unhealthy, and it has
no failures. -/
theorem unhealthy_without_failures :
    ∃ es p, machine.run (initial newUpstream 0) es = some p ∧
      (∀ t ∈ p.tasks, t = .returned) ∧ p.shared.healthState = .unhealthy ∧
        p.shared.healthFailures = 0 := by
  refine ⟨crossedReports, _, rfl, ?_, rfl, rfl⟩
  simp [initial]

end HarbrRouter.Routing.ConcurrentHealth
