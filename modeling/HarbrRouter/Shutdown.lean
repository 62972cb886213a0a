import HarbrRouter.Config
import HarbrRouter.Lib.Broadcast
import HarbrRouter.Lib.TaskPool

/-!
# Requests to shut down

`router.rs`, `metrics.rs` and `server.rs`: the router, the metrics server and the health server each
have a broadcast channel whose first receiver is dropped in the constructor. `trigger_shutdown` and
the two `shutdown` send on it; `wait_for_shutdown` and the `start` of the servers subscribe to it
when they come to their wait.

**Theorem** (`never_lost_iff`): in a run no request is lost exactly when `trigger_shutdown` is
called only while somebody waits for it, and nobody subscribes after a request. The receivers of a
channel are the tasks that wait on it (`Inv.of_run`), so a request reaches those that wait when it
comes and nobody else: a step in time answers it and leaves nobody waiting who has not heard of it
(`InTime.answered`, `Heard.step`), and a step that is not in time refuses it or leaves a task that
has not (`inTime_of_heard`).
-/

set_option autoImplicit false

namespace HarbrRouter.Shutdown

open Transition TaskPool Broadcast

/-! ## The channels and who waits on them -/

/-- What can be asked to shut down. -/
inductive Component where
  /-- Source: `router.rs`, `Router` -/
  | router
  /-- Source: `metrics.rs`, `MetricsServer` -/
  | metricsServer
  /-- Source: `server.rs`, `HealthServer` -/
  | healthServer
deriving DecidableEq, Repr

/-- `let (shutdown_sender, _) = broadcast::channel(..)`: the receiver is dropped at once.
Source: `router.rs`, `Router::new`; `metrics.rs`, `MetricsServer::new`; `server.rs`,
`HealthServer::new` -/
def newSender : Channel := Channel.new.drop

/-- Source: `router.rs`, `Router::trigger_shutdown` -/
def triggerShutdown (shutdownSender : Channel) : Channel × Result Unit :=
  match shutdownSender.send with
  | some shutdownSender => (shutdownSender, .ok ())
  | none => (shutdownSender, .error (.internal "Failed to send shutdown signal: channel closed"))

/-- A message that nobody receives is only logged.
Source: `metrics.rs`, `MetricsServer::shutdown`; `server.rs`, `HealthServer::shutdown` -/
def shutdownServer (shutdownSender : Channel) : Channel × Result Unit :=
  match shutdownSender.send with
  | some shutdownSender => (shutdownSender, .ok ())
  | none => (shutdownSender, .ok ())

/-- The request to shut a component down. -/
def Component.request : Component → Channel → Channel × Result Unit
  | .router => triggerShutdown
  | .metricsServer | .healthServer => shutdownServer

/-- Does the component come to its wait? Source: `metrics.rs`, `MetricsServer::start`; `server.rs`,
`HealthServer::start` -/
def Component.listens (config : Config) : Component → Bool
  | .router => true
  | .metricsServer => config.global.metrics.enabled
  | .healthServer => config.global.healthCheck.enabled

/-- Where a start task is. Source: `router.rs`, `Router::start` and `Router::wait_for_shutdown`;
`metrics.rs`, `MetricsServer::start`; `server.rs`, `HealthServer::start` -/
inductive ListenPc where
  /-- What comes before `self.shutdown_sender.subscribe()`. -/
  | starting
  /-- `shutdown.recv()`, beside the OS signals or the work of the server. -/
  | waiting (next : ℕ)
  | ended
deriving DecidableEq, Repr

/-- A start task, or another call of `wait_for_shutdown`. -/
structure Task where
  component : Component
  pc : ListenPc
deriving DecidableEq, Repr

/-- What the tasks share. -/
structure Shared where
  shutdownSender : Component → Channel
  /-- Was it asked to shut down? -/
  requested : Component → Bool

/-- A step of a task, or an event of the environment. -/
inductive Event where
  /-- `self.shutdown_sender.subscribe()` -/
  | subscribe
  /-- `shutdown.recv()` is ready. -/
  | receive
  /-- The task ends for another reason: an error before the wait, an OS signal, an error or a panic
  of the server. -/
  | leave
  /-- A task of the component starts. -/
  | start (c : Component)
  /-- `trigger_shutdown` or `shutdown` -/
  | request (c : Component)
deriving DecidableEq, Repr

namespace Shared

/-- Change the channel of a component. -/
def setSender (sh : Shared) (c : Component) (shutdownSender : Channel) : Shared :=
  { sh with shutdownSender := Function.update sh.shutdownSender c shutdownSender }

/-- The channel of a component is the one it was changed to. -/
@[simp] theorem setSender_self (sh : Shared) (c : Component) (shutdownSender : Channel) :
    (sh.setSender c shutdownSender).shutdownSender c = shutdownSender := by
  simp [setSender]

/-- A change of a component's channel leaves the others as they are. -/
theorem setSender_of_ne (sh : Shared) {c c' : Component} (h : c' ≠ c) (shutdownSender : Channel) :
    (sh.setSender c shutdownSender).shutdownSender c' = sh.shutdownSender c' := by
  simp [setSender, h]

/-- A component is asked to shut down. -/
def request (sh : Shared) (c : Component) : Shared :=
  { sh.setSender c (c.request (sh.shutdownSender c)).1 with
    requested := Function.update sh.requested c true }

end Shared

section system

variable (config : Config)

/-- One step of a task. -/
def Task.step (sh : Shared) (t : Task) : Event → Option (Shared × Task)
  | .subscribe =>
      match t.pc with
      | .starting =>
          if t.component.listens config then
            let (shutdownSender, next) := (sh.shutdownSender t.component).subscribe
            some (sh.setSender t.component shutdownSender, { t with pc := .waiting next })
          else some (sh, { t with pc := .ended })
      | _ => none
  | .receive =>
      match t.pc with
      | .waiting next =>
          if (sh.shutdownSender t.component).Ready next then
            some (sh.setSender t.component (sh.shutdownSender t.component).drop,
              { t with pc := .ended })
          else none
      | _ => none
  | .leave =>
      match t.pc with
      | .starting => some (sh, { t with pc := .ended })
      | .waiting _ =>
          some (sh.setSender t.component (sh.shutdownSender t.component).drop,
            { t with pc := .ended })
      | .ended => none
  | _ => none

/-- Any number of tasks of the three components, and requests to shut them down. -/
def system : System Shared Task Event where
  act _ sh t e := (t.step config sh e).map fun r => (r.1, r.2, [])
  env sh
    | .start c => some (sh, [⟨c, .starting⟩])
    | .request c => some (sh.request c, [])
    | _ => none

/-- The machine of the interleavings. -/
abbrev machine : Machine (Pool Shared Task) (Sched Event) := (system config).machine

/-- A new router with its servers. -/
def initial : Pool Shared Task := ⟨⟨fun _ => newSender, fun _ => false⟩, []⟩

/-! ## Lost requests -/

/-- A call of `trigger_shutdown` returns `Ok`. -/
def Answered (p : Pool Shared Task) (a : Sched Event) : Prop :=
  a = .env (.request .router) → (triggerShutdown (p.shared.shutdownSender .router)).2 = .ok ()

/-- Whoever waits on a component that was asked to shut down has something to receive. -/
def Heard (p : Pool Shared Task) : Prop :=
  ∀ t ∈ p.tasks, ∀ next, t.pc = .waiting next → p.shared.requested t.component = true →
    (p.shared.shutdownSender t.component).Ready next

/-- No request is lost in a run: every `trigger_shutdown` returns `Ok`, and in every state whoever
waits on a component that was asked to shut down, before it waited or since, can return. -/
def NeverLost (es : List (Sched Event)) : Prop :=
  (machine config).Along Answered initial es ∧
    ∀ n ≤ es.length, ∀ q, (machine config).run initial (es.take n) = some q → Heard q

/-- The condition on a step: `trigger_shutdown` is called while somebody waits for it, and a task
subscribes before its component is asked to shut down. -/
def InTime (p : Pool Shared Task) : Sched Event → Prop
  | .env (.request .router) => ∃ t ∈ p.tasks, t.component = .router ∧ ∃ next, t.pc = .waiting next
  | .task i .subscribe => ∀ t, p.tasks[i]? = some t → t.pc = .starting →
      t.component.listens config = true → p.shared.requested t.component = false
  | _ => True

/-! ## What a step does -/

/-- The steps of a task, one constructor for each way on. -/
inductive TaskStep (sh : Shared) (t : Task) : Event → Shared → Task → Prop
  | listen (hpc : t.pc = .starting) (hlistens : t.component.listens config = true) :
      TaskStep sh t .subscribe
        (sh.setSender t.component (sh.shutdownSender t.component).subscribe.1)
        { t with pc := .waiting (sh.shutdownSender t.component).subscribe.2 }
  | disabled (hpc : t.pc = .starting) (hlistens : t.component.listens config = false) :
      TaskStep sh t .subscribe sh { t with pc := .ended }
  | drop {e : Event} {next : ℕ} (hpc : t.pc = .waiting next) :
      TaskStep sh t e (sh.setSender t.component (sh.shutdownSender t.component).drop)
        { t with pc := .ended }
  | fail (hpc : t.pc = .starting) : TaskStep sh t .leave sh { t with pc := .ended }

variable {config}
variable {sh sh' : Shared} {t t' : Task} {e : Event} {p p' : Pool Shared Task} {a : Sched Event}

/-- Every step of a task is one of its ways on. -/
theorem Task.step_inv (h : t.step config sh e = some (sh', t')) :
    TaskStep config sh t e sh' t' := by
  unfold Task.step at h
  split at h
  · split at h
    · next hpc =>
        split_ifs at h with hlistens
        · obtain ⟨rfl, rfl⟩ : _ ∧ _ := by simpa using h
          exact .listen hpc hlistens
        · obtain ⟨rfl, rfl⟩ : _ ∧ _ := by simpa using h
          exact .disabled hpc (by simpa using hlistens)
    · exact absurd h (by simp)
  · split at h
    · next hpc =>
        split_ifs at h with hready
        obtain ⟨rfl, rfl⟩ : _ ∧ _ := by simpa using h
        exact .drop hpc
    · exact absurd h (by simp)
  · split at h
    · next hpc =>
        obtain ⟨rfl, rfl⟩ : _ ∧ _ := by simpa using h
        exact .fail hpc
    · next hpc =>
        obtain ⟨rfl, rfl⟩ : _ ∧ _ := by simpa using h
        exact .drop hpc
    · exact absurd h (by simp)
  · exact absurd h (by simp)

/-- What one step of the machine does: a task moves, a task starts, or a component is asked to shut
down. -/
theorem step_cases (h : (machine config).step p a = some p') :
    (∃ i e t t', a = .task i e ∧ p.tasks[i]? = some t ∧ TaskStep config p.shared t e p'.shared t' ∧
        p'.tasks = p.tasks.set i t') ∨
      (∃ c, a = .env (.start c) ∧ p'.shared = p.shared ∧ p'.tasks = p.tasks ++ [⟨c, .starting⟩]) ∨
      ∃ c, a = .env (.request c) ∧ p'.shared = p.shared.request c ∧ p'.tasks = p.tasks := by
  rcases (system config).step_cases h with ⟨i, e, t, sh, t', new, rfl, ht, hact, rfl⟩ |
    ⟨e, sh, new, rfl, henv, rfl⟩
  · obtain ⟨⟨sh₁, t₁⟩, hstep, heq⟩ := Option.map_eq_some_iff.mp hact
    obtain ⟨rfl, rfl, rfl⟩ : _ ∧ _ ∧ _ := by simpa using heq
    exact Or.inl ⟨i, e, t, t₁, rfl, ht, Task.step_inv hstep, List.append_nil _⟩
  · right
    cases e with
    | start c =>
        obtain ⟨rfl, rfl⟩ : _ ∧ _ := by simpa [system] using henv
        exact Or.inl ⟨c, rfl, rfl, rfl⟩
    | request c =>
        obtain ⟨rfl, rfl⟩ : _ ∧ _ := by simpa [system] using henv
        exact Or.inr ⟨c, rfl, rfl, List.append_nil _⟩
    | _ => exact absurd henv (by simp [system])

/-! ## The receivers -/

/-- Is the task waiting? -/
def ListenPc.isWaiting : ListenPc → Bool
  | .waiting _ => true
  | _ => false

/-- Does the task wait on the component? -/
def waitsOn (c : Component) (t : Task) : Bool := t.component = c && t.pc.isWaiting

/-- The receivers of a channel are the tasks that wait on it, and none of them is ahead of it. -/
structure Inv (p : Pool Shared Task) : Prop where
  receivers : ∀ c, (p.shared.shutdownSender c).receivers = p.tasks.countP (waitsOn c)
  behind : ∀ t ∈ p.tasks, ∀ next, t.pc = .waiting next →
    next ≤ (p.shared.shutdownSender t.component).sent

/-- A request sends a message where there is a receiver, and else does nothing. -/
theorem Component.request_fst (c : Component) (channel : Channel) :
    (c.request channel).1 = channel.send.getD channel := by
  cases c with
  | router =>
      simp only [Component.request, triggerShutdown]
      cases channel.send <;> rfl
  | metricsServer | healthServer =>
      simp only [Component.request, shutdownServer]
      cases channel.send <;> rfl

/-- No request takes a receiver or a message away. -/
theorem Shared.request_sender (sh : Shared) (c c' : Component) :
    ((sh.request c).shutdownSender c').receivers = (sh.shutdownSender c').receivers ∧
      (sh.shutdownSender c').sent ≤ ((sh.request c).shutdownSender c').sent := by
  simp only [Shared.request]
  by_cases hc : c' = c
  · subst hc
    rw [Shared.setSender_self, Component.request_fst]
    cases hsend : (sh.shutdownSender c').send with
    | none => exact ⟨rfl, le_rfl⟩
    | some channel =>
        rw [Option.getD_some, Channel.send_eq_some hsend]
        exact ⟨rfl, Nat.le_succ _⟩
  · rw [sh.setSender_of_ne hc]
    exact ⟨rfl, le_rfl⟩

/-- A step of a task leaves its component and the messages alone. -/
theorem TaskStep.sent (h : TaskStep config sh t e sh' t') : t'.component = t.component ∧
    (∀ c, (sh'.shutdownSender c).sent = (sh.shutdownSender c).sent) ∧
    sh'.requested = sh.requested := by
  have hset : ∀ channel : Channel, channel.sent = (sh.shutdownSender t.component).sent → ∀ c,
      ((sh.setSender t.component channel).shutdownSender c).sent = (sh.shutdownSender c).sent := by
    intro channel hsent c
    by_cases hc : c = t.component
    · subst hc
      rw [sh.setSender_self, hsent]
    · rw [sh.setSender_of_ne hc]
  cases h with
  | listen => exact ⟨rfl, hset _ rfl, rfl⟩
  | drop => exact ⟨rfl, hset _ rfl, rfl⟩
  | _ => exact ⟨rfl, fun _ => rfl, rfl⟩

/-- The receivers follow the tasks that wait. -/
theorem TaskStep.receivers (h : TaskStep config sh t e sh' t') {ts : List Task} {i : ℕ}
    (ht : ts[i]? = some t)
    (hold : ∀ c, (sh.shutdownSender c).receivers = ts.countP (waitsOn c)) (c : Component) :
    (sh'.shutdownSender c).receivers = (ts.set i t').countP (waitsOn c) := by
  have hother : c ≠ t.component → (ts.set i t').countP (waitsOn c) = ts.countP (waitsOn c) := by
    intro hc
    apply countP_set_of_same (waitsOn c) ht
    simp [waitsOn, h.sent.1, hc.symm]
  have hset : ∀ channel, c ≠ t.component →
      ((sh.setSender t.component channel).shutdownSender c).receivers =
        (ts.set i t').countP (waitsOn c) := by
    intro channel hc
    rw [sh.setSender_of_ne hc, hold c, hother hc]
  cases h with
  | listen hpc =>
      by_cases hc : c = t.component
      · subst hc
        rw [countP_set_of_enter _ ht (by simp [waitsOn, hpc, ListenPc.isWaiting])
          (by simp [waitsOn, ListenPc.isWaiting]), ← hold, sh.setSender_self]
        rfl
      · exact hset _ hc
  | drop hpc =>
      by_cases hc : c = t.component
      · subst hc
        have hended : waitsOn t.component { t with pc := .ended } = false := by
          simp [waitsOn, ListenPc.isWaiting]
        have hleave := countP_set_of_leave (waitsOn t.component) ht
          (by simp [waitsOn, hpc, ListenPc.isWaiting]) hended
        have hbefore := hold t.component
        simp only [Shared.setSender_self, Channel.drop]
        omega
      · exact hset _ hc
  | disabled hpc | fail hpc =>
      rw [hold c]
      refine (countP_set_of_same (waitsOn c) ht ?_).symm
      simp [waitsOn, hpc, ListenPc.isWaiting]

/-- A task that waits after a step waited there before it, or has just subscribed. -/
theorem TaskStep.waiting (h : TaskStep config sh t e sh' t') {next : ℕ}
    (hpc : t'.pc = .waiting next) :
    e = .subscribe ∧ t.pc = .starting ∧ t.component.listens config = true ∧
      next = (sh.shutdownSender t.component).sent := by
  cases h with
  | listen hstarting hlistens =>
      obtain rfl : _ = next := by simpa using hpc
      exact ⟨rfl, hstarting, hlistens, rfl⟩
  | _ => exact absurd hpc (by simp)

/-- Every step keeps the invariant. -/
theorem Inv.step (hI : Inv p) (hstep : (machine config).step p a = some p') : Inv p' := by
  rcases step_cases hstep with ⟨i, e, t, t', -, ht, htask, htasks⟩ | ⟨c, -, hshared, htasks⟩ |
    ⟨c, -, hshared, htasks⟩
  · obtain ⟨hcomponent, hsent, -⟩ := htask.sent
    refine ⟨fun c => by rw [htasks, htask.receivers ht hI.receivers c], fun u hu next hpc => ?_⟩
    rw [htasks] at hu
    rw [hsent]
    rcases List.mem_or_eq_of_mem_set hu with hu | rfl
    · exact hI.behind u hu next hpc
    · rw [(htask.waiting hpc).2.2.2, hcomponent]
  · refine ⟨fun c' => ?_, fun u hu next hpc => ?_⟩
    · rw [hshared, htasks, List.countP_append, hI.receivers]
      simp [waitsOn, ListenPc.isWaiting]
    · rw [htasks] at hu
      rw [hshared]
      rcases List.mem_append.mp hu with hu | hu
      · exact hI.behind u hu next hpc
      · rw [List.mem_singleton.mp hu] at hpc
        exact absurd hpc (by simp)
  · refine ⟨fun c' => ?_, fun u hu next hpc => ?_⟩
    · rw [hshared, htasks, (p.shared.request_sender c c').1, hI.receivers]
    · rw [htasks] at hu
      rw [hshared]
      exact (hI.behind u hu next hpc).trans (p.shared.request_sender c u.component).2

/-- The invariant holds at first. -/
theorem Inv.initial : Inv initial :=
  ⟨fun _ => rfl, fun _ ht => absurd ht List.not_mem_nil⟩

/-- The invariant holds in every reachable state. -/
theorem Inv.of_run {es : List (Sched Event)}
    (hrun : (machine config).run Shutdown.initial es = some p) : Inv p :=
  (machine config).run_preserves (fun _ _ _ hI hs => Inv.step hI hs) Inv.initial hrun

/-- Where somebody waits, a message is sent. -/
theorem Inv.send (hI : Inv p) {next : ℕ} (ht : t ∈ p.tasks) (hpc : t.pc = .waiting next) :
    ∃ channel, (p.shared.shutdownSender t.component).send = some channel := by
  rw [← Option.ne_none_iff_exists', Ne, Channel.send_eq_none_iff, hI.receivers]
  have hpos : 0 < p.tasks.countP (waitsOn t.component) :=
    List.countP_pos_iff.mpr ⟨t, ht, by simp [waitsOn, hpc, ListenPc.isWaiting]⟩
  omega

/-- A step in time loses no request. -/
theorem Heard.step (hI : Inv p) (hheard : Heard p) (hin : InTime config p a)
    (hstep : (machine config).step p a = some p') : Heard p' := by
  rcases step_cases hstep with ⟨i, e, t, t', rfl, ht, htask, htasks⟩ | ⟨c, -, hshared, htasks⟩ |
    ⟨c, -, hshared, htasks⟩
  · obtain ⟨hcomponent, hsent, hrequested⟩ := htask.sent
    intro u hu next hpc hreq
    rw [htasks] at hu
    rw [hrequested] at hreq
    unfold Channel.Ready
    rw [hsent]
    rcases List.mem_or_eq_of_mem_set hu with hu | rfl
    · exact hheard u hu next hpc hreq
    · obtain ⟨rfl, hstarting, hlistens, -⟩ := htask.waiting hpc
      have hfresh : p.shared.requested t.component = false := hin t ht hstarting hlistens
      rw [hcomponent, hfresh] at hreq
      exact absurd hreq (by simp)
  · intro u hu next hpc hreq
    rw [htasks] at hu
    rw [hshared] at hreq ⊢
    rcases List.mem_append.mp hu with hu | hu
    · exact hheard u hu next hpc hreq
    · rw [List.mem_singleton.mp hu] at hpc
      exact absurd hpc (by simp)
  · intro u hu next hpc hreq
    rw [htasks] at hu
    rw [hshared] at hreq ⊢
    by_cases hc : u.component = c
    · subst hc
      obtain ⟨channel, hsend⟩ := hI.send hu hpc
      have hready := Channel.ready_of_send hsend (hI.behind u hu next hpc)
      simpa [Shared.request, Component.request_fst, hsend] using hready
    · have hold : p.shared.requested u.component = true := by
        simpa [Shared.request, Function.update_of_ne hc] using hreq
      have hready := hheard u hu next hpc hold
      simpa [Shared.request, p.shared.setSender_of_ne hc] using hready

/-- `trigger_shutdown` returns `Ok` exactly where there is a receiver. -/
theorem triggerShutdown_ok_iff (channel : Channel) :
    (triggerShutdown channel).2 = .ok () ↔ channel.receivers ≠ 0 := by
  rw [Ne, ← Channel.send_eq_none_iff, triggerShutdown]
  cases channel.send with
  | none => simp
  | some channel => simp

/-- A step in which no request is lost is in time. -/
theorem inTime_of_heard (hI : Inv p) (hanswered : Answered p a)
    (hheard : ∀ p', (machine config).step p a = some p' → Heard p') : InTime config p a := by
  rcases a with ⟨i, e⟩ | e
  · cases e with
    | subscribe =>
        intro t ht hpc hlistens
        by_contra hrequested
        have hact : (system config).act p.tasks p.shared t .subscribe = some
            (p.shared.setSender t.component (p.shared.shutdownSender t.component).subscribe.1,
              { t with pc := .waiting (p.shared.shutdownSender t.component).subscribe.2 }, []) := by
          simp [system, Task.step, hpc, hlistens]
        have hstep := (system config).step_task ht hact
        have hmem := mem_set_append_self ht
          { t with pc := .waiting (p.shared.shutdownSender t.component).subscribe.2 } []
        have hasked : p.shared.requested t.component = true := by simpa using hrequested
        have hready := hheard _ hstep _ hmem _ rfl hasked
        exact Channel.not_ready_subscribe _ (by simpa using hready)
    | _ => trivial
  · cases e with
    | request c =>
        cases c with
        | router =>
            have hreceivers := (triggerShutdown_ok_iff _).mp (hanswered rfl)
            rw [hI.receivers] at hreceivers
            obtain ⟨t, ht, hwaits⟩ := List.countP_pos_iff.mp (Nat.pos_of_ne_zero hreceivers)
            obtain ⟨hcomponent, hwaiting⟩ : t.component = .router ∧ t.pc.isWaiting = true := by
              simpa [waitsOn] using hwaits
            refine ⟨t, ht, hcomponent, ?_⟩
            cases hpc : t.pc with
            | waiting next => exact ⟨next, rfl⟩
            | _ => exact absurd hwaiting (by simp [hpc, ListenPc.isWaiting])
        | _ => trivial
    | _ => trivial

/-- A request in a step in time is answered. -/
theorem InTime.answered (hI : Inv p) (hin : InTime config p a) : Answered p a := by
  rintro rfl
  obtain ⟨t, ht, hcomponent, next, hpc⟩ := hin
  obtain ⟨channel, hsend⟩ := hI.send ht hpc
  rw [hcomponent] at hsend
  simp [triggerShutdown, hsend]

/-- **When no request to shut down is lost.** In every run it is so exactly when every
`trigger_shutdown` is called while somebody waits for it and no task subscribes after a request to
its component. -/
theorem never_lost_iff (config : Config) (es : List (Sched Event)) (p : Pool Shared Task)
    (hrun : (machine config).run initial es = some p) :
    NeverLost config es ↔ (machine config).Along (InTime config) initial es := by
  have hstart : Inv initial ∧ Heard initial :=
    ⟨Inv.initial, fun t ht => absurd ht List.not_mem_nil⟩
  constructor
  · rintro ⟨hanswered, hheard⟩
    rw [Machine.along_iff] at hanswered ⊢
    rintro es₁ a es₂ rfl q hq
    refine inTime_of_heard (Inv.of_run hq) (hanswered es₁ a es₂ rfl q hq) fun q' hstep => ?_
    apply hheard (es₁.length + 1) (by simp) q'
    have htake : (es₁ ++ a :: es₂).take (es₁.length + 1) = es₁ ++ [a] := by
      rw [← List.singleton_append, ← List.append_assoc, List.take_left' (by simp)]
    rw [htake, Machine.run_append, hq]
    simpa using hstep
  · intro hin
    refine ⟨(machine config).along_of_invariant (I := fun q => Inv q ∧ Heard q)
      (fun q a q' hq hina hs => ⟨⟨hq.1.step hs, hq.2.step hq.1 hina hs⟩, hina.answered hq.1⟩)
      hstart hin hrun, fun n _ q hq => ?_⟩
    have hprefix : (machine config).Along (InTime config) initial (es.take n) := by
      rw [← List.take_append_drop n es] at hin
      exact Machine.Along.of_append _ hin
    exact ((machine config).run_preserves_along (I := fun q => Inv q ∧ Heard q)
      (fun q a q' hq hina hs => ⟨hq.1.step hs, hq.2.step hq.1 hina hs⟩) hstart hprefix hq).2

end system

/-! ## Lost requests -/

/-- A configuration without instances, all servers on. -/
def exampleConfig : Config := ⟨.default, []⟩

/-- A router that waits is asked to shut down. -/
def waitAndTrigger : List (Sched Event) :=
  [.env (.start .router), .task 0 .subscribe, .env (.request .router), .task 0 .receive]

/-- No request is lost when a router that waits is asked to shut down. -/
theorem never_lost_iff_waitAndTrigger : NeverLost exampleConfig waitAndTrigger := by
  have hsome : ((machine exampleConfig).run initial waitAndTrigger).isSome = true := by
    decide +kernel
  obtain ⟨p, hrun⟩ := Option.isSome_iff_exists.mp hsome
  apply (never_lost_iff exampleConfig waitAndTrigger p hrun).mpr
  simp [waitAndTrigger, Machine.Along, system, System.machine, System.next, initial, Task.step,
    InTime, Component.listens, newSender, Channel.new, Channel.drop, Channel.subscribe]

/-- A request to a new router is refused, and a server that subscribes after its request waits for
another one. -/
theorem requests_lost :
    (∃ p, (machine exampleConfig).run initial [.env (.request .router)] = some p ∧
      ¬ NeverLost exampleConfig [.env (.request .router)]) ∧
    ∃ p, (machine exampleConfig).run initial [.env (.start .metricsServer),
        .env (.request .metricsServer), .task 0 .subscribe] = some p ∧
      ¬ NeverLost exampleConfig [.env (.start .metricsServer), .env (.request .metricsServer),
        .task 0 .subscribe] := by
  constructor
  · refine ⟨_, rfl, fun hkept => ?_⟩
    have hanswered := (Machine.along_iff _).mp hkept.1 [] _ [] rfl _ rfl rfl
    exact absurd ((triggerShutdown_ok_iff _).mp hanswered) (by decide)
  · refine ⟨_, rfl, fun hkept => ?_⟩
    have hheard := hkept.2 3 le_rfl _ rfl ⟨.metricsServer, .waiting 0⟩ (by decide) 0 rfl rfl
    exact absurd hheard (by decide)

end HarbrRouter.Shutdown
