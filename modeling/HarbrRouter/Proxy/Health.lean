import HarbrRouter.Proxy.HttpCounters
import HarbrRouter.Proxy.TcpCounters
import HarbrRouter.Proxy.UdpCounters

/-!
# What the proxies report of their own health

`health_check` of the three proxies: a classification of one active counter by two bounds. What the
counter counts makes the difference: that of the TCP proxy counts connections, and the proxy
recovers when they end; that of the HTTP proxy counts the dropped handlers with the live ones, and
those never come down.

**Theorem** (`http_health_of_run`): the health of the HTTP proxy, at any two points of a run, by the
handlers under way and those dropped by then. The counter is the number of the handlers in its
section, which are of these two kinds (`countPc_isActive`), and a dropped handler makes no step, so
the dropped ones become no fewer (`dropped_le_of_run`).

**Theorem** (`tcp_health_of_run`): the health of the TCP proxy by the connections under way, which
its counter counts.
-/

set_option autoImplicit false

namespace HarbrRouter.Proxy

open Routing

/-- Source: `proxy.rs`, `ProxyHealth` -/
structure ProxyHealth where
  status : HealthState
  message : String
deriving DecidableEq, Repr

/-- The text of a counter. -/
def counterText (name : String) (value : ℕ) : String := name ++ ": " ++ Nat.repr value

/-- The classification of an active counter by a lower and an upper bound.
Source: `proxy/tcp.rs`, `TcpProxy::health_check`, and `proxy/udp.rs`, `UdpProxy::health_check` -/
def loadStatus (healthyBelow unhealthyFrom active : ℕ) : HealthState :=
  if active < healthyBelow then .healthy
  else if unhealthyFrom ≤ active then .unhealthy
  else .unknown

/-- Source: `proxy/http.rs`, `HttpProxy::health_check` -/
def Http.HttpProxyMetrics.healthCheck (self : Http.HttpProxyMetrics) : ProxyHealth where
  status :=
    if self.connectionsActive < 10000 ∧ 0 < self.requestsTotal then .healthy
    else if 10000 ≤ self.connectionsActive then .unhealthy
    else .unknown
  message := counterText "Active connections" self.connectionsActive ++ ", " ++
    counterText "Total requests" self.requestsTotal

/-- Source: `proxy/tcp.rs`, `TcpProxy::health_check` -/
def Tcp.TcpProxyMetrics.healthCheck (self : Tcp.TcpProxyMetrics) : ProxyHealth where
  status := loadStatus 5000 10000 self.connectionsActive
  message := counterText "Active connections" self.connectionsActive ++ ", " ++
    counterText "Total connections" self.connectionsTotal

/-- Source: `proxy/udp.rs`, `UdpProxy::health_check` -/
def Udp.UdpProxyMetrics.healthCheck (self : Udp.UdpProxyMetrics) : ProxyHealth where
  status := loadStatus 1000 5000 self.sessionsActive
  message := counterText "Active sessions" self.sessionsActive ++ ", " ++
    counterText "Total packets" self.packetsTotal

/-! ## The HTTP proxy -/

namespace Http

open Transition TaskPool

/-- Is the handler between the increment and the decrement of `connections_active`, and not
dropped? -/
def HandlerPc.isUnderWay (pc : HandlerPc) : Bool := pc.isActive && !pc.isDropped

/-- The handlers between the increment and the decrement are those under way and those dropped. -/
theorem countPc_isActive (ts : List Handler) :
    countPc HandlerPc.isActive ts =
      countPc HandlerPc.isUnderWay ts + countPc HandlerPc.isDropped ts := by
  induction ts with
  | nil => rfl
  | cons t ts ih =>
      have hcons : ∀ P : HandlerPc → Bool,
          countPc P (t :: ts) = countPc P ts + if P t.pc then 1 else 0 := fun P => List.countP_cons
      rw [hcons, hcons, hcons, ih]
      generalize t.pc = pc
      cases pc <;> simp only [HandlerPc.isUnderWay, HandlerPc.isActive, HandlerPc.isDropped,
        Bool.not_true, Bool.not_false, Bool.and_true, Bool.and_false, Bool.false_eq_true, if_true,
        if_false] <;> omega

section

variable {F : Type} [ScoreArith F] {D : Deployment} {heap : Heap} {routers : ℕ → Router}
  {es fs : List (Sched Event)} {p q : Pool ProxyState Handler}

/-- A dropped handler makes no step. -/
theorem Handler.isDropped_of_step {sh sh' : ProxyState} {t t' : Handler} {e : Event}
    (h : t.step F D sh e = some (sh', t')) : t.pc.isDropped = false := by
  have hstep := t.step_inv h
  generalize t.pc = pc at hstep
  cases hstep <;> rfl

/-- The dropped handlers become no fewer. -/
theorem dropped_le_of_run (hrun : (machine F D).run p fs = some q) :
    countPc HandlerPc.isDropped p.tasks ≤ countPc HandlerPc.isDropped q.tasks := by
  refine (machine F D).run_preserves
    (I := fun q => countPc HandlerPc.isDropped p.tasks ≤ countPc HandlerPc.isDropped q.tasks) ?_
    le_rfl hrun
  intro s a s' hs hstep
  refine hs.trans ?_
  rcases machine_step hstep with ⟨i, e, t, sh, t', rfl, ht, hmove, rfl⟩ | ⟨ns, rfl, rfl⟩ |
    ⟨inst, req, rfl, rfl⟩
  · have hcount := countP_set_append (fun u : Handler => u.pc.isDropped) ht t' []
    simp only [t.isDropped_of_step hmove, List.append_nil] at hcount
    simp only [countPc]
    simp at hcount
    omega
  · exact le_rfl
  · simp [countPc]

/-- **The health of the HTTP proxy over a run.** At any later point of a run of fewer than `2 ^ 64`
requests, at least as many handlers are dropped as before, and the proxy is unhealthy exactly when
the handlers under way and all handlers ever dropped are 10000 or more; it is healthy exactly when
they are fewer and a request has come in. So 10000 dropped handlers make the proxy unhealthy for
good, whatever is under way. -/
theorem http_health_of_run (hp : (machine F D).run (initial heap routers) es = some p)
    (hq : (machine F D).run p fs = some q) (hbound : q.tasks.length < 2 ^ 64) :
    countPc HandlerPc.isDropped p.tasks ≤ countPc HandlerPc.isDropped q.tasks ∧
      (q.shared.metrics.healthCheck.status = .unhealthy ↔
        10000 ≤ countPc HandlerPc.isUnderWay q.tasks + countPc HandlerPc.isDropped q.tasks) ∧
      (q.shared.metrics.healthCheck.status = .healthy ↔
        countPc HandlerPc.isUnderWay q.tasks + countPc HandlerPc.isDropped q.tasks < 10000 ∧
          0 < countPc HandlerPc.isCounted q.tasks) := by
  have hall : (machine F D).run (initial heap routers) (es ++ fs) = some q :=
    (machine F D).run_append_eq_some.mpr ⟨p, hp, hq⟩
  obtain ⟨htotal, hactive, -⟩ := counters_of_run hall hbound
  refine ⟨dropped_le_of_run hq, ?_⟩
  unfold HttpProxyMetrics.healthCheck
  dsimp only
  rw [htotal, hactive, countPc_isActive]
  split_ifs with hhealthy hunhealthy
  · exact ⟨iff_of_false (by decide) (by omega), iff_of_true rfl hhealthy⟩
  · exact ⟨iff_of_true rfl hunhealthy, iff_of_false (by decide) hhealthy⟩
  · exact ⟨iff_of_false (by decide) hunhealthy, iff_of_false (by decide) hhealthy⟩

/-- A request whose client goes away: nothing is under way, and the dropped handler counts. -/
theorem http_health_of_run_dropped :
    ∃ p q, (machine ℚ exampleDeployment).run
        (initial exampleUpstreams.2 fun _ => exampleUpstreams.1) untilRequesting = some p ∧
      (machine ℚ exampleDeployment).run p [.task 0 .drop] = some q ∧
      countPc HandlerPc.isUnderWay q.tasks = 0 ∧ countPc HandlerPc.isDropped q.tasks = 1 ∧
      q.shared.metrics.healthCheck.status = .healthy := by
  obtain ⟨p, q, hp, hq, hlength, hway, hdropped, hcounted⟩ : ∃ p q,
      (machine ℚ exampleDeployment).run (initial exampleUpstreams.2 fun _ => exampleUpstreams.1)
        untilRequesting = some p ∧
      (machine ℚ exampleDeployment).run p [.task 0 .drop] = some q ∧ q.tasks.length = 1 ∧
      countPc HandlerPc.isUnderWay q.tasks = 0 ∧ countPc HandlerPc.isDropped q.tasks = 1 ∧
      countPc HandlerPc.isCounted q.tasks = 1 := ⟨_, _, rfl, rfl, rfl, rfl, rfl, rfl⟩
  refine ⟨p, q, hp, hq, hway, hdropped, ?_⟩
  exact (http_health_of_run hp hq (by omega)).2.2.mpr ⟨by omega, by omega⟩

end

end Http

/-! ## The TCP proxy -/

namespace Tcp.Connection

open Transition TaskPool

/-- The health of the TCP proxy is that of the connections that are under way now: with fewer than
5000 of them it is healthy, however many there were. -/
theorem tcp_health_of_run {F : Type} [ScoreArith F] {D : Deployment} {heap : Heap}
    {routers : ℕ → Router} {es : List (Sched Event)} {p : Pool ProxyState Handler}
    (hrun : (machine F D).run (initial heap routers) es = some p)
    (hbound : countPc HandlerPc.isActive p.tasks < 2 ^ 64) :
    p.shared.metrics.healthCheck.status =
      loadStatus 5000 10000 (countPc HandlerPc.isActive p.tasks) := by
  have hactive := (counters_of_run hrun).2.1
  rw [Nat.mod_eq_of_lt hbound] at hactive
  rw [← hactive]
  rfl

end Tcp.Connection

end HarbrRouter.Proxy
