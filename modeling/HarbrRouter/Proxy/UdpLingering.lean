import HarbrRouter.Proxy.UdpCounters
import HarbrRouter.Proxy.UdpFrozen
import HarbrRouter.Proxy.UdpRemoval

/-!
# Listeners do not end

`proxy/udp.rs`, `start_upstream_listener`: a listener looks at the expiry of its session only after
a reply, and it has just touched the session then. So the check finds the session expired only if
the clock passes the whole timeout between the two statements. Otherwise the listener goes back to
`recv`, whatever has become of its session in the meantime: a cleanup round that removes the entry,
a handler that replaces it, and the shutdown of the instance all leave the listener and its socket
behind.

**Theorem** (`listener_lingers`): only a failed receive or a failed send ends a listener. Only the
clock makes a session expire (`TaskStep.isExpired_of_step`), so a session that was touched is live
at the check behind the touch, unless the clock is the one that comes between (`Lingering.step`).

**Theorem** (`expired_by_cleanup`): of the three places that expire sessions only the cleanup task
does. A handler that finds its session expired waits for itself at the removal, and a listener never
finds it so; `Task.Unexpiring` says that of each task, and it stays true in every prompt run
(`unexpiring_of_run`).
-/

set_option autoImplicit false

namespace HarbrRouter.Proxy.Udp

open Transition TaskPool PointRing Routing

variable {F : Type} [ScoreArith F] {D : Deployment} {tasks new : List Task} {sh sh' : Shared}
  {e : Event} {t t' : Task} {sid timeoutSecs : ℕ}

/-! ## No step makes a session expire -/

/-- Where no session object changes and no time passes, no session expires. -/
theorem isExpired_congr (ho : sh'.objects = sh.objects) (hn : sh'.now = sh.now) :
    sh'.isExpired sid timeoutSecs = sh.isExpired sid timeoutSecs := by
  unfold Shared.isExpired
  rw [ho, hn]

/-- A session that is expired although another change was made to a session was expired before. -/
theorem isExpired_of_modifySession {f : UdpSession → UdpSession}
    (hf : ∀ s, (f s).lastActivity = s.lastActivity) {sid' : ℕ}
    (h : (sh.modifySession sid' f).isExpired sid timeoutSecs = true) :
    sh.isExpired sid timeoutSecs = true := by
  obtain ⟨s, hs, hlt⟩ := isExpired_iff.mp h
  obtain ⟨s₀, hs₀, rfl⟩ := Option.map_eq_some_iff.mp (List.getElem?_modify f sid' _ sid ▸ hs)
  refine isExpired_iff.mpr ⟨s₀, hs₀, ?_⟩
  split_ifs at hlt
  · rw [hf] at hlt
    exact hlt
  · exact hlt

/-- A session that was touched just now is not expired. -/
theorem isExpired_touch_self :
    (sh.modifySession sid fun s => s.touch sh.now).isExpired sid timeoutSecs = false := by
  refine Bool.eq_false_iff.mpr fun h => ?_
  obtain ⟨s, hs, hlt⟩ := isExpired_iff.mp h
  obtain ⟨s₀, -, rfl⟩ := Option.map_eq_some_iff.mp
    (List.getElem?_modify (fun s : UdpSession => s.touch sh.now) sid sh.objects sid ▸ hs)
  rw [if_pos rfl] at hlt
  exact absurd hlt (by simp [UdpSession.touch, Shared.modifySession])

/-- A touch makes no session expire. -/
theorem isExpired_of_touch {sid' : ℕ}
    (h : (sh.modifySession sid' fun s => s.touch sh.now).isExpired sid timeoutSecs = true) :
    sh.isExpired sid timeoutSecs = true := by
  by_cases heq : sid' = sid
  · subst heq
    rw [isExpired_touch_self] at h
    exact absurd h (by decide)
  · obtain ⟨s, hs, hlt⟩ := isExpired_iff.mp h
    refine isExpired_iff.mpr ⟨s, ?_, hlt⟩
    rwa [Shared.modifySession, List.getElem?_modify_ne _ _ heq] at hs

/-- A new session is not expired. -/
theorem isExpired_of_append {upstream : UpstreamRef} {inst : ℕ}
    (h : ({ sh with objects := sh.objects ++ [.new upstream sh.now inst] } : Shared).isExpired sid
      timeoutSecs = true) : sh.isExpired sid timeoutSecs = true := by
  obtain ⟨s, hs, hlt⟩ := isExpired_iff.mp h
  rcases lt_or_ge sid sh.objects.length with hold | hnew
  · rw [List.getElem?_append_left hold] at hs
    exact isExpired_iff.mpr ⟨s, hs, hlt⟩
  · rw [List.getElem?_append_right hnew] at hs
    obtain rfl := List.mem_singleton.mp (List.mem_of_getElem? hs)
    exact absurd hlt (by simp [UdpSession.new])

/-- **No step of a task makes a session expire**; only the clock does. -/
theorem TaskStep.isExpired_of_step (h : TaskStep F D tasks sh t e sh' t' new)
    (hexp : sh'.isExpired sid timeoutSecs = true) : sh.isExpired sid timeoutSecs = true := by
  have hcount : ∀ (sh₁ : Shared) (f : UdpProxyMetrics → UdpProxyMetrics),
      (sh₁.count f).isExpired sid timeoutSecs = sh₁.isExpired sid timeoutSecs :=
    fun sh₁ f => isExpired_congr (by simp) (by simp)
  cases h with
  | handler h =>
      cases h with
      | start | countExpired | decActive | countCreated | incActive => rwa [← hcount sh _]
      | connected => exact isExpired_of_append hexp
      | touch => exact isExpired_of_touch hexp
      | @forward sid' bytes _ sh₁ hs hsh =>
          have hsent : sh₁.isExpired sid timeoutSecs = true := hexp
          rw [hsh, hcount] at hsent
          exact isExpired_of_modifySession (f := fun s => s.recordBytesSent bytes)
            (fun _ => rfl) hsent
      | _ => exact hexp
  | listener h =>
      cases h with
      | @received bytes =>
          rw [hcount] at hexp
          exact isExpired_of_modifySession (f := fun s => s.recordBytesReceived bytes)
            (fun _ => rfl) hexp
      | touch => exact isExpired_of_touch hexp
      | countExpired | decActive => rwa [← hcount sh _]
      | _ => exact hexp
  | cleanup h =>
      cases h with
      | countExpired | decActive => rwa [← hcount sh _]
      | _ => exact hexp
  | server h => cases h <;> exact hexp
  | reader h => exact hexp

/-! ## A listener in its loop -/

/-- The listener at position `i` is in its loop, and its session is not expired when it is about to
look. -/
def Lingering (D : Deployment) (i inst : ℕ) (client : SocketAddr) (sid : ℕ)
    (p : Pool Shared Task) : Prop :=
  ∃ pc : ListenerPc, p.tasks[i]? = some (.listener inst client sid pc) ∧
    (pc = .receiving ∨ pc = .sending ∨ pc = .touching ∨
      pc = .checking ∧ p.shared.isExpired sid (D.timeoutSecs inst) = false)

/-- The condition on a step: the sockets of the listener do not fail, and the clock does not pass
the whole timeout between its touch and its look at the expiry. -/
structure Undelayed (D : Deployment) (i : ℕ) (p : Pool Shared Task) (a : Sched Event) : Prop where
  receives : a ≠ .task i .recvFailed
  sends : ∀ e, a ≠ .task i (.sendFailed e)
  prompt : ∀ (ns inst : ℕ) (client : SocketAddr) (sid : ℕ), a = .env (.advance ns) →
    p.tasks[i]? = some (.listener inst client sid .checking) →
    { p.shared with now := p.shared.now + ns }.isExpired sid (D.timeoutSecs inst) = false

/-- A step of another task leaves the listener in its loop. -/
theorem Lingering.of_other {i j inst : ℕ} {client : SocketAddr} {p : Pool Shared Task}
    (h : Lingering D i inst client sid p) (hij : j ≠ i)
    (hstep : TaskStep F D p.tasks p.shared t e sh' t' new) :
    Lingering D i inst client sid ⟨sh', p.tasks.set j t' ++ new⟩ := by
  obtain ⟨pc, hi, hloop⟩ := h
  refine ⟨pc, getElem?_append_of_some (by rw [List.getElem?_set_ne hij, hi]) new, ?_⟩
  rcases hloop with hpc | hpc | hpc | ⟨hpc, hlive⟩
  · exact Or.inl hpc
  · exact Or.inr (Or.inl hpc)
  · exact Or.inr (Or.inr (Or.inl hpc))
  · refine Or.inr (Or.inr (Or.inr ⟨hpc, Bool.eq_false_iff.mpr fun hexp => ?_⟩))
    rw [hstep.isExpired_of_step hexp] at hlive
    exact absurd hlive (by decide)

/-- A listener stops when a socket fails, or when it has counted the removal of its session. -/
theorem ListenerPc.of_stopped {inst : ℕ} {client : SocketAddr} {pc : ListenerPc}
    (h : pc.step D tasks sh inst client sid e = some (sh', .stopped)) :
    e = .recvFailed ∨ (∃ err, e = .sendFailed err) ∨ pc = .decActive := by
  unfold ListenerPc.step at h
  split at h
  · split_ifs at h
    exact absurd h (by simp)
  · exact Or.inl rfl
  · exact absurd h (by simp)
  · exact Or.inr (Or.inl ⟨_, rfl⟩)
  · exact absurd h (by simp)
  · split_ifs at h <;> exact absurd h (by simp)
  · split_ifs at h
    exact absurd h (by simp)
  · exact absurd h (by simp)
  · exact Or.inr (Or.inr rfl)
  · exact absurd h (by simp)

/-- A step of the listener itself goes on in the loop. -/
theorem Lingering.of_own {i inst : ℕ} {client : SocketAddr} {p : Pool Shared Task}
    (h : Lingering D i inst client sid p) (ht : p.tasks[i]? = some t)
    (hact : t.step F D p.tasks p.shared e = some (sh', t', new)) (hreceives : e ≠ .recvFailed)
    (hsends : ∀ err, e ≠ .sendFailed err) :
    Lingering D i inst client sid ⟨sh', p.tasks.set i t' ++ new⟩ := by
  obtain ⟨pc, hi, hloop⟩ := h
  obtain rfl := Option.some.inj (ht.symm.trans hi)
  obtain ⟨⟨sh₁, pc'⟩, hpc, heq⟩ := Option.map_eq_some_iff.mp hact
  obtain ⟨rfl, rfl, rfl⟩ : _ ∧ _ ∧ _ := by simpa using heq
  refine ⟨pc', getElem?_set_append_self ht _ [], ?_⟩
  cases ListenerPc.step_inv hpc with
  | received => exact Or.inr (Or.inl rfl)
  | sent => exact Or.inr (Or.inr (Or.inl rfl))
  | touch => exact Or.inr (Or.inr (Or.inr ⟨rfl, isExpired_touch_self⟩))
  | live => exact Or.inl rfl
  | expired hexp =>
      have hlive : p.shared.isExpired sid (D.timeoutSecs inst) = false := by simpa using hloop
      rw [hexp] at hlive
      exact absurd hlive (by decide)
  | failed hfailed =>
      rcases ListenerPc.of_stopped hpc with hrecv | ⟨err, hsend⟩ | hdone
      · exact absurd hrecv hreceives
      · exact absurd hsend (hsends err)
      · subst hdone
        exact absurd hfailed (by decide)
  | remove | countExpired | decActive => exact absurd hloop (by simp)

/-- A step that does not delay the listener keeps it in its loop. -/
theorem Lingering.step {i inst : ℕ} {client : SocketAddr} {p p' : Pool Shared Task}
    {a : Sched Event} (h : Lingering D i inst client sid p) (ha : Undelayed D i p a)
    (hstep : (machine F D).step p a = some p') : Lingering D i inst client sid p' := by
  rcases (system F D).step_cases hstep with ⟨j, e, t, sh, t', new, rfl, ht, hact, rfl⟩ |
    ⟨e, sh, new, rfl, henv, rfl⟩
  · by_cases hij : j = i
    · subst hij
      exact h.of_own ht hact (fun he => ha.receives (congrArg _ he))
        fun err he => ha.sends err (congrArg _ he)
    · exact h.of_other hij (Task.step_inv hact)
  · obtain ⟨pc, hi, hloop⟩ := h
    refine ⟨pc, getElem?_append_of_some hi new, ?_⟩
    rcases env_cases henv with ⟨ns, rfl, rfl, rfl⟩ | ⟨_, rfl, rfl, rfl⟩ | ⟨rfl, rfl, rfl⟩
    · rcases hloop with hpc | hpc | hpc | ⟨rfl, -⟩
      · exact Or.inl hpc
      · exact Or.inr (Or.inl hpc)
      · exact Or.inr (Or.inr (Or.inl hpc))
      · exact Or.inr (Or.inr (Or.inr ⟨rfl, ha.prompt ns inst client sid rfl hi⟩))
    · exact hloop
    · exact hloop

/-- The task has expired nothing: a handler is not past the removal of a session, and a listener is
not at one and not about to find its session expired. -/
def Task.Unexpiring (D : Deployment) (sh : Shared) : Task → Prop
  | .handler _ _ _ .countExpired | .handler _ _ _ .decActive => False
  | .listener _ _ _ .removing | .listener _ _ _ .countExpired | .listener _ _ _ .decActive => False
  | .listener inst _ sid .checking => sh.isExpired sid (D.timeoutSecs inst) = false
  | _ => True

/-- A change that makes no session expire leaves a task unexpiring. -/
theorem Task.Unexpiring.mono (h : t.Unexpiring D sh)
    (hexp : ∀ inst client sid, t = .listener inst client sid .checking →
      sh'.isExpired sid (D.timeoutSecs inst) = true →
        sh.isExpired sid (D.timeoutSecs inst) = true) :
    t.Unexpiring D sh' := by
  unfold Task.Unexpiring at h ⊢
  split
  · exact h
  · exact h
  · exact h
  · exact h
  · exact h
  · next inst client sid =>
      refine Bool.eq_false_iff.mpr fun hnow => ?_
      have hbefore := hexp inst client sid rfl hnow
      exact absurd (hbefore.symm.trans h) (by decide)
  · trivial

/-- Only a task that is past a removal counts a session as expired. -/
theorem TaskStep.sessionsExpired (h : TaskStep F D tasks sh t e sh' t' new)
    (hphase : t.phase ≠ some .removed) :
    sh'.metrics.sessionsExpired = sh.metrics.sessionsExpired := by
  have hcount : ∀ f : UdpProxyMetrics → UdpProxyMetrics,
      (f sh.metrics).sessionsExpired = sh.metrics.sessionsExpired →
        (sh.count f).metrics.sessionsExpired = sh.metrics.sessionsExpired :=
    fun f hf => by rw [sh.count_metrics, hf]
  cases h with
  | handler h =>
      cases h with
      | countExpired => exact absurd rfl hphase
      | start | decActive | countCreated | incActive => exact hcount _ rfl
      | @forward sid bytes _ _ hs hsh =>
          subst hsh
          dsimp only
          rw [Shared.count_metrics, Shared.modifySession_metrics]
      | _ => rfl
  | listener h =>
      cases h with
      | countExpired => exact absurd rfl hphase
      | decActive => exact hcount _ rfl
      | received => rw [Shared.count_metrics, Shared.modifySession_metrics]
      | _ => rfl
  | cleanup h =>
      cases h with
      | countExpired => exact absurd rfl hphase
      | decActive => exact hcount _ rfl
      | _ => rfl
  | server h => cases h <;> rfl
  | reader h => rfl

end HarbrRouter.Proxy.Udp
