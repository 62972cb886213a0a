import HarbrRouter.Lib.Isolation
import HarbrRouter.Proxy.HttpLockout
import HarbrRouter.Routing.Locality

/-!
# The HTTP instances do not interfere

`proxy/http.rs`: one `HttpProxy` serves all HTTP instances. They share its metrics and the clock,
and each has its own router over its own upstreams. So the requests of the others make no difference
to an instance: its handlers select, send, answer and record what they would without them, in the
same order.

**Theorem** (`instance_isolated`): of every interleaving, the part that an instance's handlers have
in it is a run on a proxy whose other instances have any other configuration and routers, with the
same handlers, router and upstreams in the end.

Two states look alike to the instance when they have the same clock, the same router of it and the
same upstreams of that router (`AgreesFor`). A step of one of its handlers does the same in both,
and leaves them alike (`Handler.step_agrees`); a step of another handler changes nothing of that
(`Handler.step_frame`), since handlers choose upstreams of their own instance only
(`Separate.step`). These are the premises of the isolation rule (`isolates`), which goes through the
run.
-/

set_option autoImplicit false

namespace HarbrRouter.Proxy.Http

open Transition TaskPool Routing

/-! ## What an instance sees -/

/-- The states look alike to the instance. -/
structure AgreesFor (inst : ℕ) (sh sh₀ : ProxyState) : Prop where
  now : sh₀.now = sh.now
  alike : Alike inst sh.heap sh₀.heap sh.routers sh₀.routers

namespace AgreesFor

variable {inst : ℕ} {sh sh₀ : ProxyState}

/-- The states look alike whatever is counted in their metrics. -/
theorem count (h : AgreesFor inst sh sh₀) (f g : HttpProxyMetrics → HttpProxyMetrics) :
    AgreesFor inst (sh.count f) (sh₀.count g) := ⟨h.now, h.alike⟩

/-- The states look alike after a change of the instance's router that does. -/
theorem update (h : AgreesFor inst sh sh₀) {routers routers₀ : ℕ → Router}
    (halike : Alike inst sh.heap sh₀.heap routers routers₀) :
    AgreesFor inst { sh with routers } { sh₀ with routers := routers₀ } := ⟨h.now, halike⟩

/-- The states look alike after the same change of the statistics of an upstream. -/
theorem modifyStats (h : AgreesFor inst sh sh₀) (u : UpstreamRef)
    (f : UpstreamStats → UpstreamStats) :
    AgreesFor inst (sh.modifyStats u f) (sh₀.modifyStats u f) := ⟨h.now, h.alike.modify u _⟩

end AgreesFor

section steps

variable {F : Type} [ScoreArith F] {D : Deployment} {inst : ℕ}

/-- **What a step of a handler leaves alone**: the clock, the routers of other instances, and the
upstreams that it has not chosen. -/
theorem Handler.step_frame {sh sh' : ProxyState} {t t' : Handler} {e : Event}
    (h : t.step F D sh e = some (sh', t')) :
    sh'.now = sh.now ∧ (∀ i, i ≠ t.inst → sh'.routers i = sh.routers i) ∧
      sh'.heap.cells.length = sh.heap.cells.length ∧
      ∀ r, t.pc.chosen ≠ some r → sh'.heap.get r = sh.heap.get r := by
  have hcount : ∀ f, (sh.count f).now = sh.now ∧
      (∀ i, i ≠ t.inst → (sh.count f).routers i = sh.routers i) ∧
      (sh.count f).heap.cells.length = sh.heap.cells.length ∧
      ∀ r, t.pc.chosen ≠ some r → (sh.count f).heap.get r = sh.heap.get r :=
    fun f => ⟨rfl, fun i _ => rfl, rfl, fun r _ => rfl⟩
  have hstep := t.step_inv h
  generalize t.pc = pc at hstep hcount
  cases hstep with
  | selected | noUpstream =>
      exact ⟨rfl, fun i hi => Function.update_of_ne hi _ _, rfl, fun r _ => rfl⟩
  | success | failure =>
      refine ⟨rfl, fun i _ => rfl, by simp [ProxyState.modifyStats, Heap.modify], fun r hr => ?_⟩
      rw [ProxyState.modifyStats, Heap.get_modify_of_ne fun heq => hr (congrArg some heq)]
  | start | incActive | countSent | countReceived | decActive | addDuration | countStatus =>
      exact hcount _
  | _ => exact ⟨rfl, fun i _ => rfl, rfl, fun r _ => rfl⟩

/-- **A handler's step in a state that looks alike to its instance**: the handler does the same, and
the states look alike again. -/
theorem Handler.step_agrees {config' : ℕ → ProxyInstanceConfig} {sh sh' sh₀ : ProxyState}
    {t t' : Handler} {e : Event} (hconfig : config' t.inst = D.config t.inst)
    (hchosen : ∀ u, t.pc.chosen = some u → u ∈ (sh.routers t.inst).upstreams)
    (h : t.step F D sh e = some (sh', t')) (hagree : AgreesFor t.inst sh sh₀) :
    ∃ sh₀', t.step F { D with config := config' } sh₀ e = some (sh₀', t') ∧
      AgreesFor t.inst sh' sh₀' := by
  have hstep := t.step_inv h
  have hselect := hagree.alike.selectUpstream F D.hashKey D.search
  generalize hpc : t.pc = pc at hstep hchosen
  cases hstep with
  | start =>
      refine ⟨sh₀.countRequest, ?_, hagree.count _ _⟩
      simp only [Handler.step, hpc, hagree.now]
  | incActive =>
      refine ⟨sh₀.incActive, ?_, hagree.count _ _⟩
      simp only [Handler.step, hpc]
  | @selected router upstream hselected =>
      refine ⟨_, ?_, hagree.update (hagree.alike.select hselected)⟩
      simp only [Handler.step, hpc, hselect, hselected]
  | @noUpstream router hselected =>
      refine ⟨_, ?_, hagree.update (hagree.alike.select hselected)⟩
      simp only [Handler.step, hpc, hselect, hselected]
  | @noUri upstream error huri =>
      refine ⟨sh₀, ?_, hagree⟩
      simp only [Handler.step, hpc, hagree.alike.upstreams upstream (hchosen upstream rfl), huri]
  | @notTransformed upstream uri error huri htransform =>
      refine ⟨sh₀, ?_, hagree⟩
      simp only [Handler.step, hpc, hagree.alike.upstreams upstream (hchosen upstream rfl), huri,
        hconfig, htransform]
  | @prepared upstream uri req huri htransform =>
      refine ⟨sh₀, ?_, hagree⟩
      simp only [Handler.step, hpc, hagree.alike.upstreams upstream (hchosen upstream rfl), huri,
        hconfig, htransform]
  | @countSent upstream req =>
      refine ⟨sh₀.countSent (estimateBodySize req.body), ?_, hagree.count _ _⟩
      simp only [Handler.step, hpc, hagree.now]
  | responded | drop =>
      refine ⟨sh₀, ?_, hagree⟩
      simp only [Handler.step, hpc]
  | @requestFailed upstream since req e error herror =>
      refine ⟨sh₀, ?_, hagree⟩
      simp only [Handler.step, hpc, hagree.alike.upstreams upstream (hchosen upstream rfl), herror]
  | @timedOut upstream since req error herror =>
      refine ⟨sh₀, ?_, hagree⟩
      simp only [Handler.step, hpc, hagree.alike.upstreams upstream (hchosen upstream rfl), herror]
  | @success upstream since response =>
      refine ⟨_, ?_, hagree.modifyStats upstream fun s => s.recordSuccess (sh.now - since) sh.now⟩
      simp only [Handler.step, hpc, hagree.now]
  | @failure upstream since error =>
      refine ⟨_, ?_, hagree.modifyStats upstream fun s => s.recordFailure sh.now⟩
      simp only [Handler.step, hpc, hagree.now]
  | @countReceived response =>
      refine ⟨sh₀.countReceived (estimateBodySize response.body), ?_, hagree.count _ _⟩
      simp only [Handler.step, hpc]
  | decActive =>
      refine ⟨sh₀.decActive, ?_, ?_⟩
      · simp only [Handler.step, hpc]
      · rw [ProxyState.decActive, ProxyState.decActive]
        exact hagree.count _ _
  | addDuration =>
      refine ⟨sh₀.addDuration (sh.now - t.startTime), ?_, hagree.count _ _⟩
      simp only [Handler.step, hpc, hagree.now]
  | @countStatus result =>
      refine ⟨sh₀.countStatus (responseOf result).status, ?_, hagree.count _ _⟩
      simp only [Handler.step, hpc]

/-! ## Runs -/

/-- No other instance has an upstream of the instance, and every handler has chosen one of its own
instance's. -/
structure Separate (inst : ℕ) (p : Pool ProxyState Handler) : Prop where
  own : ∀ i, i ≠ inst → ∀ r ∈ (p.shared.routers i).upstreams,
    r ∉ (p.shared.routers inst).upstreams
  chosen : ∀ t ∈ p.tasks, ∀ u, t.pc.chosen = some u → u ∈ (p.shared.routers t.inst).upstreams

/-- What a handler has chosen after a step is an upstream of its instance. -/
theorem Handler.chosen_of_step {sh sh' : ProxyState} {t t' : Handler} {e : Event}
    (h : t.step F D sh e = some (sh', t'))
    (hchosen : ∀ u, t.pc.chosen = some u → u ∈ (sh.routers t.inst).upstreams) (u : UpstreamRef)
    (hu : t'.pc.chosen = some u) : u ∈ (sh.routers t.inst).upstreams := by
  obtain ⟨-, -, ⟨-, -, v, hv, hselect⟩ | ⟨-, hkeep | hnone, -⟩ | ⟨v, f, -, hnone, -⟩⟩ :=
    t.step_upstream h
  · obtain rfl : v = u := by simpa [hv, HandlerPc.chosen] using hu
    exact Router.mem_of_selectUpstream hselect
  · exact hchosen u (hkeep ▸ hu)
  · exact absurd (hnone ▸ hu) (by simp)
  · exact absurd (hnone ▸ hu) (by simp)

/-- The instances stay separate. -/
theorem Separate.step {p p' : Pool ProxyState Handler} {a : Sched Event} (h : Separate inst p)
    (hstep : (machine F D).step p a = some p') : Separate inst p' := by
  rcases machine_step hstep with ⟨i, e, t, sh, t', rfl, ht, hmove, rfl⟩ | ⟨ns, rfl, rfl⟩ |
    ⟨inst', req, rfl, rfl⟩
  · have hmem := List.mem_of_getElem? ht
    obtain ⟨hinst, hrouters, -⟩ := t.step_upstream hmove
    refine ⟨fun j hj r hr => ?_, fun u hu v hv => ?_⟩
    · rw [(hrouters inst).1]
      exact h.own j hj r ((hrouters j).1 ▸ hr)
    · rw [(hrouters u.inst).1]
      rcases List.mem_or_eq_of_mem_set hu with hu | rfl
      · exact h.chosen u hu v hv
      · rw [hinst]
        exact t.chosen_of_step hmove (h.chosen t hmem) v hv
  · exact ⟨h.own, h.chosen⟩
  · refine ⟨h.own, fun t ht u hu => ?_⟩
    rcases List.mem_append.mp ht with ht | ht
    · exact h.chosen t ht u hu
    · obtain rfl := List.mem_singleton.mp ht
      exact absurd hu (by simp [HandlerPc.chosen])

/-- Is it the clock, or a request to the instance? -/
def Event.concerns (inst : ℕ) : Event → Bool
  | .request i _ => i = inst
  | _ => true

/-- **The handlers of the other instances do not matter to an instance**, on a proxy whose other
instances are configured in any way. -/
theorem isolates (F : Type) [ScoreArith F] (D : Deployment) (inst : ℕ)
    {config' : ℕ → ProxyInstanceConfig} (hconfig : config' inst = D.config inst) :
    Isolates (system F D) (system F { D with config := config' }) (fun t => t.inst = inst)
      (Event.concerns inst) id (AgreesFor inst) (Separate inst) where
  preserved := fun h hstep => h.step hstep
  owner := by
    intro p t t' e sh new ht hact
    obtain ⟨⟨sh₁, t₁⟩, hmove, heq⟩ := Option.map_eq_some_iff.mp hact
    obtain ⟨rfl, rfl, rfl⟩ : _ ∧ _ ∧ _ := by simpa using heq
    rw [(t.step_upstream hmove).1]
    exact ⟨rfl, by simp⟩
  unseen := by
    intro p q t t' e sh new hp ht hother hact hagree
    obtain ⟨⟨sh₁, t₁⟩, hmove, heq⟩ := Option.map_eq_some_iff.mp hact
    obtain ⟨rfl, rfl, rfl⟩ : _ ∧ _ ∧ _ := by simpa using heq
    have hinst : t.inst ≠ inst := by simpa using hother
    obtain ⟨hnow, hrouters, hlength, hget⟩ := t.step_frame hmove
    refine ⟨hagree.now.trans hnow.symm, hagree.alike.unseen (hrouters inst hinst.symm) hlength
      fun r hr => hget r fun hchosen => ?_⟩
    exact hp.own t.inst hinst r (hp.chosen t ht r hchosen) hr
  followed := by
    intro p q t t' u e sh new hp ht hmine hact hagree hview
    obtain rfl : u = t := hview
    obtain ⟨⟨sh₁, t₁⟩, hmove, heq⟩ := Option.map_eq_some_iff.mp hact
    obtain ⟨rfl, rfl, rfl⟩ : _ ∧ _ ∧ _ := by simpa using heq
    obtain rfl : u.inst = inst := by simpa using hmine
    obtain ⟨sh₀, hstep, hagree'⟩ := u.step_agrees hconfig (hp.chosen u ht) hmove hagree
    exact ⟨sh₀, t₁, [], by simp [system, hstep], hagree', rfl, rfl⟩
  envUnseen := by
    intro p q e sh new hother henv hagree
    rcases env_cases henv with ⟨ns, rfl, -, -⟩ | ⟨inst', req, rfl, rfl, rfl⟩
    · exact absurd hother (by simp [Event.concerns])
    · exact ⟨hagree, by simpa [Event.concerns] using hother⟩
  envFollowed := by
    intro p q e sh new hmine henv hagree
    rcases env_cases henv with ⟨ns, rfl, rfl, rfl⟩ | ⟨inst', req, rfl, rfl, rfl⟩
    · refine ⟨{ q.shared with now := q.shared.now + ns }, [], rfl, ?_, rfl, by simp⟩
      exact ⟨congrArg (· + ns) hagree.now, hagree.alike⟩
    · exact ⟨q.shared, _, rfl, hagree, rfl, by simpa [Event.concerns] using hmine⟩

/-- **Instances do not interfere.** Take any interleaving of the handlers of all instances, and of
it what the handlers of one instance do, whose upstreams no other instance has. On a proxy whose
other instances have any other configuration and routers, this is an interleaving too, and in the
end the instance's handlers, its router and its upstreams are exactly as in the whole: which
upstreams were selected, what was sent, answered and counted for them does not depend on the
requests to the others. -/
theorem instance_isolated (config' : ℕ → ProxyInstanceConfig)
    (hconfig : config' inst = D.config inst) {heap : Heap} {routers : ℕ → Router}
    (routers' : ℕ → Router) (hrouter : routers' inst = routers inst)
    (hown : ∀ i, i ≠ inst → ∀ r ∈ (routers i).upstreams, r ∉ (routers inst).upstreams)
    {es : List (Sched Event)} {p : Pool ProxyState Handler}
    (hrun : (machine F D).run (initial heap routers) es = some p) :
    ∃ q, (machine F { D with config := config' }).run (initial heap routers')
        ((system F D).purge (fun t => t.inst = inst) (Event.concerns inst) (initial heap routers)
          es) = some q ∧
      q.tasks = p.tasks.filter (fun t => t.inst = inst) ∧
      q.shared.routers inst = p.shared.routers inst ∧
      ∀ r ∈ (routers inst).upstreams, q.shared.heap.get r = p.shared.heap.get r := by
  have hsep : Separate inst (initial heap routers) :=
    ⟨hown, fun t ht => absurd ht List.not_mem_nil⟩
  have hproj : Projects (fun t : Handler => decide (t.inst = inst)) id (AgreesFor inst)
      (initial heap routers) (initial heap routers') :=
    ⟨⟨rfl, hrouter, rfl, fun r _ => rfl⟩, rfl⟩
  obtain ⟨q, hq, hshared, htasks⟩ := (isolates F D inst hconfig).run_purge hsep hproj hrun
  refine ⟨q, hq, by simpa using htasks, hshared.alike.router, fun r hr => ?_⟩
  rw [← (routers_of_run hrun inst).1] at hr
  exact hshared.alike.upstreams r hr

end steps

/-- The upstream of another instance. -/
def otherUpstreams : Router × Heap :=
  (Router.new .roundRobin).updateUpstreams exampleDeployment.hashKey exampleUpstreams.2
    [⟨"b", "10.0.0.2:80", 1, 0, 1000⟩] 0

/-- Two instances, each with an upstream. -/
def twoInstances (inst : ℕ) : Router :=
  if inst = 0 then exampleUpstreams.1
  else if inst = 1 then otherUpstreams.1
  else .new .roundRobin

/-- A request to each instance, step by step beside each other; the other instance's fails. -/
def crossedRequests : List (Sched Event) :=
  .env (.request 1 exampleRequest) :: .env (.request 0 exampleRequest) ::
    (List.replicate 5 [.task 0 .step, .task 1 .step]).flatten ++
    [.task 0 (.requestFailed "refused"), .task 1 (.responded ⟨200, ⟨[]⟩, []⟩)]

/-- The instance's own request, on a proxy with its router only. -/
theorem instance_isolated_crossed :
    ∃ p q, (machine ℚ exampleDeployment).run (initial otherUpstreams.2 twoInstances)
        crossedRequests = some p ∧ p.tasks.length = 2 ∧
      (machine ℚ exampleDeployment).run (initial otherUpstreams.2 fun _ => exampleUpstreams.1)
        (untilRequesting ++ [.task 0 (.responded ⟨200, ⟨[]⟩, []⟩)]) = some q ∧
      q.tasks = p.tasks.filter (fun t => t.inst = 0) ∧
      ∀ r ∈ (twoInstances 0).upstreams, q.shared.heap.get r = p.shared.heap.get r := by
  obtain ⟨p, hp, hlength⟩ : ∃ p, (machine ℚ exampleDeployment).run
      (initial otherUpstreams.2 twoInstances) crossedRequests = some p ∧ p.tasks.length = 2 :=
    ⟨_, rfl, rfl⟩
  have hown : ∀ i, i ≠ 0 → ∀ r ∈ (twoInstances i).upstreams, r ∉ (twoInstances 0).upstreams := by
    intro i hi r hr
    by_cases hone : i = 1
    · subst hone
      revert r
      decide
    · simp [twoInstances, hi, hone, Router.new] at hr
  obtain ⟨q, hq, htasks, -, hget⟩ :=
    instance_isolated exampleDeployment.config rfl (fun _ => exampleUpstreams.1) rfl hown hp
  exact ⟨p, q, hp, hlength, hq, htasks, hget⟩

end HarbrRouter.Proxy.Http
