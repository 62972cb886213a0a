import HarbrRouter.Proxy.HttpLockout
import HarbrRouter.Proxy.HttpDurations

/-!
# What passes between a handler and its upstream

`proxy/http.rs`: a handler sends its request to one upstream of its instance, once, and what it
answers is what this upstream answered to this request, or the error response.

**Theorem** (`answer_of_exchange`): a handler that has ended has sent nothing, or the request that
the two pure functions of the code make (`Sends`), and has answered what it got for it. `Exchanged`
says which messages belong to a handler at each of its program points; a step adds the one that it
sends or receives (`Exchanged.step`), so that they are the messages of the run (`exchanged_of_run`),
and at the last program point they are the claim.

**Theorem** (`errorRate_of_run`): the table of statuses counts the answers by their status, and the
error rate is the share of those from 400 on. A handler counts its status in the step that ends it
(`Handler.statuses`), so for every property of statuses the counts with it add up to the handlers
that ended with it (`statusCodes_of_run`).
-/

set_option autoImplicit false

namespace HarbrRouter.Proxy.Http

open Transition TaskPool Routing Tally

/-! ## What is sent and received -/

/-- A message between a handler and an upstream. -/
inductive Traffic where
  | sent (upstream : UpstreamRef) (req : Request)
  | received (response : Response)

/-- What a handler's step sends or receives: `ctx.client.request(req)` and its response. -/
def HandlerPc.traffic : HandlerPc → Event → List Traffic
  | .countSent u req, .step => [.sent u req]
  | .requesting _ _ _, .responded response => [.received response]
  | _, _ => []

/-- What the handler at a position sends or receives in a step. -/
def trafficOf (i : ℕ) (p : Pool ProxyState Handler) :
    Sched Event → Pool ProxyState Handler → List Traffic
  | .task j e, _ =>
      if j = i then
        match p.tasks[i]? with
        | some t => t.pc.traffic e
        | none => []
      else []
  | .env _, _ => []

section exchange

variable (D : Deployment) (heap : Heap) (routers : ℕ → Router)

/-- The request `out` is what an instance sends to its upstream `u` for the request `req`. -/
def Sends (inst : ℕ) (req : Request) (u : UpstreamRef) (out : Request) : Prop :=
  u ∈ (routers inst).upstreams ∧
    ∃ uri, buildUpstreamUri D.crate (heap.get u).config req.uri = .ok uri ∧
      transformRequest D.crate { req with uri } (D.config inst).config.http = .ok out

/-- A result of a request and the messages that it comes from: the answer to what was sent, or an
error, with something sent or without. -/
def Outcome (inst : ℕ) (req : Request) (messages : List Traffic) : Result Response → Prop
  | .ok answer => ∃ u out response, messages = [.sent u out, .received response] ∧
      Sends D heap routers inst req u out ∧ answer = transformResponse response
  | .error _ => messages = [] ∨
      ∃ u out, messages = [.sent u out] ∧ Sends D heap routers inst req u out

/-- What a handler has sent and received at its program point. -/
def Exchanged (t : Handler) (messages : List Traffic) : Prop :=
  match t.pc with
  | .start | .incActive | .selecting => messages = []
  | .preparing u => messages = [] ∧ u ∈ (routers t.inst).upstreams
  | .countSent u out => messages = [] ∧ Sends D heap routers t.inst t.req u out
  | .requesting u _ out => messages = [.sent u out] ∧ Sends D heap routers t.inst t.req u out
  | .recording u _ (.ok response) => ∃ out, messages = [.sent u out, .received response] ∧
      Sends D heap routers t.inst t.req u out
  | .recording u _ (.error _) => ∃ out, messages = [.sent u out] ∧
      Sends D heap routers t.inst t.req u out
  | .countReceived response => ∃ u out, messages = [.sent u out, .received response] ∧
      Sends D heap routers t.inst t.req u out
  | .decActive result | .addDuration result | .countStatus result =>
      Outcome D heap routers t.inst t.req messages result
  | .finished answer => ∃ result, Outcome D heap routers t.inst t.req messages result ∧
      answer = responseOf result
  | .dropped => ∃ u out, messages = [.sent u out] ∧ Sends D heap routers t.inst t.req u out

end exchange

/-! ## The exchange of a run -/

section runs

variable {F : Type} [ScoreArith F] {D : Deployment} {heap : Heap} {routers : ℕ → Router}

/-- Nothing changes the configuration of an upstream. -/
theorem Handler.config_of_step {sh sh' : ProxyState} {t t' : Handler} {e : Event}
    (h : t.step F D sh e = some (sh', t')) (u : UpstreamRef) :
    (sh'.heap.get u).config = (sh.heap.get u).config := by
  obtain ⟨-, -, ⟨-, hsame, -⟩ | ⟨hsame, -, -⟩ | ⟨v, f, -, -, hmod⟩⟩ := t.step_upstream h
  · rw [hsame]
  · rw [hsame]
  · have hkeep : ∀ info : UpstreamInfo,
        ({ info with stats := f info.stats } : UpstreamInfo).config = info.config := fun _ => rfl
    rw [hmod, Heap.get_modify_proj UpstreamInfo.config hkeep]

/-- A step of a handler keeps its exchange. -/
theorem Exchanged.step {sh sh' : ProxyState} {t t' : Handler} {e : Event}
    {messages : List Traffic} (h : Exchanged D heap routers t messages)
    (hconfig : ∀ u, (sh.heap.get u).config = (heap.get u).config)
    (hrouters : ∀ i, (sh.routers i).upstreams = (routers i).upstreams)
    (hmove : t.step F D sh e = some (sh', t')) :
    Exchanged D heap routers t' (messages ++ t.pc.traffic e) := by
  have hstep := t.step_inv hmove
  generalize hpc : t.pc = pc at hstep
  simp only [Exchanged, hpc] at h
  cases hstep with
  | start | incActive => simpa [Exchanged, HandlerPc.traffic] using h
  | selected hselect =>
      subst h
      refine ⟨rfl, ?_⟩
      rw [← hrouters]
      exact Router.mem_of_selectUpstream (by rw [hselect])
  | noUpstream hselect =>
      subst h
      exact Or.inl rfl
  | noUri huri =>
      obtain ⟨rfl, -⟩ := h
      exact Or.inl rfl
  | notTransformed huri hreq =>
      obtain ⟨rfl, -⟩ := h
      exact Or.inl rfl
  | prepared huri hreq =>
      obtain ⟨rfl, hmem⟩ := h
      rw [hconfig] at huri
      exact ⟨rfl, hmem, _, huri, hreq⟩
  | countSent =>
      obtain ⟨rfl, hsends⟩ := h
      exact ⟨rfl, hsends⟩
  | responded =>
      obtain ⟨rfl, hsends⟩ := h
      exact ⟨_, rfl, hsends⟩
  | requestFailed herror =>
      obtain ⟨rfl, hsends⟩ := h
      exact ⟨_, rfl, hsends⟩
  | timedOut herror =>
      obtain ⟨rfl, hsends⟩ := h
      exact ⟨_, rfl, hsends⟩
  | drop =>
      obtain ⟨rfl, hsends⟩ := h
      exact ⟨_, _, rfl, hsends⟩
  | success =>
      obtain ⟨out, rfl, hsends⟩ := h
      exact ⟨_, out, rfl, hsends⟩
  | failure =>
      obtain ⟨out, rfl, hsends⟩ := h
      exact Or.inr ⟨_, out, rfl, hsends⟩
  | countReceived =>
      obtain ⟨u, out, rfl, hsends⟩ := h
      exact ⟨u, out, _, rfl, hsends, rfl⟩
  | decActive => simpa [Exchanged, HandlerPc.traffic, Outcome] using h
  | addDuration => simpa [Exchanged, HandlerPc.traffic, Outcome] using h
  | countStatus => exact ⟨_, by simpa [HandlerPc.traffic] using h, rfl⟩

variable {es : List (Sched Event)} {p : Pool ProxyState Handler}

/-- The messages of a run with one more step, at a position. -/
theorem trafficOf_step {i j : ℕ} {e : Event} {q : Pool ProxyState Handler} {t : Handler}
    (ht : p.tasks[j]? = some t) :
    trafficOf i p (.task j e) q = if j = i then t.pc.traffic e else [] := by
  by_cases h : j = i
  · subst h
    simp [trafficOf, ht]
  · simp [trafficOf, h]

/-- **What a handler has exchanged, in every run**: at each program point exactly the messages that
belong there. -/
theorem exchanged_of_run (hrun : (machine F D).run (initial heap routers) es = some p) :
    (∀ u, (p.shared.heap.get u).config = (heap.get u).config) ∧
      (∀ i t, p.tasks[i]? = some t →
        Exchanged D heap routers t ((machine F D).log (trafficOf i) (initial heap routers) es)) ∧
      ∀ i, p.tasks.length ≤ i →
        (machine F D).log (trafficOf i) (initial heap routers) es = [] := by
  refine (machine F D).run_induction (Q := fun es p =>
    (∀ u, (p.shared.heap.get u).config = (heap.get u).config) ∧
      (∀ i t, p.tasks[i]? = some t →
        Exchanged D heap routers t ((machine F D).log (trafficOf i) (initial heap routers) es)) ∧
      ∀ i, p.tasks.length ≤ i →
        (machine F D).log (trafficOf i) (initial heap routers) es = []) ?_ ?_ hrun
  · exact ⟨fun u => rfl, fun i t ht => absurd ht (by simp [initial]), fun i _ => rfl⟩
  rintro es a q q' hq ⟨hconfig, hexchanged, hnone⟩ hstep
  simp only [(machine F D).log_concat _ hq hstep]
  rcases machine_step hstep with ⟨j, e, t, sh, t', rfl, ht, hmove, rfl⟩ | ⟨ns, rfl, rfl⟩ |
    ⟨inst, req, rfl, rfl⟩
  · simp only [trafficOf_step ht]
    refine ⟨fun u => (t.config_of_step hmove u).trans (hconfig u), fun i u hu => ?_,
      fun i hi => ?_⟩
    · rw [List.getElem?_set] at hu
      split_ifs at hu with hji
      · subst hji
        obtain rfl := Option.some.inj hu
        rw [if_pos rfl]
        exact (hexchanged _ t ht).step hconfig (fun k => (routers_of_run hq k).1) hmove
      · rw [if_neg hji, List.append_nil]
        exact hexchanged i u hu
    · rw [List.length_set] at hi
      have hj := (List.getElem?_eq_some_iff.mp ht).1
      rw [if_neg (by omega), List.append_nil]
      exact hnone i hi
  · simpa [trafficOf] using ⟨hconfig, hexchanged, hnone⟩
  · simp only [trafficOf, List.append_nil]
    refine ⟨hconfig, fun i u hu => ?_, fun i hi => ?_⟩
    · by_cases hlt : i < q.tasks.length
      · rw [List.getElem?_append_left hlt] at hu
        exact hexchanged i u hu
      · -- the new handler has exchanged nothing yet
        rw [List.getElem?_append_right (not_lt.mp hlt)] at hu
        obtain rfl := List.mem_singleton.mp (List.mem_of_getElem? hu)
        exact hnone i (not_lt.mp hlt)
    · rw [List.length_append] at hi
      exact hnone i (by omega)

/-- **What an answer comes from.** However the handlers are interleaved, a handler that has ended
has sent nothing, or one request: to one upstream of its instance, and made from the client's
request. If this upstream answered, the answer is the transformed response to this request;
otherwise it is the error response with 502. -/
theorem answer_of_exchange (hrun : (machine F D).run (initial heap routers) es = some p) {i : ℕ}
    {t : Handler} {answer : Response} (ht : p.tasks[i]? = some t) (hend : t.pc = .finished answer) :
    let messages := (machine F D).log (trafficOf i) (initial heap routers) es
    (∃ u out response, Sends D heap routers t.inst t.req u out ∧
        messages = [.sent u out, .received response] ∧ answer = transformResponse response) ∨
      answer = createErrorResponse 502 "Bad Gateway" ∧ (messages = [] ∨
        ∃ u out, Sends D heap routers t.inst t.req u out ∧ messages = [.sent u out]) := by
  intro messages
  have h := (exchanged_of_run hrun).2.1 i t ht
  simp only [Exchanged, hend] at h
  obtain ⟨result, houtcome, rfl⟩ := h
  cases result with
  | ok answer =>
      obtain ⟨u, out, response, hmessages, hsends, rfl⟩ := houtcome
      exact Or.inl ⟨u, out, response, hsends, hmessages, rfl⟩
  | error e =>
      refine Or.inr ⟨rfl, ?_⟩
      rcases houtcome with hnone | ⟨u, out, hmessages, hsends⟩
      · exact Or.inl hnone
      · exact Or.inr ⟨u, out, hsends, hmessages⟩

/-- The one request of a run that the upstream answers with 404. -/
theorem answer_of_exchange_answered :
    ∃ p t answer, (machine ℚ exampleDeployment).run
        (initial exampleUpstreams.2 fun _ => exampleUpstreams.1) answeredIn20Ms = some p ∧
      p.tasks[0]? = some t ∧ t.pc = .finished answer ∧ answer.status = 404 ∧
      ((∃ u out response, Sends exampleDeployment exampleUpstreams.2 (fun _ => exampleUpstreams.1)
            t.inst t.req u out ∧
          (machine ℚ exampleDeployment).log (trafficOf 0)
            (initial exampleUpstreams.2 fun _ => exampleUpstreams.1) answeredIn20Ms =
              [.sent u out, .received response] ∧ answer = transformResponse response) ∨
        answer = createErrorResponse 502 "Bad Gateway") := by
  obtain ⟨p, t, answer, hp, ht, hpc, hstatus⟩ : ∃ p t answer, (machine ℚ exampleDeployment).run
      (initial exampleUpstreams.2 fun _ => exampleUpstreams.1) answeredIn20Ms = some p ∧
      p.tasks[0]? = some t ∧ t.pc = .finished answer ∧ answer.status = 404 :=
    ⟨_, _, _, rfl, rfl, rfl, rfl⟩
  exact ⟨p, t, answer, hp, ht, hpc, hstatus, (answer_of_exchange hp ht hpc).imp id And.left⟩

/-! ## The statuses of the answers -/

/-- Has the handler ended with a status that has a property? -/
def HandlerPc.endedWith (P : ℕ → Bool) : HandlerPc → Bool
  | .finished answer => P answer.status
  | _ => false

/-- What a step of a handler does to the table of statuses: at its end it counts the status of its
answer, and before it leaves the table alone. -/
theorem Handler.statuses {sh sh' : ProxyState} {t t' : Handler} {e : Event}
    (h : t.step F D sh e = some (sh', t')) :
    (∃ answer, t.pc.isFinished = false ∧ t'.pc = .finished answer ∧
        sh'.metrics.statusCodes = sh.metrics.statusCodes.insert answer.status
          (wrappingAdd (Tally.count sh.metrics.statusCodes answer.status) 1)) ∨
      t.pc.isFinished = false ∧ t'.pc.isFinished = false ∧
        sh'.metrics.statusCodes = sh.metrics.statusCodes := by
  have hstep := t.step_inv h
  generalize hpc : t.pc = pc at hstep
  cases hstep with
  | countStatus => exact Or.inl ⟨_, rfl, rfl, rfl⟩
  | decActive =>
      refine Or.inr ⟨rfl, rfl, ?_⟩
      rw [ProxyState.decActive_metrics]
  | _ => exact Or.inr ⟨rfl, rfl, rfl⟩

/-- Who has not ended has ended with no status. -/
theorem HandlerPc.endedWith_of_not {pc : HandlerPc} (h : pc.isFinished = false) (P : ℕ → Bool) :
    pc.endedWith P = false := by
  cases pc with
  | finished answer => exact absurd h (by simp [HandlerPc.isFinished])
  | _ => rfl

/-- **The statuses that are counted are those of the answers.** In every state that fewer than
`2 ^ 64` requests have reached, the counts of the statuses with any property add up to the number
of handlers that ended with such a status. -/
theorem statusCodes_of_run (hrun : (machine F D).run (initial heap routers) es = some p)
    (hbound : p.tasks.length < 2 ^ 64) (P : ℕ → Bool) :
    totalOf P p.shared.metrics.statusCodes = countPc (HandlerPc.endedWith P) p.tasks := by
  refine (machine F D).run_induction (Q := fun _ q => q.tasks.length < 2 ^ 64 →
    totalOf P q.shared.metrics.statusCodes = countPc (HandlerPc.endedWith P) q.tasks) ?_ ?_ hrun
    hbound
  · exact fun _ => rfl
  intro es a q q' hq ih hstep hbound
  rcases machine_step hstep with ⟨i, e, t, sh, t', rfl, ht, hmove, rfl⟩ | ⟨ns, rfl, rfl⟩ |
    ⟨inst, req, rfl, rfl⟩
  · rw [List.length_set] at hbound
    have hold := ih hbound
    have hcount := countP_set_append (fun u : Handler => u.pc.endedWith P) ht t' []
    simp only [List.append_nil, List.countP_nil, Nat.add_zero] at hcount
    rcases t.statuses hmove with ⟨answer, hbefore, hafter, hinsert⟩ | ⟨hbefore, hafter, hsame⟩
    · -- the count that grows has room: it is at most the number of handlers that ended before
      have hlt : countPc HandlerPc.isFinished q.tasks < q.tasks.length := by
        rw [countPc, List.countP_lt_length_iff]
        exact ⟨t, List.mem_of_getElem? ht, by simp [hbefore]⟩
      have hle := count_le_total q.shared.metrics.statusCodes answer.status
      have htotal := (counters_of_run hq hbound).2.2
      have hsum := totalOf_insert P q.shared.metrics.statusCodes answer.status
        (wrappingAdd (Tally.count q.shared.metrics.statusCodes answer.status) 1)
      rw [wrappingAdd_eq (by omega)] at hsum hinsert
      rw [← hinsert] at hsum
      have hstatus : t'.pc.endedWith P = P answer.status := by
        rw [hafter]
        rfl
      rw [HandlerPc.endedWith_of_not hbefore, hstatus] at hcount
      simp only [Bool.false_eq_true, if_false, Nat.add_zero] at hcount
      simp only [countPc] at hold ⊢
      rw [hcount]
      split_ifs at hsum ⊢
      · omega
      · omega
    · rw [HandlerPc.endedWith_of_not hbefore, HandlerPc.endedWith_of_not hafter] at hcount
      simp only [Bool.false_eq_true, if_false, Nat.add_zero] at hcount
      simp only [countPc] at hold ⊢
      rw [hcount, hsame, hold]
  · exact ih hbound
  · rw [List.length_append] at hbound
    have hold := ih (by omega)
    simpa [countPc, List.countP_append, HandlerPc.endedWith] using hold

/-- **The exported error rate.** In every state that fewer than `2 ^ 64` requests have reached,
`status_codes` has for each status the number of answers with it, and the error rate of
`get_metrics` is the share of the answers whose status is at least 400, and zero before the first
answer. -/
theorem errorRate_of_run (hrun : (machine F D).run (initial heap routers) es = some p)
    (hbound : p.tasks.length < 2 ^ 64) :
    (∀ code, Tally.count p.shared.metrics.statusCodes code =
        countPc (HandlerPc.endedWith fun status => status = code) p.tasks) ∧
      (p.shared.metrics.getMetrics F).errorRate =
        if 0 < countPc HandlerPc.isFinished p.tasks then
          (countPc (HandlerPc.endedWith fun status => 400 ≤ status) p.tasks : F) /
            (countPc HandlerPc.isFinished p.tasks : F)
        else 0.0 := by
  have hstatuses := statusCodes_of_run hrun hbound
  refine ⟨fun code => (totalOf_eq_count _ code).symm.trans (hstatuses _), ?_⟩
  have htotal := (counters_of_run hrun hbound).2.2
  have herrors := hstatuses fun status => 400 ≤ status
  have hle : ∀ Q : HandlerPc → Bool, countPc Q p.tasks ≤ p.tasks.length := fun Q =>
    List.countP_le_length
  have hfinished := hle HandlerPc.isFinished
  have hended := hle (HandlerPc.endedWith fun status => 400 ≤ status)
  change (if 0 < total p.shared.metrics.statusCodes % 2 ^ 64 then
      ((totalOf (fun status => 400 ≤ status) p.shared.metrics.statusCodes % 2 ^ 64 : ℕ) : F) /
        ((total p.shared.metrics.statusCodes % 2 ^ 64 : ℕ) : F) else 0.0) = _
  rw [htotal, herrors, Nat.mod_eq_of_lt (by omega), Nat.mod_eq_of_lt (by omega)]

/-- After one answer with 404 every answer is an error. -/
theorem errorRate_of_run_answered :
    ∃ p, (machine ℚ exampleDeployment).run
        (initial exampleUpstreams.2 fun _ => exampleUpstreams.1) answeredIn20Ms = some p ∧
      Tally.count p.shared.metrics.statusCodes 404 = 1 ∧
      (p.shared.metrics.getMetrics ℚ).errorRate = ((1 : ℕ) : ℚ) / ((1 : ℕ) : ℚ) := by
  obtain ⟨p, hp, hlength, hended, hfinished, herror⟩ : ∃ p, (machine ℚ exampleDeployment).run
      (initial exampleUpstreams.2 fun _ => exampleUpstreams.1) answeredIn20Ms = some p ∧
      p.tasks.length = 1 ∧ countPc (HandlerPc.endedWith fun status => status = 404) p.tasks = 1 ∧
      countPc HandlerPc.isFinished p.tasks = 1 ∧
      countPc (HandlerPc.endedWith fun status => 400 ≤ status) p.tasks = 1 :=
    ⟨_, rfl, rfl, rfl, rfl, rfl⟩
  obtain ⟨hcodes, hrate⟩ := errorRate_of_run hp (by omega)
  rw [hfinished, herror, if_pos Nat.one_pos] at hrate
  exact ⟨p, hp, (hcodes 404).trans hended, hrate⟩

end runs

end HarbrRouter.Proxy.Http
