import HarbrRouter.Lib.TaskPool
import HarbrRouter.Lib.Tally
import HarbrRouter.Proxy.HttpMessage
import HarbrRouter.Routing.Selection

/-!
# The HTTP request handlers

`proxy/http.rs`, `handle_request` and `process_request`: a handler for each request. The only await
in them is that of the upstream's response, and whoever polls the handler may drop it there: hyper
does so when the client goes away. What comes behind the await is then never run.

A step of a handler is one atomic operation, one access under a lock, one selection, or one result
of the upstream; `Event.drop` is the drop of a handler that waits. `HandlerStep` has the steps by
program point, and what is proved of a step elsewhere goes by cases on it (`Handler.step_inv`).
-/

set_option autoImplicit false

namespace HarbrRouter.Proxy.Http

open Transition TaskPool PointRing Routing Tally

/-! ## State -/

/-- Source: `proxy/http.rs`, `HttpProxyMetrics` -/
structure HttpProxyMetrics where
  requestsTotal : ℕ
  connectionsActive : ℕ
  bytesSent : ℕ
  bytesReceived : ℕ
  /-- In nanoseconds; the code keeps them as `f64` milliseconds. -/
  requestDurations : List ℕ
  statusCodes : Counts ℕ

/-- What the handlers share. -/
structure ProxyState where
  now : ℕ
  heap : Heap
  /-- The router of each instance. -/
  routers : ℕ → Router
  metrics : HttpProxyMetrics

/-- The sliding window of durations. Source: `proxy/http.rs`, `HttpProxy::handle_request` -/
def pushDuration (durations : List ℕ) (duration : ℕ) : List ℕ :=
  let durations := durations ++ [duration]
  if 10000 < durations.length then durations.drop 1000 else durations

namespace ProxyState

/-- A new proxy over the routers of its instances. Source: `proxy/http.rs`, `HttpProxy::new` -/
def new (heap : Heap) (routers : ℕ → Router) : ProxyState := ⟨0, heap, routers, 0, 0, 0, 0, [], ∅⟩

/-- Change the metrics. -/
def count (sh : ProxyState) (f : HttpProxyMetrics → HttpProxyMetrics) : ProxyState :=
  { sh with metrics := f sh.metrics }

/-- Counting changes the metrics. -/
@[simp] theorem count_metrics (sh : ProxyState) (f : HttpProxyMetrics → HttpProxyMetrics) :
    (sh.count f).metrics = f sh.metrics := rfl

/-- Counting leaves the upstreams alone. -/
@[simp] theorem count_heap (sh : ProxyState) (f : HttpProxyMetrics → HttpProxyMetrics) :
    (sh.count f).heap = sh.heap := rfl

/-- `requests_total.fetch_add(1)` -/
def countRequest (sh : ProxyState) : ProxyState :=
  sh.count fun m => { m with requestsTotal := wrappingAdd m.requestsTotal 1 }

/-- `connections_active.fetch_add(1)` -/
def incActive (sh : ProxyState) : ProxyState :=
  sh.count fun m => { m with connectionsActive := wrappingAdd m.connectionsActive 1 }

/-- `connections_active.fetch_sub(1)` -/
def decActive (sh : ProxyState) : ProxyState :=
  sh.count fun m => { m with connectionsActive := wrappingSub m.connectionsActive 1 }

/-- The decrement, as the counter shows it. -/
theorem decActive_metrics (sh : ProxyState) :
    sh.decActive.metrics =
      { sh.metrics with connectionsActive := wrappingSub sh.metrics.connectionsActive 1 } := by
  unfold decActive
  rw [count_metrics]

/-- `bytes_sent.fetch_add(body_size)` -/
def countSent (sh : ProxyState) (bodySize : ℕ) : ProxyState :=
  sh.count fun m => { m with bytesSent := wrappingAdd m.bytesSent bodySize }

/-- `bytes_received.fetch_add(response_size)` -/
def countReceived (sh : ProxyState) (responseSize : ℕ) : ProxyState :=
  sh.count fun m => { m with bytesReceived := wrappingAdd m.bytesReceived responseSize }

/-- The push to `request_durations` -/
def addDuration (sh : ProxyState) (duration : ℕ) : ProxyState :=
  sh.count fun m => { m with requestDurations := pushDuration m.requestDurations duration }

/-- `*status_codes.entry(status).or_insert(0) += 1` -/
def countStatus (sh : ProxyState) (status : ℕ) : ProxyState :=
  sh.count fun m => { m with
    statusCodes := m.statusCodes.insert status (wrappingAdd (Tally.count m.statusCodes status) 1) }

/-- Change the statistics of an upstream. -/
def modifyStats (sh : ProxyState) (u : UpstreamRef) (f : UpstreamStats → UpstreamStats) :
    ProxyState :=
  { sh with heap := sh.heap.modify u fun info => { info with stats := f info.stats } }

/-- Changing statistics leaves the metrics alone. -/
@[simp] theorem modifyStats_metrics (sh : ProxyState) (u : UpstreamRef)
    (f : UpstreamStats → UpstreamStats) : (sh.modifyStats u f).metrics = sh.metrics := rfl

end ProxyState

/-! ## Handlers -/

/-- Source: `proxy/http.rs`, `HttpProxy::handle_request` and `HttpProxy::process_request` -/
inductive HandlerPc where
  /-- `Instant::now()` and `requests_total.fetch_add(1)` -/
  | start
  /-- `connections_active.fetch_add(1)` -/
  | incActive
  /-- `ctx.router.select_upstream(Self::extract_session_key(&req))` -/
  | selecting
  /-- `Self::build_upstream_uri(..)` and `Self::transform_request(..)` -/
  | preparing (upstream : UpstreamRef)
  /-- `bytes_sent.fetch_add(..)` -/
  | countSent (upstream : UpstreamRef) (req : Request)
  /-- `timeout(request_timeout, ctx.client.request(req)).await` -/
  | requesting (upstream : UpstreamRef) (since : ℕ) (req : Request)
  /-- `upstream.stats.record_success(..)` or `upstream.stats.record_failure()` -/
  | recording (upstream : UpstreamRef) (since : ℕ) (result : Result Response)
  /-- `bytes_received.fetch_add(..)` and `Self::transform_response(..)` -/
  | countReceived (response : Response)
  /-- `connections_active.fetch_sub(1)` -/
  | decActive (result : Result Response)
  /-- The push to `request_durations` -/
  | addDuration (result : Result Response)
  /-- The change of `status_codes` -/
  | countStatus (result : Result Response)
  /-- The end of the handler. -/
  | finished (response : Response)
  /-- The handler was dropped at its await. -/
  | dropped
deriving DecidableEq

/-- A handler of one request. -/
structure Handler where
  inst : ℕ
  req : Request
  startTime : ℕ
  pc : HandlerPc
deriving DecidableEq

/-- A step of the code, a result of the upstream, or an event of the environment. -/
inductive Event where
  | step
  | responded (response : Response)
  | requestFailed (e : String)
  | timedOut
  /-- The handler's future is dropped. -/
  | drop
  /-- The clock advances. -/
  | advance (ns : ℕ)
  /-- An instance receives a request. -/
  | request (inst : ℕ) (req : Request)

/-- What the proxy runs with. -/
structure Deployment where
  /-- The configuration of each instance. -/
  config : ℕ → ProxyInstanceConfig
  crate : HttpCrate
  hashKey : String → U64
  search : BinarySearch U64

/-- The status that is counted and the response that is returned.
Source: `proxy/http.rs`, `HttpProxy::handle_request` -/
def responseOf : Result Response → Response
  | .ok response => response
  | .error _ => createErrorResponse 502 "Bad Gateway"

section steps

variable (F : Type) [ScoreArith F] (D : Deployment)

/-- One step of a handler. Source: `proxy/http.rs`, `HttpProxy::handle_request` and
`HttpProxy::process_request` -/
def Handler.step (sh : ProxyState) (t : Handler) (e : Event) : Option (ProxyState × Handler) :=
  match t.pc, e with
  | .start, .step => some (sh.countRequest, { t with startTime := sh.now, pc := .incActive })
  | .incActive, .step => some (sh.incActive, { t with pc := .selecting })
  | .selecting, .step =>
      let (router, upstream) := (sh.routers t.inst).selectUpstream F D.hashKey D.search sh.heap
        (extractSessionKey D.crate t.req)
      let sh := { sh with routers := Function.update sh.routers t.inst router }
      match upstream with
      | some upstream => some (sh, { t with pc := .preparing upstream })
      | none =>
          let error := Error.proxy "No healthy upstream available" "http" "unknown"
          some (sh, { t with pc := .decActive (.error error) })
  | .preparing upstream, .step =>
      match buildUpstreamUri D.crate (sh.heap.get upstream).config t.req.uri with
      | .error e => some (sh, { t with pc := .decActive (.error e) })
      | .ok uri =>
          match transformRequest D.crate { t.req with uri } (D.config t.inst).config.http with
          | .error e => some (sh, { t with pc := .decActive (.error e) })
          | .ok req => some (sh, { t with pc := .countSent upstream req })
  | .countSent upstream req, .step =>
      some (sh.countSent (estimateBodySize req.body),
        { t with pc := .requesting upstream sh.now req })
  | .requesting upstream since _, .responded response =>
      some (sh, { t with pc := .recording upstream since (.ok response) })
  | .requesting upstream since _, .requestFailed e =>
      let name := (sh.heap.get upstream).config.name
      let error := Error.network ("Request to upstream '" ++ name ++ "' failed: " ++ e)
        .connectionFailed
      some (sh, { t with pc := .recording upstream since (.error error) })
  | .requesting upstream since _, .timedOut =>
      let name := (sh.heap.get upstream).config.name
      let error := Error.network ("Request to upstream '" ++ name ++ "' timed out") .timeout
      some (sh, { t with pc := .recording upstream since (.error error) })
  | .requesting _ _ _, .drop => some (sh, { t with pc := .dropped })
  | .recording upstream since (.ok response), .step =>
      some (sh.modifyStats upstream fun s => s.recordSuccess (sh.now - since) sh.now,
        { t with pc := .countReceived response })
  | .recording upstream _ (.error e), .step =>
      some (sh.modifyStats upstream fun s => s.recordFailure sh.now,
        { t with pc := .decActive (.error e) })
  | .countReceived response, .step =>
      some (sh.countReceived (estimateBodySize response.body),
        { t with pc := .decActive (.ok (transformResponse response)) })
  | .decActive result, .step => some (sh.decActive, { t with pc := .addDuration result })
  | .addDuration result, .step =>
      some (sh.addDuration (sh.now - t.startTime), { t with pc := .countStatus result })
  | .countStatus result, .step =>
      let response := responseOf result
      some (sh.countStatus response.status, { t with pc := .finished response })
  | _, _ => none

/-- The handlers of the HTTP instances. -/
def system : System ProxyState Handler Event where
  act _ sh t e := (t.step F D sh e).map fun r => (r.1, r.2, [])
  env sh
    | .advance ns => some ({ sh with now := sh.now + ns }, [])
    | .request inst req => some (sh, [⟨inst, req, 0, .start⟩])
    | _ => none

/-- The machine of the interleavings. -/
abbrev machine : Machine (Pool ProxyState Handler) (Sched Event) := (system F D).machine

/-- A new proxy without requests. -/
def initial (heap : Heap) (routers : ℕ → Router) : Pool ProxyState Handler :=
  ⟨.new heap routers, []⟩

/-! ## What a step does -/

/-- The steps of a handler, by its program point. -/
inductive HandlerStep (sh : ProxyState) (t : Handler) :
    HandlerPc → Event → ProxyState → Handler → Prop
  | start :
      HandlerStep sh t .start .step sh.countRequest
        { t with startTime := sh.now, pc := .incActive }
  | incActive : HandlerStep sh t .incActive .step sh.incActive { t with pc := .selecting }
  | selected {router : Router} {upstream : UpstreamRef}
      (h : (sh.routers t.inst).selectUpstream F D.hashKey D.search sh.heap
        (extractSessionKey D.crate t.req) = (router, some upstream)) :
      HandlerStep sh t .selecting .step
        { sh with routers := Function.update sh.routers t.inst router }
        { t with pc := .preparing upstream }
  | noUpstream {router : Router}
      (h : (sh.routers t.inst).selectUpstream F D.hashKey D.search sh.heap
        (extractSessionKey D.crate t.req) = (router, none)) :
      HandlerStep sh t .selecting .step
        { sh with routers := Function.update sh.routers t.inst router }
        { t with
          pc := .decActive (.error (Error.proxy "No healthy upstream available" "http" "unknown")) }
  | noUri {upstream : UpstreamRef} {error : Error}
      (h : buildUpstreamUri D.crate (sh.heap.get upstream).config t.req.uri = .error error) :
      HandlerStep sh t (.preparing upstream) .step sh { t with pc := .decActive (.error error) }
  | notTransformed {upstream : UpstreamRef} {uri : Uri} {error : Error}
      (huri : buildUpstreamUri D.crate (sh.heap.get upstream).config t.req.uri = .ok uri)
      (h : transformRequest D.crate { t.req with uri } (D.config t.inst).config.http =
        .error error) :
      HandlerStep sh t (.preparing upstream) .step sh { t with pc := .decActive (.error error) }
  | prepared {upstream : UpstreamRef} {uri : Uri} {req : Request}
      (huri : buildUpstreamUri D.crate (sh.heap.get upstream).config t.req.uri = .ok uri)
      (h : transformRequest D.crate { t.req with uri } (D.config t.inst).config.http = .ok req) :
      HandlerStep sh t (.preparing upstream) .step sh { t with pc := .countSent upstream req }
  | countSent {upstream : UpstreamRef} {req : Request} :
      HandlerStep sh t (.countSent upstream req) .step (sh.countSent (estimateBodySize req.body))
        { t with pc := .requesting upstream sh.now req }
  | responded {upstream : UpstreamRef} {since : ℕ} {req : Request} {response : Response} :
      HandlerStep sh t (.requesting upstream since req) (.responded response) sh
        { t with pc := .recording upstream since (.ok response) }
  | requestFailed {upstream : UpstreamRef} {since : ℕ} {req : Request} {e : String} {error : Error}
      (herror : error = Error.network ("Request to upstream '" ++
        (sh.heap.get upstream).config.name ++ "' failed: " ++ e) .connectionFailed) :
      HandlerStep sh t (.requesting upstream since req) (.requestFailed e) sh
        { t with pc := .recording upstream since (.error error) }
  | timedOut {upstream : UpstreamRef} {since : ℕ} {req : Request} {error : Error}
      (herror : error = Error.network ("Request to upstream '" ++
        (sh.heap.get upstream).config.name ++ "' timed out") .timeout) :
      HandlerStep sh t (.requesting upstream since req) .timedOut sh
        { t with pc := .recording upstream since (.error error) }
  | drop {upstream : UpstreamRef} {since : ℕ} {req : Request} :
      HandlerStep sh t (.requesting upstream since req) .drop sh { t with pc := .dropped }
  | success {upstream : UpstreamRef} {since : ℕ} {response : Response} :
      HandlerStep sh t (.recording upstream since (.ok response)) .step
        (sh.modifyStats upstream fun s => s.recordSuccess (sh.now - since) sh.now)
        { t with pc := .countReceived response }
  | failure {upstream : UpstreamRef} {since : ℕ} {error : Error} :
      HandlerStep sh t (.recording upstream since (.error error)) .step
        (sh.modifyStats upstream fun s => s.recordFailure sh.now)
        { t with pc := .decActive (.error error) }
  | countReceived {response : Response} :
      HandlerStep sh t (.countReceived response) .step
        (sh.countReceived (estimateBodySize response.body))
        { t with pc := .decActive (.ok (transformResponse response)) }
  | decActive {result : Result Response} :
      HandlerStep sh t (.decActive result) .step sh.decActive { t with pc := .addDuration result }
  | addDuration {result : Result Response} :
      HandlerStep sh t (.addDuration result) .step (sh.addDuration (sh.now - t.startTime))
        { t with pc := .countStatus result }
  | countStatus {result : Result Response} :
      HandlerStep sh t (.countStatus result) .step
        (sh.countStatus (responseOf result).status)
        { t with pc := .finished (responseOf result) }

variable {F D}

/-- Every step of a handler is one of these. -/
theorem Handler.step_inv {sh sh' : ProxyState} {t t' : Handler} {e : Event}
    (h : t.step F D sh e = some (sh', t')) : HandlerStep F D sh t t.pc e sh' t' := by
  unfold Handler.step at h
  split at h
  · next hpc =>
      obtain ⟨rfl, rfl⟩ : _ ∧ _ := by simpa using h
      rw [hpc]
      exact .start
  · next hpc =>
      obtain ⟨rfl, rfl⟩ : _ ∧ _ := by simpa using h
      rw [hpc]
      exact .incActive
  · next hpc =>
      rw [hpc]
      rcases hselect : (sh.routers t.inst).selectUpstream F D.hashKey D.search sh.heap
        (extractSessionKey D.crate t.req) with ⟨router, upstream⟩
      rw [hselect] at h
      cases upstream with
      | some upstream =>
          obtain ⟨rfl, rfl⟩ : _ ∧ _ := by simpa using h
          exact .selected hselect
      | none =>
          obtain ⟨rfl, rfl⟩ : _ ∧ _ := by simpa using h
          exact .noUpstream hselect
  · next upstream hpc =>
      rw [hpc]
      split at h
      · next error huri =>
          obtain ⟨rfl, rfl⟩ : _ ∧ _ := by simpa using h
          exact .noUri huri
      · next uri huri =>
          split at h
          · next error hreq =>
              obtain ⟨rfl, rfl⟩ : _ ∧ _ := by simpa using h
              exact .notTransformed huri hreq
          · next req hreq =>
              obtain ⟨rfl, rfl⟩ : _ ∧ _ := by simpa using h
              exact .prepared huri hreq
  · next hpc =>
      obtain ⟨rfl, rfl⟩ : _ ∧ _ := by simpa using h
      rw [hpc]
      exact .countSent
  · next hpc =>
      obtain ⟨rfl, rfl⟩ : _ ∧ _ := by simpa using h
      rw [hpc]
      exact .responded
  · next hpc =>
      obtain ⟨rfl, rfl⟩ : _ ∧ _ := by simpa using h
      rw [hpc]
      exact .requestFailed rfl
  · next hpc =>
      obtain ⟨rfl, rfl⟩ : _ ∧ _ := by simpa using h
      rw [hpc]
      exact .timedOut rfl
  · next hpc =>
      obtain ⟨rfl, rfl⟩ : _ ∧ _ := by simpa using h
      rw [hpc]
      exact .drop
  · next hpc =>
      obtain ⟨rfl, rfl⟩ : _ ∧ _ := by simpa using h
      rw [hpc]
      exact .success
  · next hpc =>
      obtain ⟨rfl, rfl⟩ : _ ∧ _ := by simpa using h
      rw [hpc]
      exact .failure
  · next hpc =>
      obtain ⟨rfl, rfl⟩ : _ ∧ _ := by simpa using h
      rw [hpc]
      exact .countReceived
  · next hpc =>
      obtain ⟨rfl, rfl⟩ : _ ∧ _ := by simpa using h
      rw [hpc]
      exact .decActive
  · next hpc =>
      obtain ⟨rfl, rfl⟩ : _ ∧ _ := by simpa using h
      rw [hpc]
      exact .addDuration
  · next hpc =>
      obtain ⟨rfl, rfl⟩ : _ ∧ _ := by simpa using h
      rw [hpc]
      exact .countStatus
  · exact absurd h (by simp)

/-- What one step of the environment does: the clock advances, or a request comes in. -/
theorem env_cases {sh sh' : ProxyState} {e : Event} {new : List Handler}
    (h : (system F D).env sh e = some (sh', new)) :
    (∃ ns, e = .advance ns ∧ sh' = { sh with now := sh.now + ns } ∧ new = []) ∨
      ∃ inst req, e = .request inst req ∧ sh' = sh ∧ new = [⟨inst, req, 0, .start⟩] := by
  simp only [system] at h
  split at h
  · obtain ⟨rfl, rfl⟩ : _ ∧ _ := by simpa using h
    exact Or.inl ⟨_, rfl, rfl, rfl⟩
  · obtain ⟨rfl, rfl⟩ : _ ∧ _ := by simpa using h
    exact Or.inr ⟨_, _, rfl, rfl, rfl⟩
  · exact absurd h (by simp)

/-- What one step of the machine does: a handler moves, the clock advances, or a request comes
in. -/
theorem machine_step {p p' : Pool ProxyState Handler} {a : Sched Event}
    (h : (machine F D).step p a = some p') :
    (∃ i e t sh t', a = .task i e ∧ p.tasks[i]? = some t ∧
        t.step F D p.shared e = some (sh, t') ∧ p' = ⟨sh, p.tasks.set i t'⟩) ∨
      (∃ ns, a = .env (.advance ns) ∧
        p' = ⟨{ p.shared with now := p.shared.now + ns }, p.tasks⟩) ∨
      ∃ inst req, a = .env (.request inst req) ∧
        p' = ⟨p.shared, p.tasks ++ [⟨inst, req, 0, .start⟩]⟩ := by
  rcases (system F D).step_cases h with ⟨i, e, t, sh, t', new, rfl, ht, hact, rfl⟩ |
    ⟨e, sh, new, rfl, henv, rfl⟩
  · obtain ⟨⟨sh₁, t₁⟩, hstep, heq⟩ := Option.map_eq_some_iff.mp hact
    obtain ⟨rfl, rfl, rfl⟩ : _ ∧ _ ∧ _ := by simpa using heq
    rw [List.append_nil]
    exact Or.inl ⟨i, e, t, sh₁, t₁, rfl, ht, hstep, rfl⟩
  · rcases env_cases henv with ⟨ns, rfl, rfl, rfl⟩ | ⟨inst, req, rfl, rfl, rfl⟩
    · rw [List.append_nil]
      exact Or.inr (Or.inl ⟨ns, rfl, rfl⟩)
    · exact Or.inr (Or.inr ⟨inst, req, rfl, rfl⟩)

end steps

end HarbrRouter.Proxy.Http
