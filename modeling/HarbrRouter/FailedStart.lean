import HarbrRouter.Startup

/-!
# Starts that fail

`Router::start_proxy_instance` adds the upstreams of an instance to the global registry before it
starts the proxy, and leaves them there when the proxy returns an error. The running instances are
changed after the proxy only.

**Theorem** (`failed_start_unchanged_iff`): after an error nothing has changed if and only if the
instance has no upstreams. `CallInv` says at every program point of the call which upstreams it has
registered by then; an error is only returned behind the registrations, so all of them are
(`registered_of_error`), each as an upstream that was not on the heap before
(`failed_start_tracks`), while those that were tracked before were on it.
-/

set_option autoImplicit false

namespace HarbrRouter.Startup

open Transition Routing Proxy

/-- The global registry and the running instances are as before. -/
structure State.Unchanged (before after : State) : Prop where
  upstreamMetrics : after.registry.upstreamMetrics = before.registry.upstreamMetrics
  upstreamsTotal : after.registry.upstreamsTotal = before.registry.upstreamsTotal
  runningInstances : after.runningInstances = before.runningInstances

/-- What is tracked is an upstream of the heap. -/
def State.Tracks (s : State) : Prop :=
  ∀ name r, s.registry.upstreamMetrics.lookup name = some r → r < s.heap.cells.length

/-! ## How far a call has come -/

/-- Where the start task is in a call, which upstreams it has registered by then, and how many
shutdown messages were sent. -/
inductive Phase (inst : ProxyInstanceConfig) (sent : ℕ) : StartPc → List UpstreamConfig → Prop
  | creating (rest) : Phase inst sent (.starting inst rest .creating) []
  | registering (rest loadBalancer) {done left} (h : inst.upstreams = done ++ left) :
      Phase inst sent (.starting inst rest (.registering loadBalancer left)) done
  | validating (rest loadBalancer) :
      Phase inst sent (.starting inst rest (.validating loadBalancer)) inst.upstreams
  | subscribing (rest loadBalancer) :
      Phase inst sent (.starting inst rest (.subscribing loadBalancer)) inst.upstreams
  | binding (rest loadBalancer) :
      Phase inst sent (.starting inst rest (.binding loadBalancer sent)) inst.upstreams
  | serving (rest loadBalancer) :
      Phase inst sent (.starting inst rest (.serving loadBalancer sent)) inst.upstreams
  | failed (e) : Phase inst sent (.finished (.error e)) inst.upstreams
  | panicked (message) : Phase inst sent (.panicked message) inst.upstreams
  | killed (done) : Phase inst sent .killed done

/-- What the registration of some upstreams has made of the state before. -/
structure Registered (before : State) (heap : Heap) (registry : MetricsRegistry)
    (runningInstances : AList fun _ : String => Router) (done : List UpstreamConfig) : Prop where
  heap : before.heap.cells.length ≤ heap.cells.length
  runningInstances : runningInstances = before.runningInstances
  none : done = [] → registry = before.registry
  /-- Each is tracked as an upstream that was not on the heap. -/
  tracked : ∀ u ∈ done, ∃ r, registry.upstreamMetrics.lookup u.name = some r ∧
    before.heap.cells.length ≤ r

/-- The invariant of a call. -/
def CallInv (before : State) (inst : ProxyInstanceConfig) (s : State) : Prop :=
  ∃ done, Phase inst s.shutdownsSent s.pc done ∧
    Registered before s.heap s.registry s.runningInstances done

/-- A call keeps its invariant when it registers one more upstream. -/
theorem Registered.addUpstream {before : State} {heap : Heap} {registry : MetricsRegistry}
    {runningInstances : AList fun _ : String => Router} {done : List UpstreamConfig}
    (h : Registered before heap registry runningInstances done) (upstream : UpstreamConfig)
    (now : ℕ) :
    Registered before (heap.alloc [.new upstream now]).1
      (registry.addUpstream (heap.alloc [.new upstream now]).1 heap.cells.length)
      runningInstances (done ++ [upstream]) := by
  have hname : ((heap.alloc [.new upstream now]).1.get heap.cells.length).config = upstream := by
    simp [Heap.alloc, Heap.get, List.getD_eq_getElem?_getD, UpstreamInfo.new]
  refine ⟨?_, h.runningInstances, by simp, fun u hu => ?_⟩
  · simp only [Heap.alloc, List.length_append]
    exact h.heap.trans (Nat.le_add_right _ _)
  · simp only [MetricsRegistry.addUpstream, hname]
    by_cases hsame : u.name = upstream.name
    · exact ⟨heap.cells.length, by rw [hsame, AList.lookup_insert], h.heap⟩
    · have hdone : u ∈ done := by
        rcases List.mem_append.mp hu with hu | hu
        · exact hu
        · exact absurd (congrArg UpstreamConfig.name (List.mem_singleton.mp hu)) hsame
      obtain ⟨r, hr, hle⟩ := h.tracked u hdone
      exact ⟨r, by rwa [AList.lookup_insert_ne hsame], hle⟩

section call

variable {fromBytes : String → Except String String} {hashKey : String → U64} {config : Config}
  {before s s' : State} {inst : ProxyInstanceConfig}

/-- A step of the call keeps its invariant. -/
theorem CallInv.ownStep (h : CallInv before inst s)
    (hstep : s.ownStep fromBytes hashKey config = some s') : CallInv before inst s' := by
  obtain ⟨done, hphase, hreg⟩ := h
  unfold State.ownStep at hstep
  generalize hpc : s.pc = pc at hphase hstep
  cases hphase with
  | creating rest =>
      obtain rfl := Option.some.inj hstep
      refine ⟨[], .registering rest _ rfl, ?_, hreg.runningInstances, hreg.none, by simp⟩
      exact hreg.heap.trans (by simp)
  | @registering rest loadBalancer done left hleft =>
      cases left with
      | nil =>
          obtain rfl := Option.some.inj hstep
          rw [List.append_nil] at hleft
          exact ⟨done, hleft ▸ .validating rest loadBalancer, hreg⟩
      | cons upstream left =>
          obtain rfl := Option.some.inj hstep
          exact ⟨done ++ [upstream], .registering rest loadBalancer (by simp [hleft]),
            hreg.addUpstream upstream s.now⟩
  | validating rest loadBalancer =>
      simp only [State.stepInstance] at hstep
      split at hstep
      · obtain rfl := Option.some.inj hstep
        exact ⟨_, .failed _, hreg⟩
      · obtain rfl := Option.some.inj hstep
        exact ⟨_, .subscribing rest loadBalancer, hreg⟩
  | subscribing rest loadBalancer =>
      obtain rfl := Option.some.inj hstep
      exact ⟨_, .binding rest loadBalancer, hreg⟩
  | binding rest loadBalancer =>
      obtain rfl := Option.some.inj hstep
      exact ⟨_, .serving rest loadBalancer, hreg⟩
  | serving rest loadBalancer => simp [State.stepInstance] at hstep
  | failed | panicked | killed => exact absurd hstep (by simp)

/-- A step of the router keeps the invariant of the call. -/
theorem CallInv.step (h : CallInv before inst s) {e : Event}
    (hstep : (machine fromBytes hashKey config).step s e = some s') : CallInv before inst s' := by
  cases e with
  | step => exact h.ownStep hstep
  | bindFailed e =>
      obtain ⟨done, hphase, hreg⟩ := h
      simp only [machine, State.step] at hstep
      generalize hpc : s.pc = pc at hphase hstep
      cases hphase with
      | binding rest loadBalancer =>
          obtain rfl := Option.some.inj hstep
          refine ⟨_, ?_, hreg⟩
          cases htype : inst.proxyType <;> simp only [bindFailure, htype]
          · exact .panicked e
          · exact .failed _
          · exact .failed _
      | _ => exact absurd hstep (by simp)
  | serverError e =>
      obtain ⟨done, hphase, hreg⟩ := h
      simp only [machine, State.step] at hstep
      generalize hpc : s.pc = pc at hphase hstep
      cases hphase with
      | serving rest loadBalancer =>
          simp only at hstep
          split_ifs at hstep
          obtain rfl := Option.some.inj hstep
          exact ⟨_, .failed _, hreg⟩
      | _ => exact absurd hstep (by simp)
  | client name =>
      simp only [machine, State.step] at hstep
      split_ifs at hstep
      obtain rfl := Option.some.inj hstep
      exact h
  | signal =>
      obtain ⟨done, hphase, hreg⟩ := h
      simp only [machine, State.step] at hstep
      generalize hpc : s.pc = pc at hphase hstep
      cases hphase with
      | failed | panicked | killed => exact absurd hstep (by simp)
      | _ =>
          obtain rfl := Option.some.inj hstep
          exact ⟨_, .killed _, hreg⟩
  | triggerShutdown =>
      obtain ⟨done, hphase, hreg⟩ := h
      simp only [machine, State.step] at hstep
      split at hstep
      · next hpc => rw [hpc] at hphase; cases hphase
      · obtain rfl := Option.some.inj hstep
        exact ⟨done, hphase, hreg⟩
  | sigtermFailed =>
      obtain ⟨done, hphase, hreg⟩ := h
      simp only [machine, State.step] at hstep
      split at hstep
      · next hpc => rw [hpc] at hphase; cases hphase
      · exact absurd hstep (by simp)
  | advance ns =>
      obtain rfl := Option.some.inj hstep
      exact h

variable {rest : List ProxyInstanceConfig} {es : List Event}

/-- The invariant holds wherever a call has come to. -/
theorem CallInv.of_run (hbefore : before.pc = .starting inst rest .creating)
    (hrun : (machine fromBytes hashKey config).run before es = some s) :
    CallInv before inst s := by
  refine (machine fromBytes hashKey config).run_preserves (fun _ _ _ h => h.step) ?_ hrun
  exact ⟨[], hbefore ▸ .creating rest, le_rfl, rfl, fun _ => rfl, by simp⟩

/-- When a call returns an error, it has registered all upstreams of the instance. -/
theorem registered_of_error (hbefore : before.pc = .starting inst rest .creating)
    (hrun : (machine fromBytes hashKey config).run before es = some s) {e : Error}
    (herror : s.pc = .finished (.error e)) :
    Registered before s.heap s.registry s.runningInstances inst.upstreams := by
  obtain ⟨done, hphase, hreg⟩ := CallInv.of_run hbefore hrun
  rw [herror] at hphase
  cases hphase
  exact hreg

/-- **What a failed start leaves behind.** When the start of an instance returns an error, each of
its upstreams is tracked under its name by an upstream that did not exist before. -/
theorem failed_start_tracks (hbefore : before.pc = .starting inst rest .creating)
    (hrun : (machine fromBytes hashKey config).run before es = some s) {e : Error}
    (herror : s.pc = .finished (.error e)) :
    ∀ u ∈ inst.upstreams, ∃ r, s.registry.upstreamMetrics.lookup u.name = some r ∧
      before.heap.cells.length ≤ r :=
  (registered_of_error hbefore hrun herror).tracked

/-- **When a failed start leaves nothing behind.** When the start of an instance returns an error,
the registry and the running instances are as before, if and only if the instance has no
upstreams. -/
theorem failed_start_unchanged_iff (hbefore : before.pc = .starting inst rest .creating)
    (htracks : before.Tracks)
    (hrun : (machine fromBytes hashKey config).run before es = some s) {e : Error}
    (herror : s.pc = .finished (.error e)) :
    before.Unchanged s ↔ inst.upstreams = [] := by
  have hreg := registered_of_error hbefore hrun herror
  constructor
  · intro hsame
    by_contra hne
    obtain ⟨u, hu⟩ := List.exists_mem_of_ne_nil _ hne
    obtain ⟨r, hr, hle⟩ := hreg.tracked u hu
    rw [hsame.upstreamMetrics] at hr
    exact absurd (htracks u.name r hr) (not_lt.mpr hle)
  · intro hnil
    have hregistry := hreg.none hnil
    exact ⟨by rw [hregistry], by rw [hregistry], hreg.runningInstances⟩

end call

/-! ## An address that is in use -/

/-- A TCP instance. -/
def startedInstance (upstreams : List UpstreamConfig) : ProxyInstanceConfig :=
  ⟨"tcp-a", .tcp, .v4 ⟨127, 0, 0, 1⟩ 8000, upstreams, .default⟩

/-- The start task before it starts the instance; the upstream of another one is tracked. -/
def beforeStart (upstreams : List UpstreamConfig) : State :=
  let heap : Heap := ⟨[.new ⟨"other", "127.0.0.1:9100", 1, 0, 5000⟩ 0]⟩
  { State.initial heap (MetricsRegistry.new.addUpstream heap 0) 0 with
    pc := .starting (startedInstance upstreams) [] .creating }

/-- What is tracked before the start is on the heap. -/
theorem beforeStart_tracks (upstreams : List UpstreamConfig) : (beforeStart upstreams).Tracks := by
  intro name r h
  by_cases hname : name = "other"
  · subst hname
    have hother : (beforeStart upstreams).registry.upstreamMetrics.lookup "other" = some 0 :=
      AList.lookup_insert _
    obtain rfl : 0 = r := Option.some.inj (hother.symm.trans h)
    exact Nat.one_pos
  · have hnone : (beforeStart upstreams).registry.upstreamMetrics.lookup name = none :=
      AList.lookup_insert_ne hname
    rw [hnone] at h
    exact absurd h (by simp)

/-- The steps of the start of an instance with so many upstreams whose address is in use. -/
def addressInUse (upstreams : ℕ) : List Event :=
  List.replicate (upstreams + 4) .step ++ [.bindFailed "Address already in use (os error 98)"]

/-- The address is in use: the upstream stays in the registry. -/
theorem failed_start_changes :
    ∃ s e, (machine .ok (fun _ => 0) (exampleConfig [])).run
      (beforeStart [⟨"backend", "127.0.0.1:9000", 1, 0, 5000⟩]) (addressInUse 1) = some s ∧
      s.pc = .finished (.error e) ∧
      ¬ (beforeStart [⟨"backend", "127.0.0.1:9000", 1, 0, 5000⟩]).Unchanged s :=
  ⟨_, _, rfl, rfl, fun h => absurd h.upstreamsTotal (by decide)⟩

/-- Without upstreams nothing stays but what was there. -/
theorem failed_start_unchanged_empty :
    ∃ s e, (machine .ok (fun _ => 0) (exampleConfig [])).run (beforeStart []) (addressInUse 0) =
      some s ∧ s.pc = .finished (.error e) ∧ (beforeStart []).Unchanged s ∧
      s.registry.upstreamMetrics.keys = ["other"] :=
  ⟨_, _, rfl, rfl, (@failed_start_unchanged_iff .ok (fun _ => 0) (exampleConfig [])
    (beforeStart []) _ (startedInstance []) [] (addressInUse 0) rfl (beforeStart_tracks []) rfl _
      rfl).mpr rfl, rfl⟩

end HarbrRouter.Startup
