import HarbrRouter.Lib.TaskPool
import HarbrRouter.Routing.Selection

/-!
# Concurrent calls on a router that hashes

`routing.rs`, a `Router` with the `ConsistentHashing` strategy under any number of concurrent calls.
A task is one call, at one of its program points; between two points lies one lock acquisition, one
write of the list or of a health field, or one health read of a rebuild. The guards of the two locks
are held exactly at the points that `holdsList` and `holdsRing` name.

**Theorem** (`inSync_of_settled`): in every state without an unfinished change the ring is the one
that a rebuild makes from the current list; in particular when no call is in flight
(`ring_eq_update_of_returned`).

The argument is about the last rebuild (`Consistent`): some call that changed the list or a health
has not started its rebuild yet, or the running rebuild has seen what is current so far, or nobody
rebuilds and the ring is in step. A step changes what a rebuild sees and leaves its call pending, or
begins, continues or ends a rebuild (`step_kinds`), and each of these keeps the disjunction
(`Inv.task`): a change during a rebuild cannot be before what that rebuild has read without being
pending behind it.
-/

set_option autoImplicit false

namespace HarbrRouter.Routing.Concurrent

open Transition TaskPool PointRing

/-! ## Calls and their program points -/

/-- What the calls share: the upstreams, and the contents of the router's two locks. During a
rebuild the ring is the partial one. -/
structure Shared where
  heap : Heap
  upstreams : List UpstreamRef
  hashRing : ConsistentHashRing

/-- A new router that hashes. Source: `routing.rs`, `Router::new` -/
def Shared.new : Shared := ⟨.empty, [], .new 150⟩

/-- A call. -/
inductive Call where
  | updateUpstreams (configs : List UpstreamConfig) (now : ℕ)
  | updateUpstreamHealth (name : String) (state : HealthState) (now : ℕ)
  | selectUpstream (sessionKey : String)

/-- A call at a program point: what it does next. -/
inductive Task where
  /-- `*self.upstreams.write() = upstreams` -/
  | storeList (configs : List UpstreamConfig) (now : ℕ)
  /-- `self.get_upstream_by_name(name)` -/
  | findUpstream (name : String) (state : HealthState) (now : ℕ)
  /-- `*self.health_state.write() = state` -/
  | storeHealth (upstream : UpstreamRef) (state : HealthState) (now : ℕ)
  /-- `*self.last_health_check.write() = Instant::now()` -/
  | storeCheckTime (upstream : UpstreamRef) (state : HealthState) (now : ℕ)
  /-- The change of `health_failures` -/
  | countFailure (upstream : UpstreamRef) (state : HealthState)
  /-- `self.upstreams.read()`, before a rebuild -/
  | readList
  /-- `self.hash_ring.write()`, holding the list -/
  | lockRing
  /-- The outer loop of `ConsistentHashRing::update` at an index, holding the list and the ring -/
  | rebuilding (upstreamIdx : ℕ)
  /-- The end of an update. -/
  | updated
  /-- `self.upstreams.read()`, before a selection -/
  | readSelection (sessionKey : String)
  /-- `self.hash_ring.read()` and the lookup, holding the list -/
  | lookup (sessionKey : String)
  /-- The end of a selection. -/
  | selected (answer : Option UpstreamRef)
deriving DecidableEq

/-- Does the task hold a read guard of the list? -/
def Task.holdsList : Task → Bool
  | .lockRing | .rebuilding _ | .lookup _ => true
  | _ => false

/-- Does the task hold the write guard of the ring? -/
def Task.holdsRing : Task → Bool
  | .rebuilding _ => true
  | _ => false

/-- Has the task changed the list or a health, with its rebuild still to begin? -/
def Task.pending : Task → Bool
  | .storeCheckTime .. | .countFailure .. | .readList | .lockRing => true
  | _ => false

/-- Has the task changed the list or a health, with its rebuild still to end? -/
def Task.unsettled (t : Task) : Bool := t.pending || t.holdsRing

/-- Has the call returned? -/
def Task.returned : Task → Bool
  | .updated | .selected _ => true
  | _ => false

/-- The first program point of a call. -/
def Call.start : Call → Task
  | .updateUpstreams configs now => .storeList configs now
  | .updateUpstreamHealth name state now => .findUpstream name state now
  | .selectUpstream sessionKey => .readSelection sessionKey

section system

variable (hashKey : String → U64) (search : BinarySearch U64)

/-- One step of a task beside the others. A write of the list waits for the readers of the list, and
whoever wants the ring waits for the rebuild that holds it.
Source: `routing.rs`, `Router::update_upstreams`, `Router::update_upstream_health`,
`UpstreamInfo::set_health_state`, `ConsistentHashRing::update`, `Router::select_upstream` and
`Router::select_consistent_hash` -/
def Task.step (tasks : List Task) (sh : Shared) : Task → Option (Shared × Task)
  | .storeList configs now =>
      if tasks.any Task.holdsList then none
      else
        let (heap, upstreams) := sh.heap.alloc (configs.map fun config => .new config now)
        some ({ sh with heap, upstreams }, .readList)
  | .findUpstream name state now =>
      match sh.upstreams.find? fun r => (sh.heap.get r).config.name = name with
      | some r => some (sh, .storeHealth r state now)
      | none => some (sh, .updated)
  | .storeHealth r state now =>
      some ({ sh with heap := sh.heap.modify r fun u => { u with healthState := state } },
        .storeCheckTime r state now)
  | .storeCheckTime r state now =>
      some ({ sh with heap := sh.heap.modify r fun u => { u with lastHealthCheck := now } },
        .countFailure r state)
  | .countFailure r state =>
      some ({ sh with heap := sh.heap.modify r fun u => u.countHealthFailure state }, .readList)
  | .readList => some (sh, .lockRing)
  | .lockRing =>
      if tasks.any Task.holdsRing then none
      else some ({ sh with hashRing := sh.hashRing.clear }, .rebuilding 0)
  | .rebuilding upstreamIdx =>
      match sh.upstreams[upstreamIdx]? with
      | some r =>
          let hashRing := sh.hashRing.addUpstream hashKey upstreamIdx
            (sh.heap.get r).config.name (sh.heap.isAvailable r)
          some ({ sh with hashRing }, .rebuilding (upstreamIdx + 1))
      | none => some ({ sh with hashRing := sh.hashRing.sort }, .updated)
  | .updated => none
  | .readSelection sessionKey =>
      if sh.upstreams.isEmpty then some (sh, .selected none) else some (sh, .lookup sessionKey)
  | .lookup sessionKey =>
      if tasks.any Task.holdsRing then none
      else some (sh, .selected
        (Router.selectConsistentHash hashKey search sh.hashRing sh.upstreams sessionKey))
  | .selected _ => none

/-- A task moves, or a call comes in. -/
inductive Event where
  | step
  | call (c : Call)

/-- Any number of concurrent calls on one router. -/
def system : System Shared Task Event where
  act tasks sh t
    | .step => (t.step hashKey search tasks sh).map fun r => (r.1, r.2, [])
    | .call _ => none
  env sh
    | .step => none
    | .call c => some (sh, [c.start])

/-- The machine of the interleavings. -/
abbrev machine : Machine (Pool Shared Task) (Sched Event) := (system hashKey search).machine

/-- A new router without calls. -/
def initial : Pool Shared Task := ⟨.new, []⟩

/-! ## What a step does -/

variable {hashKey search}

/-- The list as a rebuild sees it: names and availability. -/
def Shared.views (sh : Shared) : List (String × Bool) :=
  (Router.infos sh.heap sh.upstreams).map UpstreamInfo.ringView

/-- **What one step of a task does to the ring and to what a rebuild sees.** It leaves both alone
(and a pending change stays pending); or it makes a change and is pending from then on; or it
begins a rebuild, which nobody else is doing; or it adds the next upstream; or it ends its
rebuild. -/
theorem step_kinds {tasks : List Task} {sh sh' : Shared} {t t' : Task}
    (h : t.step hashKey search tasks sh = some (sh', t')) :
    (sh'.hashRing = sh.hashRing ∧ t.holdsRing = false ∧ t'.holdsRing = false ∧
        (t'.pending = true ∨ sh'.views = sh.views ∧ t.pending = false)) ∨
      (t = .lockRing ∧ t' = .rebuilding 0 ∧ sh'.hashRing = sh.hashRing.clear ∧
        ∀ u ∈ tasks, u.holdsRing = false) ∨
      (∃ idx r, t = .rebuilding idx ∧ sh.upstreams[idx]? = some r ∧ t' = .rebuilding (idx + 1) ∧
        sh'.hashRing = sh.hashRing.addUpstream hashKey idx
          (sh.heap.get r).config.name (sh.heap.isAvailable r) ∧ sh'.views = sh.views) ∨
      ∃ idx, t = .rebuilding idx ∧ sh.upstreams[idx]? = none ∧ t' = .updated ∧
        sh'.hashRing = sh.hashRing.sort ∧ sh'.views = sh.views := by
  cases t with
  | storeList configs now =>
      simp only [Task.step] at h
      split_ifs at h
      obtain ⟨rfl, rfl⟩ := Prod.mk.inj (Option.some.inj h)
      exact Or.inl ⟨rfl, rfl, rfl, Or.inl rfl⟩
  | findUpstream name state now =>
      simp only [Task.step] at h
      split at h
      all_goals
        obtain ⟨rfl, rfl⟩ := Prod.mk.inj (Option.some.inj h)
        exact Or.inl ⟨rfl, rfl, rfl, Or.inr ⟨rfl, rfl⟩⟩
  | storeHealth r state now =>
      obtain ⟨rfl, rfl⟩ := Prod.mk.inj (Option.some.inj h)
      exact Or.inl ⟨rfl, rfl, rfl, Or.inl rfl⟩
  | storeCheckTime r state now =>
      obtain ⟨rfl, rfl⟩ := Prod.mk.inj (Option.some.inj h)
      exact Or.inl ⟨rfl, rfl, rfl, Or.inl rfl⟩
  | countFailure r state =>
      obtain ⟨rfl, rfl⟩ := Prod.mk.inj (Option.some.inj h)
      exact Or.inl ⟨rfl, rfl, rfl, Or.inl rfl⟩
  | readList =>
      obtain ⟨rfl, rfl⟩ := Prod.mk.inj (Option.some.inj h)
      exact Or.inl ⟨rfl, rfl, rfl, Or.inl rfl⟩
  | lockRing =>
      simp only [Task.step] at h
      split_ifs at h with hheld
      obtain ⟨rfl, rfl⟩ := Prod.mk.inj (Option.some.inj h)
      refine Or.inr (Or.inl ⟨rfl, rfl, rfl, fun u hu => ?_⟩)
      simpa using fun hr => hheld (List.any_eq_true.mpr ⟨u, hu, hr⟩)
  | rebuilding idx =>
      simp only [Task.step] at h
      split at h
      · next r hr =>
          obtain ⟨rfl, rfl⟩ := Prod.mk.inj (Option.some.inj h)
          exact Or.inr (Or.inr (Or.inl ⟨idx, r, rfl, hr, rfl, rfl, rfl⟩))
      · next hr =>
          obtain ⟨rfl, rfl⟩ := Prod.mk.inj (Option.some.inj h)
          exact Or.inr (Or.inr (Or.inr ⟨idx, rfl, hr, rfl, rfl, rfl⟩))
  | readSelection sessionKey =>
      simp only [Task.step] at h
      split_ifs at h
      all_goals
        obtain ⟨rfl, rfl⟩ := Prod.mk.inj (Option.some.inj h)
        exact Or.inl ⟨rfl, rfl, rfl, Or.inr ⟨rfl, rfl⟩⟩
  | lookup sessionKey =>
      simp only [Task.step] at h
      split_ifs at h
      obtain ⟨rfl, rfl⟩ := Prod.mk.inj (Option.some.inj h)
      exact Or.inl ⟨rfl, rfl, rfl, Or.inr ⟨rfl, rfl⟩⟩
  | updated => exact absurd h (by simp [Task.step])
  | selected answer => exact absurd h (by simp [Task.step])

/-- What one step of the machine does: a task moves, or a call comes in at its first point. -/
theorem machine_step {p p' : Pool Shared Task} {e : Sched Event}
    (h : (machine hashKey search).step p e = some p') :
    (∃ i t sh t', e = .task i .step ∧ p.tasks[i]? = some t ∧
        t.step hashKey search p.tasks p.shared = some (sh, t') ∧
        p' = ⟨sh, p.tasks.set i t' ++ []⟩) ∨
      ∃ c : Call, e = .env (.call c) ∧ p' = ⟨p.shared, p.tasks ++ [c.start]⟩ := by
  rcases (system hashKey search).step_cases h with ⟨i, e, t, sh, t', new, rfl, ht, hact, rfl⟩ |
    ⟨e, sh, new, rfl, henv, rfl⟩
  · cases e with
    | step =>
        obtain ⟨⟨sh₁, t₁⟩, hstep, heq⟩ := Option.map_eq_some_iff.mp hact
        obtain ⟨rfl, rfl, rfl⟩ : sh₁ = sh ∧ t₁ = t' ∧ [] = new := by simpa using heq
        exact Or.inl ⟨i, t, sh₁, t₁, rfl, ht, hstep, rfl⟩
    | call c => exact absurd hact (by simp [system])
  · cases e with
    | step => exact absurd henv (by simp [system])
    | call c =>
        obtain ⟨rfl, rfl⟩ : p.shared = sh ∧ [c.start] = new := by simpa [system] using henv
        exact Or.inr ⟨c, rfl, rfl⟩

/-- A call holds nothing and has changed nothing when it comes in. -/
theorem Call.start_idle (c : Call) : c.start.holdsRing = false ∧ c.start.pending = false := by
  cases c <;> exact ⟨rfl, rfl⟩

/-! ## The last rebuild -/

variable (hashKey)

/-- The ring is the one that a rebuild makes from the current list. -/
def InSync (sh : Shared) : Prop :=
  sh.hashRing = (ConsistentHashRing.new 150).update hashKey (Router.infos sh.heap sh.upstreams)

/-- The partial ring holds the nodes of the upstreams before an index, as they are now. -/
def BuiltUpTo (idx : ℕ) (sh : Shared) : Prop :=
  sh.hashRing = .ofNodes 150
    (ringNodes hashKey 150 ((Router.infos sh.heap sh.upstreams).take idx))

/-- Some call that made a change has not started its rebuild, or the running rebuild has seen
what is current up to its index, or nobody rebuilds and the ring is in step. -/
def Consistent (p : Pool Shared Task) : Prop :=
  (∃ t ∈ p.tasks, t.pending = true) ∨
    (∃ idx, Task.rebuilding idx ∈ p.tasks ∧ BuiltUpTo hashKey idx p.shared) ∨
    ((∀ t ∈ p.tasks, t.holdsRing = false) ∧ InSync hashKey p.shared)

/-- The invariant of the interleavings: the rebuilds exclude each other and are consistent. -/
structure Inv (p : Pool Shared Task) : Prop where
  virtualNodes : p.shared.hashRing.virtualNodesPerUpstream = 150
  exclusive : AtMostOne (fun t : Task => t.holdsRing = true) p.tasks
  consistent : Consistent hashKey p

variable {hashKey}

/-- What a rebuild does not see does not make a ring stale. -/
theorem InSync.congr {sh sh' : Shared} (h : InSync hashKey sh) (hring : sh'.hashRing = sh.hashRing)
    (hviews : sh'.views = sh.views) : InSync hashKey sh' := by
  rw [InSync, hring, h]
  exact ConsistentHashRing.update_congr hashKey rfl hviews.symm

/-- What a rebuild does not see does not make a partial ring stale. -/
theorem BuiltUpTo.congr {idx : ℕ} {sh sh' : Shared} (h : BuiltUpTo hashKey idx sh)
    (hring : sh'.hashRing = sh.hashRing) (hviews : sh'.views = sh.views) :
    BuiltUpTo hashKey idx sh' := by
  rw [BuiltUpTo, hring, h]
  congr 1
  apply ringNodes_congr hashKey 150
  rw [List.map_take, List.map_take]
  exact congrArg (List.take idx) hviews.symm

/-- The next upstream extends the partial ring. -/
theorem BuiltUpTo.add {idx : ℕ} {sh sh' : Shared} {r : UpstreamRef} (h : BuiltUpTo hashKey idx sh)
    (hr : sh.upstreams[idx]? = some r)
    (hring : sh'.hashRing = sh.hashRing.addUpstream hashKey idx (sh.heap.get r).config.name
      (sh.heap.isAvailable r)) (hviews : sh'.views = sh.views) :
    BuiltUpTo hashKey (idx + 1) sh' := by
  suffices hnext : BuiltUpTo hashKey (idx + 1) { sh with hashRing := sh'.hashRing } from
    hnext.congr rfl hviews
  obtain ⟨hlt, -⟩ := List.getElem?_eq_some_iff.mp hr
  have hlen : ((Router.infos sh.heap sh.upstreams).take idx).length = idx := by
    simp [Router.infos, Nat.min_eq_left hlt.le]
  have htake : (Router.infos sh.heap sh.upstreams).take (idx + 1) =
      (Router.infos sh.heap sh.upstreams).take idx ++ [sh.heap.get r] := by
    rw [List.take_add_one]
    simp [Router.infos, hr]
  rw [BuiltUpTo, hring, h, ConsistentHashRing.addUpstream_ofNodes]
  simp only [htake, ringNodes_concat, hlen, Heap.isAvailable]

/-- At the end of the list the sorted ring is in step. -/
theorem BuiltUpTo.finish {idx : ℕ} {sh sh' : Shared} (h : BuiltUpTo hashKey idx sh)
    (hend : sh.upstreams[idx]? = none) (hring : sh'.hashRing = sh.hashRing.sort)
    (hviews : sh'.views = sh.views) : InSync hashKey sh' := by
  suffices hlast : InSync hashKey { sh with hashRing := sh'.hashRing } from hlast.congr rfl hviews
  have htake : (Router.infos sh.heap sh.upstreams).take idx =
      Router.infos sh.heap sh.upstreams := by
    apply List.take_of_length_le
    simpa [Router.infos] using hend
  rw [BuiltUpTo, htake] at h
  rw [InSync, ConsistentHashRing.update_eq]
  simp only [hring, h]
  rfl

/-- A call that comes in keeps the invariant. -/
theorem Inv.call {p : Pool Shared Task} (h : Inv hashKey p) (c : Call) :
    Inv hashKey ⟨p.shared, p.tasks ++ [c.start]⟩ := by
  obtain ⟨hring, hpending⟩ := c.start_idle
  refine ⟨h.virtualNodes, h.exclusive.append (by simp [hring]), ?_⟩
  rcases h.consistent with ⟨t, ht, hp⟩ | ⟨idx, hidx, hbuilt⟩ | ⟨hfree, hsync⟩
  · exact Or.inl ⟨t, List.mem_append_left _ ht, hp⟩
  · exact Or.inr (Or.inl ⟨idx, List.mem_append_left _ hidx, hbuilt⟩)
  · refine Or.inr (Or.inr ⟨fun t ht => ?_, hsync⟩)
    rcases List.mem_append.mp ht with ht | ht
    · exact hfree t ht
    · rwa [List.mem_singleton.mp ht]

/-- A step of a task keeps the invariant. -/
theorem Inv.task {p : Pool Shared Task} {i : ℕ} {t t' : Task} {sh : Shared} (h : Inv hashKey p)
    (ht : p.tasks[i]? = some t) (hstep : t.step hashKey search p.tasks p.shared = some (sh, t')) :
    Inv hashKey ⟨sh, p.tasks.set i t' ++ []⟩ := by
  have hmem : t ∈ p.tasks := List.mem_of_getElem? ht
  -- the calls that are not at `t`'s point are still there, and the one that moved is at `t'`
  have hstay : ∀ u ∈ p.tasks, u ≠ t → u ∈ p.tasks.set i t' ++ [] := fun u hu hne =>
    mem_set_append_of_ne ht hu hne t' []
  have hself : t' ∈ p.tasks.set i t' ++ [] := mem_set_append_self ht t' []
  have hmembers : ∀ u ∈ p.tasks.set i t' ++ [], u = t' ∨ u ∈ p.tasks := fun u hu => by
    rcases mem_set_append hu with hu | hu | hu
    · exact Or.inl hu
    · exact Or.inr hu
    · exact absurd hu List.not_mem_nil
  rcases step_kinds hstep with ⟨hring, hfree, hfree', hkind⟩ | ⟨rfl, rfl, hring, hnone⟩ |
    ⟨idx, r, rfl, hr, rfl, hring, hviews⟩ | ⟨idx, rfl, hend, rfl, hring, hviews⟩
  · refine ⟨by rw [hring]; exact h.virtualNodes,
      h.exclusive.set_append ht (by simp) (by simp [hfree']), ?_⟩
    rcases hkind with hpending | ⟨hviews, hpending⟩
    · exact Or.inl ⟨t', hself, hpending⟩
    · rcases h.consistent with ⟨u, hu, hp⟩ | ⟨idx, hidx, hbuilt⟩ | ⟨hnone, hsync⟩
      · refine Or.inl ⟨u, hstay u hu ?_, hp⟩
        rintro rfl
        rw [hpending] at hp
        exact absurd hp (by decide)
      · refine Or.inr (Or.inl ⟨idx, hstay _ hidx ?_, hbuilt.congr hring hviews⟩)
        rintro rfl
        exact absurd hfree (by simp [Task.holdsRing])
      · refine Or.inr (Or.inr ⟨fun u hu => ?_, hsync.congr hring hviews⟩)
        rcases hmembers u hu with rfl | hu
        · exact hfree'
        · exact hnone u hu
  · -- a rebuild begins: with nothing built, there is nothing to be stale
    refine ⟨by rw [hring]; exact h.virtualNodes,
      h.exclusive.set_append ht (by simp) fun _ => Or.inr (by simpa using hnone), ?_⟩
    refine Or.inr (Or.inl ⟨0, hself, ?_⟩)
    rw [BuiltUpTo, hring, ConsistentHashRing.clear_eq, h.virtualNodes]
    rfl
  · refine ⟨by rw [hring]; simpa using h.virtualNodes,
      h.exclusive.set_append ht (by simp) fun _ => Or.inl rfl, ?_⟩
    rcases h.consistent with ⟨u, hu, hp⟩ | ⟨idx', hidx', hbuilt⟩ | ⟨hnone, -⟩
    · refine Or.inl ⟨u, hstay u hu ?_, hp⟩
      rintro rfl
      exact absurd hp (by simp [Task.pending])
    · -- the rebuild that was consistent is the one that moved
      obtain ⟨j, hj⟩ := List.getElem?_of_mem hidx'
      obtain rfl := h.exclusive i j _ _ ht hj rfl rfl
      obtain rfl : idx' = idx := by simpa using hj.symm.trans ht
      exact Or.inr (Or.inl ⟨_, hself, hbuilt.add hr hring hviews⟩)
    · exact absurd (hnone _ hmem) (by simp [Task.holdsRing])
  · refine ⟨by rw [hring]; exact h.virtualNodes,
      h.exclusive.set_append ht (by simp) (by simp [Task.holdsRing]), ?_⟩
    rcases h.consistent with ⟨u, hu, hp⟩ | ⟨idx', hidx', hbuilt⟩ | ⟨hnone, -⟩
    · refine Or.inl ⟨u, hstay u hu ?_, hp⟩
      rintro rfl
      exact absurd hp (by simp [Task.pending])
    · obtain ⟨j, hj⟩ := List.getElem?_of_mem hidx'
      obtain rfl := h.exclusive i j _ _ ht hj rfl rfl
      obtain rfl : idx' = idx := by simpa using hj.symm.trans ht
      refine Or.inr (Or.inr ⟨fun u hu => ?_, hbuilt.finish hend hring hviews⟩)
      obtain ⟨k, hk⟩ := List.getElem?_of_mem hu
      rcases getElem?_set_append hk with ⟨-, rfl⟩ | ⟨hki, hk⟩ | ⟨-, hk⟩
      · rfl
      · by_contra hheld
        exact hki (h.exclusive k i _ _ hk ht (by simpa using hheld) rfl)
      · exact absurd hk List.not_mem_nil
    · exact absurd (hnone _ hmem) (by simp [Task.holdsRing])

/-- The invariant holds in every reachable state. -/
theorem inv_of_run {es : List (Sched Event)} {p : Pool Shared Task}
    (hrun : (machine hashKey search).run initial es = some p) : Inv hashKey p := by
  refine (machine hashKey search).run_preserves (I := Inv hashKey) ?_ ?_ hrun
  · intro q e q' hq hstep
    rcases machine_step hstep with ⟨i, t, sh, t', rfl, ht, htask, rfl⟩ | ⟨c, rfl, rfl⟩
    · exact hq.task ht htask
    · exact hq.call c
  · refine ⟨rfl, fun i j t u hi => by simp [initial] at hi, Or.inr (Or.inr ⟨by simp [initial], ?_⟩)⟩
    rw [InSync, ConsistentHashRing.update_eq]
    rfl

/-- **No rebuild is lost.** In every state that any interleaving of calls reaches, if no call is
between its change and the end of its rebuild, the ring is the one that a rebuild makes from the
current list with its current health. -/
theorem inSync_of_settled {es : List (Sched Event)} {p : Pool Shared Task}
    (hrun : (machine hashKey search).run initial es = some p)
    (hsettled : ∀ t ∈ p.tasks, t.unsettled = false) : InSync hashKey p.shared := by
  simp only [Task.unsettled, Bool.or_eq_false_iff] at hsettled
  rcases (inv_of_run hrun).consistent with ⟨t, ht, hp⟩ | ⟨idx, hidx, -⟩ | ⟨-, hsync⟩
  · rw [(hsettled t ht).1] at hp
    exact absurd hp (by decide)
  · exact absurd (hsettled _ hidx).2 (by simp [Task.holdsRing])
  · exact hsync

/-- **The ring at rest.** In every state that any interleaving of calls reaches, if all calls have
returned, the ring is the one that `ConsistentHashRing::update` builds from the current list with
its current health. -/
theorem ring_eq_update_of_returned {es : List (Sched Event)} {p : Pool Shared Task}
    (hrun : (machine hashKey search).run initial es = some p)
    (hreturned : ∀ t ∈ p.tasks, t.returned = true) :
    p.shared.hashRing = (ConsistentHashRing.new 150).update hashKey
      (Router.infos p.shared.heap p.shared.upstreams) := by
  refine inSync_of_settled hrun fun t ht => ?_
  have hret := hreturned t ht
  cases t with
  | updated => rfl
  | selected answer => rfl
  | _ => exact absurd hret (by simp [Task.returned])

end system

/-- A configuration for examples: one upstream named `a`. -/
def upstreamA : UpstreamConfig := ⟨"a", "a:80", 1, 0, 5000⟩

/-- A configuration for examples: one upstream named `b`. -/
def upstreamB : UpstreamConfig := ⟨"b", "b:80", 1, 0, 5000⟩

/-- A report that the second of two upstreams is unhealthy comes in between the list write and the
rebuild of an update; it rebuilds first. -/
def crossedUpdates : List (Sched Event) :=
  [.env (.call (.updateUpstreams [upstreamA, upstreamB] 0)), .task 0 .step,
    .env (.call (.updateUpstreamHealth "b" .unhealthy 1)), .task 1 .step, .task 1 .step,
    .task 0 .step] ++ List.replicate 7 (.task 1 .step) ++ List.replicate 4 (.task 0 .step)

/-- The ring at rest after crossed updates has the nodes of the upstream that is available. -/
theorem ring_eq_update_of_returned_crossed :
    ∃ p, (machine (fun _ => 0) (BinarySearch.linear U64)).run initial crossedUpdates = some p ∧
      p.tasks.length = 2 ∧ p.shared.hashRing = (ConsistentHashRing.new 150).update (fun _ => 0)
        (Router.infos p.shared.heap p.shared.upstreams) ∧
      p.shared.upstreams.map p.shared.heap.isAvailable = [true, false] ∧
      p.shared.hashRing.ring 0 = some 0 ∧ p.shared.hashRing.sortedHashes.length = 150 := by
  have hend : ((machine (fun _ => 0) (BinarySearch.linear U64)).run initial crossedUpdates).map
      (fun p => (p.tasks, p.shared.upstreams.map p.shared.heap.isAvailable,
        p.shared.hashRing.ring 0, p.shared.hashRing.sortedHashes.length)) =
      some ([.updated, .updated], [true, false], some 0, 150) := by decide +kernel
  obtain ⟨p, hp, hresult⟩ := Option.map_eq_some_iff.mp hend
  obtain ⟨htasks, havailable, hring, hhashes⟩ : _ ∧ _ ∧ _ ∧ _ := by simpa using hresult
  refine ⟨p, hp, by rw [htasks]; rfl, ring_eq_update_of_returned hp fun t ht => ?_, havailable,
    hring, hhashes⟩
  rw [htasks] at ht
  revert t
  decide

end HarbrRouter.Routing.Concurrent
