import HarbrRouter.Lib.Rotation
import HarbrRouter.Lib.TaskPool
import HarbrRouter.Routing.Selection

/-!
# Fairness of the rotating strategies under concurrent calls

`routing.rs`, any number of concurrent `select_upstream` calls on a router whose list and health
states stay as they are. A task is one call, at one of its program points; the only write of a
selection is its `fetch_add` on the rotation counter, a step of its own. What the proxies record
about upstreams may change between any two steps.

**Theorem** (`rotation_fair`): each available upstream is selected in every turn of the rotation,
once for each unit of its weight, and in no more turns than were begun.

What the calls past their `fetch_add` answer is a window of the rotation, in some order, and the
counter stands at the window's end (`Handed`): a step hands out what the counter points to and moves
it on, or leaves both alone (`step_kinds`). So what the calls answered depends on where the counter
started and on their number only (`answers_perm_window`), and how often an upstream is among it are
the bounds on windows of the library.
-/

set_option autoImplicit false

namespace HarbrRouter.Routing.Fairness

open Transition TaskPool PointRing Rotation

/-! ## Calls and their program points -/

/-- A program point of `select_upstream`: what the call does next. -/
inductive Pc where
  /-- The match on the strategy, holding the list, up to the filtered or expanded list -/
  | entered
  /-- `self.rr_counter.fetch_add(1)`, unless the list is empty -/
  | rotating (list : List UpstreamRef)
  /-- `list[ticket % list.len()]` -/
  | picking (list : List UpstreamRef) (ticket : ℕ)
  /-- The end of the call. -/
  | returned (answer : Option UpstreamRef)
deriving DecidableEq

/-- A call of `select_upstream`. -/
structure Task where
  sessionKey : Option String
  pc : Pc
deriving DecidableEq

/-- Does a call with this session key rotate?
Source: `routing.rs`, `Router::select_upstream` -/
def rotates (strategy : LoadBalancingStrategy) (sessionKey : Option String) : Bool :=
  match strategy, sessionKey with
  | .roundRobin, _ | .weightedRoundRobin, _ | .consistentHashing, none => true
  | _, _ => false

/-- The list that a rotating call goes through.
Source: `routing.rs`, `Router::select_round_robin` and `Router::select_weighted_round_robin` -/
def turn (heap : Heap) (router : Router) : List UpstreamRef :=
  match router.strategy with
  | .weightedRoundRobin => (router.upstreams.filter heap.isAvailable).flatMap fun r =>
      List.replicate (max (heap.get r).config.weight 1) r
  | _ => router.upstreams.filter heap.isAvailable

section system

variable (F : Type) [ScoreArith F] (hashKey : String → U64) (search : BinarySearch U64)

/-- The match on the strategy. A selection that does not rotate is one step here: the fields it
reads are those of a list and a ring that stay, and its only write, if any, is one `fetch_add`.
Source: `routing.rs`, `Router::select_upstream` -/
def enter (w : World) (sessionKey : Option String) : World × Pc :=
  if w.router.upstreams.isEmpty then (w, .returned none)
  else if rotates w.router.strategy sessionKey then (w, .rotating (turn w.heap w.router))
  else
    let (router, answer) := w.router.selectUpstream F hashKey search w.heap sessionKey
    ({ w with router }, .returned answer)

/-- One step of a call. Source: `routing.rs`, `Router::select_upstream`,
`Router::select_round_robin` and `Router::select_weighted_round_robin` -/
def Task.step (w : World) (t : Task) : Option (World × Task) :=
  match t.pc with
  | .entered =>
      let (w, pc) := enter F hashKey search w t.sessionKey
      some (w, { t with pc })
  | .rotating list =>
      if list.isEmpty then some (w, { t with pc := .returned none })
      else some ({ w with router := w.router.bumpCounter },
        { t with pc := .picking list w.router.rrCounter })
  | .picking list ticket => some (w, { t with pc := .returned list[ticket % list.length]? })
  | .returned _ => none

/-- A call moves, a call comes in, or the statistics of an upstream become others. -/
inductive Event where
  | step
  | call (sessionKey : Option String)
  | record (upstream : UpstreamRef) (stats : UpstreamStats)

/-- Concurrent selections on a router with a fixed list and fixed health states. -/
def system : System World Task Event where
  act _ w t
    | .step => (t.step F hashKey search w).map fun r => (r.1, r.2, [])
    | _ => none
  env w
    | .step => none
    | .call sessionKey => some (w, [⟨sessionKey, .entered⟩])
    | .record r stats => some (w.modifyStats r fun _ => stats, [])

/-- The machine of the interleavings. -/
abbrev machine : Machine (Pool World Task) (Sched Event) := (system F hashKey search).machine

/-! ## One call, alone -/

/-- A rotating call of the router is a rotation through its turn. -/
theorem selectUpstream_eq_rotate {w : World} {sessionKey : Option String}
    (hne : w.router.upstreams ≠ []) (hrot : rotates w.router.strategy sessionKey = true) :
    w.router.selectUpstream F hashKey search w.heap sessionKey =
      w.router.rotate (turn w.heap w.router) := by
  unfold Router.selectUpstream turn
  rw [if_neg (by simpa using hne)]
  cases hs : w.router.strategy with
  | roundRobin => rfl
  | weightedRoundRobin => rfl
  | leastConnections => simp [rotates, hs] at hrot
  | consistentHashing =>
      cases sessionKey with
      | none => rfl
      | some key => simp [rotates, hs] at hrot
  | healthAware => simp [rotates, hs] at hrot

/-- A call that runs alone does what `selectUpstream` does, in at most three steps. -/
theorem run_alone (w : World) (sessionKey : Option String) :
    ∃ n ≤ 3, (machine F hashKey search).run ⟨w, [⟨sessionKey, .entered⟩]⟩
        (List.replicate n (.task 0 .step)) =
      some ⟨{ w with router := (w.router.selectUpstream F hashKey search w.heap sessionKey).1 },
        [⟨sessionKey, .returned
          (w.router.selectUpstream F hashKey search w.heap sessionKey).2⟩]⟩ := by
  by_cases hempty : w.router.upstreams = []
  · refine ⟨1, by decide, ?_⟩
    simp [system, System.machine, System.next, Task.step, enter, hempty, Router.selectUpstream]
  · by_cases hrot : rotates w.router.strategy sessionKey = true
    · rw [selectUpstream_eq_rotate F hashKey search hempty hrot]
      unfold Router.rotate
      split_ifs with hturn
      · refine ⟨2, by decide, ?_⟩
        have hturn : turn w.heap w.router = [] := by simpa using hturn
        simp [List.replicate, Machine.run_cons, system, System.machine, System.next, Task.step,
          enter, hempty, hrot, hturn]
      · refine ⟨3, by decide, ?_⟩
        have hturn : turn w.heap w.router ≠ [] := by simpa using hturn
        simp [List.replicate, Machine.run_cons, system, System.machine, System.next, Task.step,
          enter, hempty, hrot, hturn]
    · refine ⟨1, by decide, ?_⟩
      simp [system, System.machine, System.next, Task.step, enter, hempty, hrot]

end system

/-! ## What a step hands out -/

/-- What a rotating call answers, once that is settled: from its `fetch_add` on. -/
def Task.settled (strategy : LoadBalancingStrategy) (t : Task) : Option (Option UpstreamRef) :=
  if rotates strategy t.sessionKey then
    match t.pc with
    | .picking list ticket => some list[ticket % list.length]?
    | .returned answer => some answer
    | .entered | .rotating _ => none
  else none

/-- A call that is about to rotate does so through the current turn, and its strategy says so. -/
def Task.Ready (w : World) (t : Task) : Prop :=
  ∀ list, t.pc = .rotating list →
    list = turn w.heap w.router ∧ rotates w.router.strategy t.sessionKey = true

section steps

variable {F : Type} [ScoreArith F] {hashKey : String → U64} {search : BinarySearch U64}

/-- Without upstreams the turn is empty. -/
theorem turn_eq_nil {w : World} (h : w.router.upstreams = []) : turn w.heap w.router = [] := by
  unfold turn
  rw [h]
  cases w.router.strategy <;> rfl

/-- With a strategy that rotates for calls without a session key, the other calls write nothing. -/
theorem selectUpstream_fst_of_not_rotates {w : World} {sessionKey : Option String}
    (hs : rotates w.router.strategy none = true)
    (hrot : ¬ rotates w.router.strategy sessionKey = true) :
    (w.router.selectUpstream F hashKey search w.heap sessionKey).1 = w.router := by
  unfold Router.selectUpstream
  split_ifs
  · rfl
  · cases hstrategy : w.router.strategy with
    | consistentHashing =>
        cases sessionKey with
        | none => exact absurd hs (hstrategy ▸ hrot)
        | some key => rfl
    | roundRobin => simp [rotates, hstrategy] at hrot
    | weightedRoundRobin => simp [rotates, hstrategy] at hrot
    | leastConnections => rfl
    | healthAware => simp [rotates, hstrategy] at hs

/-- **What one step of a call does to the rotation**: nothing; or it settles the call's answer as
what the counter points to, and the counter goes on, unless there is nothing to rotate through. -/
theorem step_kinds {w w' : World} {t t' : Task} (hs : rotates w.router.strategy none = true)
    (hready : t.Ready w) (h : t.step F hashKey search w = some (w', t')) :
    t'.Ready w ∧
      (w' = w ∧ t'.settled w.router.strategy = t.settled w.router.strategy ∨
        t.settled w.router.strategy = none ∧
          t'.settled w.router.strategy =
            some (turn w.heap w.router)[w.router.rrCounter % (turn w.heap w.router).length]? ∧
          (turn w.heap w.router = [] ∧ w' = w ∨
            w' = { w with router := w.router.bumpCounter })) := by
  obtain ⟨key, pc⟩ := t
  cases pc with
  | entered =>
      simp only [Task.step, Option.some.injEq, Prod.mk.injEq] at h
      obtain ⟨rfl, rfl⟩ := h
      unfold enter
      split_ifs with hempty hrot
      · have hturn : turn w.heap w.router = [] := turn_eq_nil (by simpa using hempty)
        refine ⟨fun list h => by simp at h, ?_⟩
        by_cases hrot : rotates w.router.strategy key = true
        · refine Or.inr ⟨by simp [Task.settled], ?_, Or.inl ⟨hturn, rfl⟩⟩
          simp [Task.settled, hrot, hturn]
        · exact Or.inl ⟨rfl, by simp [Task.settled, hrot]⟩
      · refine ⟨fun list h => ?_, Or.inl ⟨rfl, by simp [Task.settled]⟩⟩
        exact ⟨(Pc.rotating.inj h).symm, hrot⟩
      · refine ⟨fun list h => by simp at h, Or.inl ⟨?_, by simp [Task.settled, hrot]⟩⟩
        simp only [selectUpstream_fst_of_not_rotates hs hrot]
  | rotating list =>
      obtain ⟨rfl, hrot⟩ := hready list rfl
      simp only [Task.step] at h
      split_ifs at h with hempty
      · obtain ⟨rfl, rfl⟩ := Prod.mk.inj (Option.some.inj h)
        have hturn : turn w.heap w.router = [] := by simpa using hempty
        refine ⟨fun list h => by simp at h, Or.inr ⟨by simp [Task.settled], ?_, ?_⟩⟩
        · simp [Task.settled, show rotates w.router.strategy key = true from hrot, hturn]
        · exact Or.inl ⟨hturn, rfl⟩
      · obtain ⟨rfl, rfl⟩ := Prod.mk.inj (Option.some.inj h)
        refine ⟨fun list h => by simp at h, Or.inr ⟨by simp [Task.settled], ?_, Or.inr rfl⟩⟩
        simp [Task.settled, show rotates w.router.strategy key = true from hrot]
  | picking list ticket =>
      simp only [Task.step, Option.some.injEq, Prod.mk.injEq] at h
      obtain ⟨rfl, rfl⟩ := h
      exact ⟨fun list h => by simp at h, Or.inl ⟨rfl, by simp [Task.settled]⟩⟩
  | returned answer => simp [Task.step] at h

/-- What one step of the machine does: a call moves, a call comes in, or statistics change. -/
theorem machine_step {p p' : Pool World Task} {e : Sched Event}
    (h : (machine F hashKey search).step p e = some p') :
    (∃ i t w t', p.tasks[i]? = some t ∧ t.step F hashKey search p.shared = some (w, t') ∧
        p' = ⟨w, p.tasks.set i t'⟩) ∨
      (∃ sessionKey, p' = ⟨p.shared, p.tasks ++ [⟨sessionKey, .entered⟩]⟩) ∨
      ∃ r stats, p' = ⟨p.shared.modifyStats r fun _ => stats, p.tasks⟩ := by
  rcases (system F hashKey search).step_cases h with ⟨i, e, t, w, t', new, rfl, ht, hact, rfl⟩ |
    ⟨e, w, new, rfl, henv, rfl⟩
  · cases e with
    | step =>
        obtain ⟨⟨w₁, t₁⟩, hstep, heq⟩ := Option.map_eq_some_iff.mp hact
        obtain ⟨rfl, rfl, rfl⟩ : w₁ = w ∧ t₁ = t' ∧ [] = new := by simpa using heq
        exact Or.inl ⟨i, t, w₁, t₁, ht, hstep, by rw [List.append_nil]⟩
    | call key => simp [system] at hact
    | record r stats => simp [system] at hact
  · cases e with
    | step => simp [system] at henv
    | call key =>
        obtain ⟨rfl, rfl⟩ := Prod.mk.inj (Option.some.inj henv)
        exact Or.inr (Or.inl ⟨key, rfl⟩)
    | record r stats =>
        obtain ⟨rfl, rfl⟩ := Prod.mk.inj (Option.some.inj henv)
        exact Or.inr (Or.inr ⟨r, stats, by simp⟩)

/-- Statistics are not in the turn. -/
theorem turn_modifyStats (w : World) (r : UpstreamRef) (f : UpstreamStats → UpstreamStats) :
    turn (w.modifyStats r f).heap (w.modifyStats r f).router = turn w.heap w.router := by
  have hstats : ∀ u : UpstreamInfo, { u with stats := f u.stats }.isAvailable = u.isAvailable ∧
      { u with stats := f u.stats }.config = u.config := fun _ => ⟨rfl, rfl⟩
  have hfilter : (w.modifyStats r f).heap.isAvailable = w.heap.isAvailable := by
    funext r'
    exact Heap.get_modify_proj UpstreamInfo.isAvailable (fun u => (hstats u).1) w.heap r r'
  have hconfig : ∀ r', ((w.modifyStats r f).heap.get r').config = (w.heap.get r').config :=
    fun r' => Heap.get_modify_proj UpstreamInfo.config (fun u => (hstats u).2) w.heap r r'
  unfold turn
  simp only [hfilter, hconfig]
  rfl

/-! ## The invariant -/

/-- The calls past their `fetch_add` were handed a window of the rotation that began at `w`, in some
order, and the counter stands at the end of that window. -/
structure Handed (w : World) (p : Pool World Task) : Prop where
  strategy_eq : p.shared.router.strategy = w.router.strategy
  turn_eq : turn p.shared.heap p.shared.router = turn w.heap w.router
  ready : ∀ t ∈ p.tasks, t.Ready p.shared
  window : ∃ m, (p.tasks.filterMap (Task.settled w.router.strategy)).Perm
      ((List.range m).map fun k =>
        (turn w.heap w.router)[(w.router.rrCounter + k) % 2 ^ 64 %
          (turn w.heap w.router).length]?) ∧
    (turn w.heap w.router ≠ [] →
      p.shared.router.rrCounter = (w.router.rrCounter + m) % 2 ^ 64)

/-- Every step keeps the invariant. -/
theorem Handed.step {w : World} {p p' : Pool World Task} {e : Sched Event}
    (hs : rotates w.router.strategy none = true) (h : Handed w p)
    (hstep : (machine F hashKey search).step p e = some p') : Handed w p' := by
  obtain ⟨hstrategy, hturn, hready, m, hperm, hcounter⟩ := h
  rcases machine_step hstep with ⟨i, t, w', t', ht, htask, rfl⟩ | ⟨key, rfl⟩ | ⟨r, stats, rfl⟩
  · have hs' : rotates p.shared.router.strategy none = true := by rwa [hstrategy]
    have hcalls := filterMap_set_append (Task.settled w.router.strategy) ht t' []
    rw [List.filterMap_nil, List.append_nil, List.append_nil] at hcalls
    have hothers : ∀ w'' : World, turn w''.heap w''.router = turn p.shared.heap p.shared.router →
        w''.router.strategy = p.shared.router.strategy → t'.Ready p.shared →
        ∀ u ∈ p.tasks.set i t', u.Ready w'' := by
      intro w'' hturn'' hstrategy'' ht' u hu list hlist
      rw [hturn'', hstrategy'']
      rcases List.mem_or_eq_of_mem_set hu with hu | rfl
      · exact hready u hu list hlist
      · exact ht' list hlist
    obtain ⟨ht', hkind⟩ := step_kinds hs' (hready t (List.mem_of_getElem? ht)) htask
    rw [hstrategy] at hkind
    rcases hkind with ⟨rfl, hsettled⟩ | ⟨hunsettled, hsettled, hw⟩
    · refine ⟨hstrategy, hturn, hothers _ rfl rfl ht', m, ?_, hcounter⟩
      rw [hsettled] at hcalls
      exact ((List.perm_append_left_iff _).mp hcalls).trans hperm
    · rw [hunsettled, hsettled, hturn] at hcalls
      -- the answer that was settled is the next of the window
      have hnext : (turn w.heap w.router)[p.shared.router.rrCounter %
            (turn w.heap w.router).length]? =
          (turn w.heap w.router)[(w.router.rrCounter + m) % 2 ^ 64 %
            (turn w.heap w.router).length]? := by
        by_cases hnil : turn w.heap w.router = []
        · simp [hnil]
        · rw [hcounter hnil]
      have hwindow : ((p.tasks.set i t').filterMap (Task.settled w.router.strategy)).Perm
          ((List.range (m + 1)).map fun k => (turn w.heap w.router)[(w.router.rrCounter + k) %
            2 ^ 64 % (turn w.heap w.router).length]?) := by
        rw [List.range_succ, List.map_append, List.map_singleton, ← hnext]
        exact hcalls.trans ((List.perm_append_comm).trans (hperm.append_right _))
      rcases hw with ⟨hnil, rfl⟩ | rfl
      · exact ⟨hstrategy, hturn, hothers _ rfl rfl ht', m + 1, hwindow,
          fun hne => absurd (hturn.symm.trans hnil) hne⟩
      · refine ⟨hstrategy, hturn, hothers _ rfl rfl ht', m + 1, hwindow, fun hne => ?_⟩
        have hbump : p.shared.router.bumpCounter.rrCounter =
            (p.shared.router.rrCounter + 1) % 2 ^ 64 := rfl
        rw [hbump, hcounter hne, Nat.mod_add_mod, Nat.add_assoc]
  · refine ⟨hstrategy, hturn, fun u hu => ?_, m, ?_, hcounter⟩
    · rcases List.mem_append.mp hu with hu | hu
      · exact hready u hu
      · obtain rfl := List.mem_singleton.mp hu
        exact fun list hlist => by simp at hlist
    · rw [List.filterMap_append]
      simpa [Task.settled] using hperm
  · have hturn' := turn_modifyStats p.shared r fun _ => stats
    refine ⟨hstrategy, hturn'.trans hturn, fun u hu list hlist => ?_, m, hperm, hcounter⟩
    rw [hturn']
    exact hready u hu list hlist

end steps

/-! ## Fairness -/

/-- Has the call returned? -/
def Task.hasReturned (t : Task) : Bool :=
  match t.pc with
  | .returned _ => true
  | _ => false

/-- The answer of a call that has returned. -/
def Task.answer (t : Task) : Option UpstreamRef :=
  match t.pc with
  | .returned answer => answer
  | _ => none

/-- What the rotating calls answered, in the order they came in. -/
def answers (strategy : LoadBalancingStrategy) (tasks : List Task) : List (Option UpstreamRef) :=
  (tasks.filter fun t => rotates strategy t.sessionKey).map Task.answer

/-- When the rotating calls have returned, their answers are what was settled. -/
theorem filterMap_settled {strategy : LoadBalancingStrategy} {tasks : List Task}
    (hdone : ∀ t ∈ tasks, rotates strategy t.sessionKey = true → t.hasReturned = true) :
    tasks.filterMap (Task.settled strategy) = answers strategy tasks := by
  induction tasks with
  | nil => rfl
  | cons t tasks ih =>
      have ih := ih fun u hu => hdone u (List.mem_cons_of_mem t hu)
      by_cases hrot : rotates strategy t.sessionKey = true
      · have ht := hdone t List.mem_cons_self hrot
        cases hpc : t.pc with
        | returned answer =>
            have hsettled : t.settled strategy = some answer := by simp [Task.settled, hrot, hpc]
            have hanswer : t.answer = answer := by simp [Task.answer, hpc]
            rw [List.filterMap_cons_some hsettled, ih, answers, answers,
              List.filter_cons_of_pos (by simpa using hrot), List.map_cons, hanswer]
        | _ => simp [Task.hasReturned, hpc] at ht
      · have hsettled : t.settled strategy = none := by simp [Task.settled, hrot]
        rw [List.filterMap_cons_none hsettled, ih, answers, answers,
          List.filter_cons_of_neg (by simpa using hrot)]

section fairness

variable {F : Type} [ScoreArith F] {hashKey : String → U64} {search : BinarySearch U64}

/-- **What concurrent calls answer.** Up to the order, the answers of the rotating calls are the
window of the rotation that begins at the counter's first value. -/
theorem answers_perm_window {w : World} {p : Pool World Task} {es : List (Sched Event)}
    (hs : rotates w.router.strategy none = true)
    (hrun : (machine F hashKey search).run ⟨w, []⟩ es = some p)
    (hdone : ∀ t ∈ p.tasks, rotates w.router.strategy t.sessionKey = true → t.hasReturned = true)
    (hmax : w.router.rrCounter + (answers w.router.strategy p.tasks).length ≤ 2 ^ 64) :
    (answers w.router.strategy p.tasks).Perm (window (turn w.heap w.router) w.router.rrCounter
      (answers w.router.strategy p.tasks).length) := by
  have hcounter : w.router.rrCounter % 2 ^ 64 = w.router.rrCounter ∨
      answers w.router.strategy p.tasks = [] := by
    rcases Nat.eq_zero_or_pos (answers w.router.strategy p.tasks).length with hzero | hpos
    · exact Or.inr (List.length_eq_zero_iff.mp hzero)
    · exact Or.inl (Nat.mod_eq_of_lt (by omega))
  rcases hcounter with hcounter | hnil
  · have hinit : Handed w ⟨w, []⟩ :=
      ⟨rfl, rfl, fun t ht => absurd ht List.not_mem_nil, 0, by simp, fun _ => hcounter.symm⟩
    have hend := (machine F hashKey search).run_preserves (I := Handed w)
      (fun q e q' hq hstep => hq.step hs hstep) hinit hrun
    obtain ⟨m, hperm, -⟩ := hend.window
    rw [filterMap_settled hdone] at hperm
    have hm : (answers w.router.strategy p.tasks).length = m := by simpa using hperm.length_eq
    refine hperm.trans (List.Perm.of_eq ?_)
    rw [hm, window]
    refine List.map_congr_left fun k hk => ?_
    have hk : k < m := List.mem_range.mp hk
    rw [Nat.mod_eq_of_lt (a := w.router.rrCounter + k) (by omega)]
  · simp [hnil, window]

/-- How often an upstream is in the weighted turn, and how long that is. -/
theorem weighted_turn (weight : UpstreamRef → ℕ) (available : List UpstreamRef) (r : UpstreamRef) :
    (available.flatMap fun r => List.replicate (weight r) r).count r =
        available.count r * weight r ∧
      (available.flatMap fun r => List.replicate (weight r) r).length =
        (available.map weight).sum := by
  induction available with
  | nil => simp
  | cons r' available ih =>
      obtain ⟨hcount, hlength⟩ := ih
      constructor
      · rw [List.flatMap_cons, List.count_append, hcount, List.count_cons, List.count_replicate]
        by_cases hr : r' = r
        · subst hr
          rw [if_pos BEq.rfl, if_pos BEq.rfl, Nat.add_one_mul, Nat.add_comm]
        · have hbeq : ¬ (r' == r) = true := by simpa using hr
          rw [if_neg hbeq, if_neg hbeq, Nat.zero_add, Nat.add_zero]
      · rw [List.flatMap_cons, List.length_append, hlength, List.length_replicate, List.map_cons,
          List.sum_cons]

/-- **Fairness.** Any number of concurrent calls on a list with fixed health states, `n` of them
rotating, each `fetch_add` a step of its own and calls with a session key in between. The multiset
of answers is fixed by the counter's first value and by `n`. Round robin (also as the fallback of
consistent hashing) selects each available upstream in every turn through the available ones that
`n` calls complete, and in no more turns than they begin, each time once for each place it has in
the list; weighted round robin selects it as many times as its weight in each turn, which is as
long as the weights sum to; and nobody selects an unavailable one. -/
theorem rotation_fair {w : World} {p : Pool World Task} {es : List (Sched Event)}
    (hs : rotates w.router.strategy none = true)
    (hrun : (machine F hashKey search).run ⟨w, []⟩ es = some p)
    (hdone : ∀ t ∈ p.tasks, rotates w.router.strategy t.sessionKey = true → t.hasReturned = true)
    (hmax : w.router.rrCounter + (answers w.router.strategy p.tasks).length ≤ 2 ^ 64) :
    let selected := answers w.router.strategy p.tasks
    let n := selected.length
    let available := w.router.upstreams.filter w.heap.isAvailable
    let weight := fun r => max (w.heap.get r).config.weight 1
    let total := (available.map weight).sum
    selected.Perm (window (turn w.heap w.router) w.router.rrCounter n) ∧
      (w.router.strategy ≠ .weightedRoundRobin → ∀ r,
        available.count r * (n / available.length) ≤ selected.count (some r) ∧
          selected.count (some r) ≤
            available.count r * ((n + available.length - 1) / available.length)) ∧
      (w.router.strategy = .weightedRoundRobin → ∀ r,
        available.count r * weight r * (n / total) ≤ selected.count (some r) ∧
          selected.count (some r) ≤
            available.count r * weight r * ((n + total - 1) / total)) ∧
      ∀ r, w.heap.isAvailable r = false → some r ∉ selected := by
  intro selected n available weight total
  have hperm : selected.Perm (window (turn w.heap w.router) w.router.rrCounter n) :=
    answers_perm_window hs hrun hdone hmax
  have hfair : ∀ r, (turn w.heap w.router).count r * (n / (turn w.heap w.router).length) ≤
        selected.count (some r) ∧ selected.count (some r) ≤ (turn w.heap w.router).count r *
          ((n + (turn w.heap w.router).length - 1) / (turn w.heap w.router).length) := by
    intro r
    rw [hperm.count_eq]
    exact ⟨le_count_window _ r _ n, count_window_le _ r _ n⟩
  refine ⟨hperm, fun hstrategy r => ?_, fun hstrategy r => ?_, fun r hr hmem => ?_⟩
  · have hturn : turn w.heap w.router = available := by
      unfold turn
      cases h : w.router.strategy with
      | weightedRoundRobin => exact absurd h hstrategy
      | _ => rfl
    rw [← hturn]
    exact hfair r
  · have hturn : turn w.heap w.router =
        available.flatMap fun r => List.replicate (weight r) r := by
      rw [turn, hstrategy]
    obtain ⟨hcount, hlength⟩ := weighted_turn weight available r
    rw [← hturn] at hcount hlength
    change (turn w.heap w.router).length = total at hlength
    rw [← hcount, ← hlength]
    exact hfair r
  · have hmem := mem_of_mem_window (hperm.mem_iff.mp hmem)
    have havailable : w.heap.isAvailable r = true := by
      unfold turn at hmem
      split at hmem
      · obtain ⟨r', hr', hrep⟩ := List.mem_flatMap.mp hmem
        rw [List.eq_of_mem_replicate hrep]
        exact (List.mem_filter.mp hr').2
      · exact (List.mem_filter.mp hmem).2
    rw [hr] at havailable
    exact absurd havailable (by decide)

/-- Two upstreams, the first of weight 2, and a counter at zero. -/
def weightedPair : World where
  router := { Router.new .weightedRoundRobin with upstreams := [0, 1] }
  heap := ⟨[.new ⟨"a", "a:80", 2, 0, 5000⟩ 0, .new ⟨"b", "b:80", 1, 0, 5000⟩ 0]⟩

/-- Three calls, all of them inside before the first takes its ticket. -/
def threeCalls : List (Sched Event) :=
  [.env (.call none), .env (.call (some "k")), .env (.call none), .task 0 .step, .task 1 .step,
    .task 2 .step, .task 2 .step, .task 0 .step, .task 1 .step, .task 0 .step, .task 2 .step,
    .task 1 .step]

/-- Fairness at work: three calls select the first upstream at least twice. -/
theorem rotation_fair_threeCalls :
    ∃ p, (machine ℚ (fun _ => 0) (BinarySearch.linear U64)).run ⟨weightedPair, []⟩ threeCalls =
        some p ∧ 2 ≤ (answers .weightedRoundRobin p.tasks).count (some 0) := by
  have hend : ((machine ℚ (fun _ => 0) (BinarySearch.linear U64)).run ⟨weightedPair, []⟩
      threeCalls).map (fun p => (p.tasks.all Task.hasReturned,
        (answers .weightedRoundRobin p.tasks).length)) = some (true, 3) := by decide +kernel
  obtain ⟨p, hp, hcheck⟩ := Option.map_eq_some_iff.mp hend
  obtain ⟨hreturned, hlength⟩ := Prod.mk.inj hcheck
  have hlength : (answers weightedPair.router.strategy p.tasks).length = 3 := hlength
  obtain ⟨-, -, hweighted, -⟩ := rotation_fair (by decide) hp
    (fun t ht _ => List.all_eq_true.mp hreturned t ht) (by rw [hlength]; decide)
  obtain ⟨hle, -⟩ := hweighted (by decide) 0
  rw [hlength] at hle
  exact ⟨p, hp, le_trans (by decide) hle⟩

end fairness

end HarbrRouter.Routing.Fairness
