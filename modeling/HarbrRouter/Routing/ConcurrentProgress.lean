import HarbrRouter.Lib.Progress
import HarbrRouter.Routing.Concurrent

/-!
# The calls on a router always return

`routing.rs`, any number of concurrent calls on a `Router` that hashes: no order of steps makes them
wait for each other forever, and none keeps them busy forever. The locks are taken in one order (the
list, then the ring) and nobody who holds one waits for a read of the other, so this is true of
locks that let readers pass a waiting writer and of locks that do not; `Allowed` are the steps under
the least favourable ones, whose readers wait for every writer that wants to come in.

**Theorem** (`calls_return`): from every reachable state the steps of the calls are bounded in
number, some order of allowed ones comes to an end, and whatever the order was, at the end every
call has returned and the ring is in step. Every step lowers the sum of the steps that the calls
have left (`work_lt_of_step`), so runs end; and while a call has not returned, an allowed step is
possible (`exists_allowed`), since the one that holds the ring, or else the writer of the list, can
go on.
-/

set_option autoImplicit false

namespace HarbrRouter.Routing.Concurrent

open Transition TaskPool PointRing

variable {hashKey : String → U64} {search : BinarySearch U64}

/-! ## The least favourable locks -/

/-- Does the task want the write guard of the list? -/
def Task.wantsList : Task → Bool
  | .storeList .. => true
  | _ => false

/-- Does the task want the write guard of the ring? -/
def Task.wantsRing : Task → Bool
  | .lockRing => true
  | _ => false

/-- A writer waits for the lock that the task reads next. -/
def Task.WriterWaits (tasks : List Task) : Task → Prop
  | .findUpstream .. | .readList | .readSelection _ => tasks.any Task.wantsList = true
  | .lookup _ => tasks.any Task.wantsRing = true
  | _ => False

/-- A step of a call that does not pass a waiting writer. -/
def Allowed (p : Pool Shared Task) (e : Sched Event) : Prop :=
  ∃ i t, e = .task i .step ∧ p.tasks[i]? = some t ∧ ¬ t.WriterWaits p.tasks

/-- A step of a call, not a new call. -/
def OwnStep (_ : Pool Shared Task) (e : Sched Event) : Prop := ∃ i, e = .task i .step

/-! ## The work left -/

/-- The length of the list that a call is about to store. -/
def Task.listLength : Task → ℕ
  | .storeList configs _ => configs.length
  | _ => 0

/-- The steps that a call has left at most, when no list has more than `bound` upstreams. -/
def Task.rank (bound : ℕ) : Task → ℕ
  | .findUpstream .. => bound + 7
  | .storeHealth .. => bound + 6
  | .storeCheckTime .. => bound + 5
  | .countFailure .. | .storeList .. => bound + 4
  | .readList => bound + 3
  | .lockRing => bound + 2
  | .rebuilding idx => bound - idx + 1
  | .readSelection _ => 2
  | .lookup _ => 1
  | .updated | .selected _ => 0

/-- No list, stored or about to be stored, has more than `bound` upstreams. -/
def Fits (bound : ℕ) (p : Pool Shared Task) : Prop :=
  p.shared.upstreams.length ≤ bound ∧ ∀ t ∈ p.tasks, t.listLength ≤ bound

/-- The steps that all calls have left at most. -/
def work (bound : ℕ) (p : Pool Shared Task) : ℕ := (p.tasks.map (Task.rank bound)).sum

/-- Every state fits some bound. -/
theorem exists_fits (p : Pool Shared Task) : ∃ bound, Fits bound p := by
  refine ⟨p.shared.upstreams.length + (p.tasks.map Task.listLength).sum, Nat.le_add_right _ _,
    fun t ht => ?_⟩
  have hsum := (List.perm_cons_erase (List.mem_map_of_mem (f := Task.listLength) ht)).sum_nat
  rw [List.sum_cons] at hsum
  omega

/-- A step lowers the rank of its call, and keeps the bound. -/
theorem rank_lt_of_step {bound : ℕ} {tasks : List Task} {sh sh' : Shared} {t t' : Task}
    (hsh : sh.upstreams.length ≤ bound) (hlist : t.listLength ≤ bound)
    (h : t.step hashKey search tasks sh = some (sh', t')) :
    t'.rank bound < t.rank bound ∧ sh'.upstreams.length ≤ bound ∧ t'.listLength ≤ bound := by
  cases t with
  | storeList configs now =>
      simp only [Task.step] at h
      split_ifs at h
      obtain ⟨rfl, rfl⟩ := Prod.mk.inj (Option.some.inj h)
      refine ⟨by simp [Task.rank], ?_, Nat.zero_le _⟩
      simpa [Heap.alloc, Task.listLength] using hlist
  | findUpstream name state now =>
      simp only [Task.step] at h
      split at h
      all_goals
        obtain ⟨rfl, rfl⟩ := Prod.mk.inj (Option.some.inj h)
        exact ⟨by simp [Task.rank], hsh, Nat.zero_le _⟩
  | storeHealth r state now =>
      obtain ⟨rfl, rfl⟩ := Prod.mk.inj (Option.some.inj h)
      exact ⟨by simp [Task.rank], hsh, Nat.zero_le _⟩
  | storeCheckTime r state now =>
      obtain ⟨rfl, rfl⟩ := Prod.mk.inj (Option.some.inj h)
      exact ⟨by simp [Task.rank], hsh, Nat.zero_le _⟩
  | countFailure r state =>
      obtain ⟨rfl, rfl⟩ := Prod.mk.inj (Option.some.inj h)
      exact ⟨by simp [Task.rank], hsh, Nat.zero_le _⟩
  | readList =>
      obtain ⟨rfl, rfl⟩ := Prod.mk.inj (Option.some.inj h)
      exact ⟨by simp [Task.rank], hsh, Nat.zero_le _⟩
  | lockRing =>
      simp only [Task.step] at h
      split_ifs at h
      obtain ⟨rfl, rfl⟩ := Prod.mk.inj (Option.some.inj h)
      exact ⟨by simp [Task.rank], hsh, Nat.zero_le _⟩
  | rebuilding idx =>
      simp only [Task.step] at h
      split at h
      · next r hr =>
          -- the loop is still inside the list, so the next index is within the bound
          have hidx := (List.getElem?_eq_some_iff.mp hr).1
          obtain ⟨rfl, rfl⟩ := Prod.mk.inj (Option.some.inj h)
          refine ⟨?_, hsh, Nat.zero_le _⟩
          simp only [Task.rank]
          omega
      · obtain ⟨rfl, rfl⟩ := Prod.mk.inj (Option.some.inj h)
        exact ⟨by simp [Task.rank], hsh, Nat.zero_le _⟩
  | readSelection sessionKey =>
      simp only [Task.step] at h
      split_ifs at h
      all_goals
        obtain ⟨rfl, rfl⟩ := Prod.mk.inj (Option.some.inj h)
        exact ⟨by simp [Task.rank], hsh, Nat.zero_le _⟩
  | lookup sessionKey =>
      simp only [Task.step] at h
      split_ifs at h
      obtain ⟨rfl, rfl⟩ := Prod.mk.inj (Option.some.inj h)
      exact ⟨by simp [Task.rank], hsh, Nat.zero_le _⟩
  | updated => exact absurd h (by simp [Task.step])
  | selected answer => exact absurd h (by simp [Task.step])

/-- **Every step of a call lowers the work left.** -/
theorem work_lt_of_step {bound : ℕ} {p p' : Pool Shared Task} {e : Sched Event}
    (hfits : Fits bound p) (hown : OwnStep p e)
    (h : (machine hashKey search).step p e = some p') :
    Fits bound p' ∧ work bound p' < work bound p := by
  obtain ⟨i, rfl⟩ := hown
  rcases machine_step h with ⟨j, t, sh, t', heq, ht, hstep, rfl⟩ | ⟨c, heq, -⟩
  · obtain ⟨hrank, hsh, hlist⟩ :=
      rank_lt_of_step hfits.1 (hfits.2 t (List.mem_of_getElem? ht)) hstep
    refine ⟨⟨hsh, fun u hu => ?_⟩, ?_⟩
    · rcases mem_set_append hu with rfl | hu | hu
      · exact hlist
      · exact hfits.2 u hu
      · exact absurd hu List.not_mem_nil
    · have hsum := sum_map_set_append (Task.rank bound) ht t' []
      simp only [List.map_nil, List.sum_nil] at hsum
      simp only [work]
      omega
  · exact absurd heq (by simp)

/-! ## Somebody can go on -/

/-- A call that has not returned can take its step, unless it waits for one of the two locks. -/
theorem step_isSome {tasks : List Task} {sh : Shared} {t : Task} (hret : t.returned = false)
    (hlist : t.wantsList = true → tasks.any Task.holdsList = false)
    (hring : t.holdsRing = false → tasks.any Task.holdsRing = false) :
    (t.step hashKey search tasks sh).isSome = true := by
  cases t with
  | storeList configs now => simp [Task.step, hlist rfl]
  | findUpstream name state now =>
      simp only [Task.step]
      split <;> rfl
  | storeHealth r state now => rfl
  | storeCheckTime r state now => rfl
  | countFailure r state => rfl
  | readList => rfl
  | lockRing => simp [Task.step, hring rfl]
  | rebuilding idx =>
      simp only [Task.step]
      split <;> rfl
  | readSelection sessionKey =>
      simp only [Task.step]
      split_ifs <;> rfl
  | lookup sessionKey => simp [Task.step, hring rfl]
  | updated => exact absurd hret (by simp [Task.returned])
  | selected answer => exact absurd hret (by simp [Task.returned])

/-- Who wants to write, or writes the ring, does not wait for a writer. -/
theorem not_writerWaits {tasks : List Task} {t : Task}
    (h : t.wantsList = true ∨ t.wantsRing = true ∨ t.holdsRing = true) :
    ¬ t.WriterWaits tasks := by
  cases t <;> simp_all [Task.WriterWaits, Task.wantsList, Task.wantsRing, Task.holdsRing]

/-- Where nobody wants a lock, nobody waits for a writer. -/
theorem not_writerWaits_of_none {tasks : List Task} (hlist : tasks.any Task.wantsList = false)
    (hring : tasks.any Task.wantsRing = false) (t : Task) : ¬ t.WriterWaits tasks := by
  cases t <;> simp [Task.WriterWaits, hlist, hring]

/-- Who holds the list wants the ring, has it, or looks a key up in it. -/
theorem holdsList_cases {t : Task} (h : t.holdsList = true) (hring : t.wantsRing = false)
    (hheld : t.holdsRing = false) : ∃ sessionKey, t = .lookup sessionKey := by
  cases t <;> simp_all [Task.holdsList, Task.wantsRing, Task.holdsRing]

/-- **Somebody can always go on**: while a call has not returned, a step is possible that passes no
waiting writer. -/
theorem exists_allowed {p : Pool Shared Task} (hret : ∃ t ∈ p.tasks, t.returned = false) :
    ∃ e p', Allowed p e ∧ (machine hashKey search).step p e = some p' := by
  -- it is enough to find a call with its step and without a writer to wait for
  suffices h : ∃ t ∈ p.tasks, ¬ t.WriterWaits p.tasks ∧
      (t.step hashKey search p.tasks p.shared).isSome = true by
    obtain ⟨t, hmem, hwait, hstep⟩ := h
    obtain ⟨i, hi⟩ := List.getElem?_of_mem hmem
    obtain ⟨⟨sh, t'⟩, hr⟩ := Option.isSome_iff_exists.mp hstep
    have hact : (system hashKey search).act p.tasks p.shared t .step = some (sh, t', []) := by
      simp [system, hr]
    exact ⟨.task i .step, _, ⟨i, t, rfl, hi, hwait⟩, (system hashKey search).step_task hi hact⟩
  by_cases hheld : ∃ t ∈ p.tasks, t.holdsRing = true
  · -- the rebuild that runs needs nothing more
    obtain ⟨t, hmem, hring⟩ := hheld
    refine ⟨t, hmem, not_writerWaits (Or.inr (Or.inr hring)), step_isSome ?_ ?_ ?_⟩
    all_goals cases t <;> simp_all [Task.holdsRing, Task.returned, Task.wantsList]
  have hfree : p.tasks.any Task.holdsRing = false := by simpa using hheld
  by_cases hwriter : ∃ t ∈ p.tasks, t.wantsRing = true
  · -- with the ring free, the next rebuild begins
    obtain ⟨t, hmem, hwants⟩ := hwriter
    refine ⟨t, hmem, not_writerWaits (Or.inr (Or.inl hwants)), step_isSome ?_ ?_ fun _ => hfree⟩
    all_goals cases t <;> simp_all [Task.wantsRing, Task.returned, Task.wantsList]
  have hnoring : p.tasks.any Task.wantsRing = false := by simpa using hwriter
  by_cases hreader : ∃ t ∈ p.tasks, t.holdsList = true
  · -- nobody wants the ring, so who holds the list is at its lookup
    obtain ⟨t, hmem, hholds⟩ := hreader
    obtain ⟨sessionKey, rfl⟩ := holdsList_cases hholds
      (by simpa using fun h => hwriter ⟨t, hmem, h⟩) (by simpa using fun h => hheld ⟨t, hmem, h⟩)
    exact ⟨_, hmem, by simp [Task.WriterWaits, hnoring],
      step_isSome rfl (fun h => absurd h (by simp [Task.wantsList])) fun _ => hfree⟩
  have hnolist : p.tasks.any Task.holdsList = false := by simpa using hreader
  by_cases hstore : ∃ t ∈ p.tasks, t.wantsList = true
  · obtain ⟨t, hmem, hwants⟩ := hstore
    refine ⟨t, hmem, not_writerWaits (Or.inl hwants),
      step_isSome ?_ (fun _ => hnolist) fun _ => hfree⟩
    cases t <;> simp_all [Task.wantsList, Task.returned]
  · -- nobody holds or wants a lock: any call can go on
    obtain ⟨t, hmem, hne⟩ := hret
    exact ⟨t, hmem, not_writerWaits_of_none (by simpa using hstore) hnoring t,
      step_isSome hne (fun _ => hnolist) fun _ => hfree⟩

/-- Where no step is possible that passes no waiting writer, every call has returned. -/
theorem returned_of_stuck {p : Pool Shared Task}
    (hstuck : (machine hashKey search).Stuck Allowed p) : ∀ t ∈ p.tasks, t.returned = true := by
  intro t ht
  by_contra hret
  have hsome : ∃ e p', Allowed p e ∧ (machine hashKey search).step p e = some p' :=
    exists_allowed ⟨t, ht, by simpa using hret⟩
  obtain ⟨e, p', hallowed, hstep⟩ := hsome
  exact hstuck e p' hallowed hstep

/-! ## What the calls come to -/

/-- A run in which no call comes in is at most as long as the work left at its start. -/
theorem length_le_of_ownSteps (p : Pool Shared Task) :
    ∃ bound, ∀ es q, (machine hashKey search).Along OwnStep p es →
      (machine hashKey search).run p es = some q → es.length ≤ bound := by
  obtain ⟨bound, hfits⟩ := exists_fits p
  refine ⟨work bound p, fun es q hown hrun => ?_⟩
  have hle := Machine.length_add_le_of_decreases (I := Fits bound) (μ := work bound)
    (fun s e s' hs hP hstep => work_lt_of_step hs hP hstep) hfits hown hrun
  omega

/-- An allowed step is a step of a call. -/
theorem Allowed.ownStep {p : Pool Shared Task} {e : Sched Event} (h : Allowed p e) :
    OwnStep p e := by
  obtain ⟨i, t, rfl, -, -⟩ := h
  exact ⟨i, rfl⟩

/-- **Every call returns, and the ring then serves the current list.** From any state that any
interleaving of calls reaches, the steps of the calls themselves come to an end: there is a bound
on their number, and an order of them that passes no waiting writer and ends where no such step is
left. However the steps were ordered, where that is so every call has returned and the ring is the
one that a rebuild makes from the current list with its current health. -/
theorem calls_return {es : List (Sched Event)} {p : Pool Shared Task}
    (hrun : (machine hashKey search).run initial es = some p) :
    (∃ bound, ∀ fs q, (machine hashKey search).Along OwnStep p fs →
        (machine hashKey search).run p fs = some q → fs.length ≤ bound) ∧
      (∃ fs q, (machine hashKey search).Along Allowed p fs ∧
        (machine hashKey search).run p fs = some q ∧ (machine hashKey search).Stuck Allowed q) ∧
      ∀ fs q, (machine hashKey search).Along OwnStep p fs →
        (machine hashKey search).run p fs = some q → (machine hashKey search).Stuck Allowed q →
        (∀ t ∈ q.tasks, t.returned = true) ∧
          q.shared.hashRing = (ConsistentHashRing.new 150).update hashKey
            (Router.infos q.shared.heap q.shared.upstreams) := by
  obtain ⟨bound, hfits⟩ := exists_fits p
  have hlower : ∀ s e s', Fits bound s → Allowed s e →
      (machine hashKey search).step s e = some s' → Fits bound s' ∧ work bound s' < work bound s :=
    fun s e s' hs hP hstep => work_lt_of_step hs hP.ownStep hstep
  refine ⟨length_le_of_ownSteps p, Machine.exists_run_stuck hlower hfits,
    fun fs q _ hfs hstuck => ?_⟩
  have hreturned := returned_of_stuck hstuck
  have hall : (machine hashKey search).run initial (es ++ fs) = some q :=
    (machine hashKey search).run_append_eq_some.mpr ⟨p, hrun, hfs⟩
  exact ⟨hreturned, ring_eq_update_of_returned hall hreturned⟩

/-- An update and a health report, left between their changes and their rebuilds, return. -/
theorem calls_return_crossed :
    ∃ p, (machine (fun _ => 0) (BinarySearch.linear U64)).run initial (crossedUpdates.take 5) =
        some p ∧
      ∃ bound, ∀ fs q, (machine (fun _ => 0) (BinarySearch.linear U64)).Along OwnStep p fs →
        (machine (fun _ => 0) (BinarySearch.linear U64)).run p fs = some q →
          fs.length ≤ bound := by
  have hstart : ((machine (fun _ => 0) (BinarySearch.linear U64)).run initial
      (crossedUpdates.take 5)).isSome = true := by decide +kernel
  obtain ⟨p, hp⟩ := Option.isSome_iff_exists.mp hstart
  exact ⟨p, hp, (calls_return hp).1⟩

end HarbrRouter.Routing.Concurrent
