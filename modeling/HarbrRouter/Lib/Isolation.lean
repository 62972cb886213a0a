import HarbrRouter.Lib.Filtered
import HarbrRouter.Lib.TaskPool

/-!
# Tasks to which the others do not matter

Tasks of several owners over one shared state. What the tasks of one owner see of the state is given
by a relation between two states that look alike to them, and what they are by a view of a task.

**Theorem** (`Isolates.run_purge`): when the steps of the others are not seen, and the own tasks do
alike in states that look alike, then the own part of every interleaving, run without the others,
leads to what is seen of the whole.

`System.purge` is the own part of an interleaving, with the positions that the own tasks have among
themselves. `Isolates` are the conditions on the steps; the second system may treat the others in
any way. One step of the whole is no step of the own part, or one step of it, and what the two runs
have in common (`Projects`) is kept (`Isolates.step_purge`): an own task has the position that the
filtered list gives it, and the run goes step by step.
-/

set_option autoImplicit false

namespace TaskPool

open Transition Filtered

variable {Sh T E W : Type}

section purge

variable (mine : T → Bool) (mineEnv : E → Bool)

/-- An event, with the position that its task has among the own tasks; `none` if it is not one of
theirs. -/
def renumber (ts : List T) : Sched E → Option (Sched E)
  | .task i e => if (ts[i]?).any mine then some (.task ((ts.take i).countP mine) e) else none
  | .env e => if mineEnv e then some (.env e) else none

/-- The own part of an interleaving. -/
def System.purge (S : System Sh T E) : Pool Sh T → List (Sched E) → List (Sched E)
  | _, [] => []
  | p, a :: es =>
      (renumber mine mineEnv p.tasks a).toList ++
        match S.machine.step p a with
        | some p' => purge S p' es
        | none => []

/-- The event of an own task is kept, at the place of the task among the own ones. -/
theorem renumber_task_of_mine {ts : List T} {i : ℕ} {t : T} (ht : ts[i]? = some t)
    (hmine : mine t = true) (e : E) :
    renumber mine mineEnv ts (.task i e) = some (.task ((ts.take i).countP mine) e) := by
  rw [renumber, ht, Option.any_some, if_pos hmine]

/-- The event of a task that is left out is left out. -/
theorem renumber_task_of_other {ts : List T} {i : ℕ} {t : T} (ht : ts[i]? = some t)
    (hmine : mine t = false) (e : E) : renumber mine mineEnv ts (.task i e) = none := by
  rw [renumber, ht, Option.any_some, if_neg (by simp [hmine])]

end purge

/-- The second pool has what is seen of the first: its own tasks, and a shared state that agrees. -/
structure Projects (mine : T → Bool) (view : T → W) (Agree : Sh → Sh → Prop) (p q : Pool Sh T) :
    Prop where
  shared : Agree p.shared q.shared
  tasks : q.tasks.map view = (p.tasks.filter mine).map view

/-- The steps of the others are not seen, and the own steps of the first system are steps of the
second one in every state that looks alike. -/
structure Isolates (S S' : System Sh T E) (mine : T → Bool) (mineEnv : E → Bool) (view : T → W)
    (Agree : Sh → Sh → Prop) (Inv : Pool Sh T → Prop) : Prop where
  preserved : ∀ {p p' : Pool Sh T} {a : Sched E}, Inv p → S.machine.step p a = some p' → Inv p'
  owner : ∀ {p : Pool Sh T} {t t' : T} {e : E} {sh : Sh} {new : List T}, t ∈ p.tasks →
    S.act p.tasks p.shared t e = some (sh, t', new) →
    mine t' = mine t ∧ ∀ u ∈ new, mine u = mine t
  unseen : ∀ {p q : Pool Sh T} {t t' : T} {e : E} {sh : Sh} {new : List T}, Inv p → t ∈ p.tasks →
    mine t = false → S.act p.tasks p.shared t e = some (sh, t', new) → Agree p.shared q.shared →
    Agree sh q.shared
  followed : ∀ {p q : Pool Sh T} {t t' u : T} {e : E} {sh : Sh} {new : List T}, Inv p →
    t ∈ p.tasks → mine t = true → S.act p.tasks p.shared t e = some (sh, t', new) →
    Agree p.shared q.shared → view u = view t →
    ∃ sh₀ u' new₀, S'.act q.tasks q.shared u e = some (sh₀, u', new₀) ∧ Agree sh sh₀ ∧
      view u' = view t' ∧ new₀.map view = new.map view
  envUnseen : ∀ {p q : Pool Sh T} {e : E} {sh : Sh} {new : List T}, mineEnv e = false →
    S.env p.shared e = some (sh, new) → Agree p.shared q.shared →
    Agree sh q.shared ∧ ∀ u ∈ new, mine u = false
  envFollowed : ∀ {p q : Pool Sh T} {e : E} {sh : Sh} {new : List T}, mineEnv e = true →
    S.env p.shared e = some (sh, new) → Agree p.shared q.shared →
    ∃ sh₀ new₀, S'.env q.shared e = some (sh₀, new₀) ∧ Agree sh sh₀ ∧
      new₀.map view = new.map view ∧ ∀ u ∈ new, mine u = true

namespace Isolates

variable {S S' : System Sh T E} {mine : T → Bool} {mineEnv : E → Bool} {view : T → W}
  {Agree : Sh → Sh → Prop} {Inv : Pool Sh T → Prop} {p p' q : Pool Sh T}

/-- **One step**, and what is seen of it. -/
theorem step_purge (h : Isolates S S' mine mineEnv view Agree Inv) (hp : Inv p)
    (hproj : Projects mine view Agree p q) {a : Sched E} (hstep : S.machine.step p a = some p') :
    ∃ q', S'.machine.run q (renumber mine mineEnv p.tasks a).toList = some q' ∧
      Projects mine view Agree p' q' := by
  rcases S.step_cases hstep with ⟨i, e, t, sh, t', new, rfl, ht, hact, rfl⟩ |
    ⟨e, sh, new, rfl, henv, rfl⟩
  · have hmem := List.mem_of_getElem? ht
    obtain ⟨howner, hnew⟩ := h.owner hmem hact
    by_cases hmine : mine t = true
    · -- the task that moves has its place among the own tasks
      have hat : (q.tasks.map view)[(p.tasks.take i).countP mine]? = some (view t) := by
        rw [hproj.tasks, List.getElem?_map, getElem?_filter_countP ht hmine, Option.map_some]
      rw [List.getElem?_map, Option.map_eq_some_iff] at hat
      obtain ⟨u, hu, hview⟩ := hat
      obtain ⟨sh₀, u', new₀, hfollow, hagree, hview', hviews⟩ :=
        h.followed hp hmem hmine hact hproj.shared hview
      refine ⟨⟨sh₀, q.tasks.set ((p.tasks.take i).countP mine) u' ++ new₀⟩, ?_, hagree, ?_⟩
      · rw [renumber_task_of_mine mine mineEnv ht hmine, Option.toList_some, Machine.run_singleton]
        exact S'.step_task hu hfollow
      · have hall : new.filter mine = new :=
          List.filter_eq_self.mpr fun v hv => (hnew v hv).trans hmine
        rw [List.map_append, List.map_set, hview', hviews, hproj.tasks, List.filter_append, hall,
          filter_set_of_kept ht hmine (howner.trans hmine), List.map_append, List.map_set]
    · have hother : mine t = false := Bool.not_eq_true _ |>.mp hmine
      refine ⟨q, ?_, h.unseen hp hmem hother hact hproj.shared, ?_⟩
      · rw [renumber_task_of_other mine mineEnv ht hother]
        rfl
      · have hnone : new.filter mine = [] :=
          List.filter_eq_nil_iff.mpr fun v hv => by simp [hnew v hv, hother]
        rw [hproj.tasks, List.filter_append, hnone, List.append_nil,
          filter_set_of_dropped ht hother (howner.trans hother)]
  · by_cases hmine : mineEnv e = true
    · obtain ⟨sh₀, new₀, hfollow, hagree, hviews, hnew⟩ := h.envFollowed hmine henv hproj.shared
      refine ⟨⟨sh₀, q.tasks ++ new₀⟩, ?_, hagree, ?_⟩
      · simp [renumber, hmine, System.machine, System.next, hfollow]
      · rw [List.map_append, hproj.tasks, hviews, List.filter_append, List.map_append,
          List.filter_eq_self.mpr hnew]
    · have hother : mineEnv e = false := Bool.not_eq_true _ |>.mp hmine
      obtain ⟨hagree, hnew⟩ := h.envUnseen hother henv hproj.shared
      refine ⟨q, ?_, hagree, ?_⟩
      · simp [renumber, hother]
      · have hnone : new.filter mine = [] :=
          List.filter_eq_nil_iff.mpr fun v hv => by simp [hnew v hv]
        rw [hproj.tasks, List.filter_append, hnone, List.append_nil]

/-- **The own part of a run, run without the others, leads to what is seen of the whole.** -/
theorem run_purge (h : Isolates S S' mine mineEnv view Agree Inv) (hp : Inv p)
    (hproj : Projects mine view Agree p q) {es : List (Sched E)}
    (hrun : S.machine.run p es = some p') :
    ∃ q', S'.machine.run q (S.purge mine mineEnv p es) = some q' ∧
      Projects mine view Agree p' q' := by
  induction es generalizing p q with
  | nil =>
      obtain rfl : p = p' := by simpa using hrun
      exact ⟨q, rfl, hproj⟩
  | cons a es ih =>
      obtain ⟨p₁, hstep, hrest⟩ := (Machine.run_cons_eq_some _).mp hrun
      obtain ⟨q₁, hone, hproj₁⟩ := h.step_purge hp hproj hstep
      obtain ⟨q', hrun', hproj'⟩ := ih (h.preserved hp hstep) hproj₁ hrest
      refine ⟨q', ?_, hproj'⟩
      rw [System.purge, hstep]
      exact (Machine.run_append_eq_some _).mpr ⟨q₁, hone, hrun'⟩

end Isolates

end TaskPool
