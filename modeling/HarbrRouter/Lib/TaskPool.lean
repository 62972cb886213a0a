import HarbrRouter.Lib.Transition
import Mathlib.Algebra.Ring.Nat
import Mathlib.Data.List.Perm.Subperm
import Mathlib.Order.Lattice

/-!
# Interleavings of any number of tasks over a shared state

A `System` gives the local steps of one task (which may read every task, for the guards that
locks impose, and may spawn new tasks) and the steps of the environment (which may also spawn
tasks: an arriving request, a concurrent call). Its `machine` interleaves them: an event picks
the task by its position, and positions are stable, since a step replaces its task in place and
appends the tasks it spawns.

* `System.step_cases` says once what one step of the interleaving can do.
* `System.within` and `System.sum` put systems together over one shared state, with
  `System.sum_act_cases` for a step of what they give.
* `System.decorate` gives the tasks local data and the state a further part, which the steps of the
  system do not depend on: a run of it is a run of the system (`System.undecorated_run`).
* `AtMostOne` is mutual exclusion over the tasks of a pool, with its step rule;
  `countP_set_append` (with its three cases), `filterMap_set_append` and `length_claims_le` count
  tasks and collect what they yield.
* `System.run_owickiGries` is the proof rule for an invariant split into a shared part and one
  assertion for each task that the other tasks do not disturb.
-/

set_option autoImplicit false

namespace TaskPool

open Transition

/-- A shared state and the tasks running over it. -/
structure Pool (Sh T : Type) where
  /-- What every task can read and write. -/
  shared : Sh
  /-- The tasks, finished ones included, in the order they were spawned. -/
  tasks : List T

/-- An event of the interleaving: the task at a position moves, or the environment does. -/
inductive Sched (E : Type) where
  | task (i : ℕ) (e : E)
  | env (e : E)
deriving DecidableEq, Repr

/-- The local steps of a task and the steps of the environment. -/
structure System (Sh T E : Type) where
  /-- One step of a task, from all tasks, the shared state, the task itself and what the
  scheduler or the environment answers: the new shared state, the task after the step and the
  tasks it spawns. -/
  act : List T → Sh → T → E → Option (Sh × T × List T)
  /-- One step of the environment: the new shared state and the tasks it starts. -/
  env : Sh → E → Option (Sh × List T)

namespace System

variable {Sh T E : Type} (S : System Sh T E)

/-- The interleaving of the tasks of a pool and its environment. -/
def next (p : Pool Sh T) : Sched E → Option (Pool Sh T)
  | .task i e =>
      (p.tasks[i]?).bind fun t => (S.act p.tasks p.shared t e).map fun r =>
        ⟨r.1, p.tasks.set i r.2.1 ++ r.2.2⟩
  | .env e => (S.env p.shared e).map fun r => ⟨r.1, p.tasks ++ r.2⟩

/-- The machine whose runs are the interleavings. -/
def machine : Machine (Pool Sh T) (Sched E) := ⟨S.next⟩

/-- One step of the interleaving is a step of a task or one of the environment. -/
theorem step_cases {p p' : Pool Sh T} {a : Sched E} (h : S.machine.step p a = some p') :
    (∃ i e t sh t' new, a = .task i e ∧ p.tasks[i]? = some t ∧
        S.act p.tasks p.shared t e = some (sh, t', new) ∧ p' = ⟨sh, p.tasks.set i t' ++ new⟩) ∨
      (∃ e sh new, a = .env e ∧ S.env p.shared e = some (sh, new) ∧
        p' = ⟨sh, p.tasks ++ new⟩) := by
  cases a with
  | task i e =>
      simp only [machine, next, Option.bind_eq_some_iff, Option.map_eq_some_iff] at h
      obtain ⟨t, ht, ⟨sh, t', new⟩, hact, rfl⟩ := h
      exact Or.inl ⟨i, e, t, sh, t', new, rfl, ht, hact, rfl⟩
  | env e =>
      simp only [machine, next, Option.map_eq_some_iff] at h
      obtain ⟨⟨sh, new⟩, henv, rfl⟩ := h
      exact Or.inr ⟨e, sh, new, rfl, henv, rfl⟩

/-- A task's step, as a step of the machine. -/
theorem step_task {p : Pool Sh T} {i : ℕ} {e : E} {t t' : T} {sh : Sh} {new : List T}
    (ht : p.tasks[i]? = some t) (hact : S.act p.tasks p.shared t e = some (sh, t', new)) :
    S.machine.step p (.task i e) = some ⟨sh, p.tasks.set i t' ++ new⟩ := by
  simp [machine, next, ht, hact]

end System

/-! ## Systems put together -/

section together

variable {Sh Sh' T T₁ T₂ E E₁ E₂ : Type}

/-- A system that works on a part of a shared state. -/
def System.within (S : System Sh T E) (get : Sh' → Sh) (put : Sh' → Sh → Sh') :
    System Sh' T E where
  act ts sh t e := (S.act ts (get sh) t e).map fun r => (put sh r.1, r.2)
  env sh e := (S.env (get sh) e).map fun r => (put sh r.1, r.2)

/-- Two systems over one shared state, the tasks of both interleaved. -/
def System.sum (S₁ : System Sh T₁ E₁) (S₂ : System Sh T₂ E₂) :
    System Sh (T₁ ⊕ T₂) (E₁ ⊕ E₂) where
  act ts sh
    | .inl t, .inl e => (S₁.act (ts.filterMap Sum.getLeft?) sh t e).map fun r =>
        (r.1, .inl r.2.1, r.2.2.map .inl)
    | .inr t, .inr e => (S₂.act (ts.filterMap Sum.getRight?) sh t e).map fun r =>
        (r.1, .inr r.2.1, r.2.2.map .inr)
    | _, _ => none
  env sh
    | .inl e => (S₁.env sh e).map fun r => (r.1, r.2.map .inl)
    | .inr e => (S₂.env sh e).map fun r => (r.1, r.2.map .inr)

/-- A system whose tasks have local data besides, and whose state has a further part. What a step
does to them, and what the tasks that it spawns begin with, is its effect; a step without an effect
is not made. -/
def System.decorate {G L X : Type} (S : System Sh T E) (start : L)
    (effect : G → T × L → E × X → Option (G × L × L)) : System (Sh × G) (T × L) (E × X) where
  act ts sh t e := (S.act (ts.map Prod.fst) sh.1 t.1 e.1).bind fun r =>
    (effect sh.2 t e).map fun w => ((r.1, w.1), (r.2.1, w.2.1), r.2.2.map fun u => (u, w.2.2))
  env sh e := (S.env sh.1 e.1).map fun r => ((r.1, sh.2), r.2.map fun u => (u, start))

section

variable {G L X : Type}

/-- A pool without the local data and the further part. -/
def Pool.undecorated (p : Pool (Sh × G) (T × L)) : Pool Sh T := ⟨p.shared.1, p.tasks.map Prod.fst⟩

/-- An event without what comes with it. -/
def Sched.undecorated : Sched (E × X) → Sched E
  | .task i e => .task i e.1
  | .env e => .env e.1

variable {S : System Sh T E} {start : L} {effect : G → T × L → E × X → Option (G × L × L)}

/-- A task's step is one of the system, with its effect. -/
theorem System.decorate_act {ts new : List (T × L)} {sh sh' : Sh × G} {t t' : T × L} {e : E × X}
    (h : (S.decorate start effect).act ts sh t e = some (sh', t', new)) :
    ∃ new₁ l, S.act (ts.map Prod.fst) sh.1 t.1 e.1 = some (sh'.1, t'.1, new₁) ∧
      effect sh.2 t e = some (sh'.2, t'.2, l) ∧ new = new₁.map fun u => (u, l) := by
  obtain ⟨⟨sh₁, t₁, new₁⟩, hact, h⟩ := Option.bind_eq_some_iff.mp h
  obtain ⟨⟨g, l', l⟩, heffect, heq⟩ := Option.map_eq_some_iff.mp h
  obtain ⟨rfl, rfl, rfl⟩ : _ ∧ _ ∧ _ := by simpa using heq
  exact ⟨new₁, l, hact, heffect, rfl⟩

/-- A step of the environment is one of the system, and leaves the further part alone. -/
theorem System.decorate_env {new : List (T × L)} {sh sh' : Sh × G} {e : E × X}
    (h : (S.decorate start effect).env sh e = some (sh', new)) :
    ∃ new₁, S.env sh.1 e.1 = some (sh'.1, new₁) ∧ sh'.2 = sh.2 ∧
      new = new₁.map fun u => (u, start) := by
  obtain ⟨⟨sh₁, new₁⟩, henv, heq⟩ := Option.map_eq_some_iff.mp h
  obtain ⟨rfl, rfl⟩ : _ ∧ _ := by simpa using heq
  exact ⟨new₁, henv, rfl, rfl⟩

/-- A step is one of the system. -/
theorem System.undecorated_step {p p' : Pool (Sh × G) (T × L)} {a : Sched (E × X)}
    (h : (S.decorate start effect).machine.step p a = some p') :
    S.machine.step p.undecorated a.undecorated = some p'.undecorated := by
  have hmap : ∀ (new : List T) (l : L), (new.map fun u => (u, l)).map Prod.fst = new := by
    intro new l
    rw [List.map_map]
    exact List.map_id new
  rcases System.step_cases _ h with ⟨i, e, t, sh, t', new, rfl, ht, hact, rfl⟩ |
    ⟨e, sh, new, rfl, henv, rfl⟩
  · obtain ⟨new₁, l, hown, -, rfl⟩ := System.decorate_act hact
    have ht' : p.undecorated.tasks[i]? = some t.1 := by simp [Pool.undecorated, ht]
    apply (S.step_task ht' hown).trans
    simp [Pool.undecorated, List.map_set, hmap]
  · obtain ⟨new₁, hown, -, rfl⟩ := System.decorate_env henv
    simp [System.machine, System.next, Pool.undecorated, Sched.undecorated, hown, hmap]

/-- A run is one of the system. -/
theorem System.undecorated_run {p p' : Pool (Sh × G) (T × L)} {es : List (Sched (E × X))}
    (h : (S.decorate start effect).machine.run p es = some p') :
    S.machine.run p.undecorated (es.map Sched.undecorated) = some p'.undecorated := by
  induction es generalizing p with
  | nil =>
      obtain rfl : p = p' := by simpa using h
      rfl
  | cons e es ih =>
      obtain ⟨q, hstep, hrun⟩ := (Machine.run_cons_eq_some _).mp h
      exact (Machine.run_cons_eq_some _).mpr ⟨q.undecorated, System.undecorated_step hstep, ih hrun⟩

end

section

variable {S : System Sh T E} {get : Sh' → Sh} {put : Sh' → Sh → Sh'}

/-- A task's step in a part of the state. -/
theorem System.within_act {ts new : List T} {sh sh' : Sh'} {t t' : T} {e : E}
    (h : (S.within get put).act ts sh t e = some (sh', t', new)) :
    ∃ sh₁, S.act ts (get sh) t e = some (sh₁, t', new) ∧ sh' = put sh sh₁ := by
  obtain ⟨⟨sh₁, r⟩, hact, heq⟩ := Option.map_eq_some_iff.mp h
  obtain ⟨rfl, rfl⟩ : put sh sh₁ = sh' ∧ r = (t', new) := by simpa using heq
  exact ⟨sh₁, hact, rfl⟩

/-- A step of the environment in a part of the state. -/
theorem System.within_env {new : List T} {sh sh' : Sh'} {e : E}
    (h : (S.within get put).env sh e = some (sh', new)) :
    ∃ sh₁, S.env (get sh) e = some (sh₁, new) ∧ sh' = put sh sh₁ := by
  obtain ⟨⟨sh₁, r⟩, henv, heq⟩ := Option.map_eq_some_iff.mp h
  obtain ⟨rfl, rfl⟩ : put sh sh₁ = sh' ∧ r = new := by simpa using heq
  exact ⟨sh₁, henv, rfl⟩

end

section

variable {S₁ : System Sh T₁ E₁} {S₂ : System Sh T₂ E₂} {sh sh' : Sh}

/-- A task's step in two systems is a step in one of them. -/
theorem System.sum_act_cases {ts new : List (T₁ ⊕ T₂)} {t t' : T₁ ⊕ T₂} {e : E₁ ⊕ E₂}
    (h : (S₁.sum S₂).act ts sh t e = some (sh', t', new)) :
    (∃ t₁ e₁ t₁' new₁, t = .inl t₁ ∧ e = .inl e₁ ∧ t' = .inl t₁' ∧ new = new₁.map .inl ∧
        S₁.act (ts.filterMap Sum.getLeft?) sh t₁ e₁ = some (sh', t₁', new₁)) ∨
      (∃ t₂ e₂ t₂' new₂, t = .inr t₂ ∧ e = .inr e₂ ∧ t' = .inr t₂' ∧ new = new₂.map .inr ∧
        S₂.act (ts.filterMap Sum.getRight?) sh t₂ e₂ = some (sh', t₂', new₂)) := by
  rcases t with t | t
  · rcases e with e | e
    · obtain ⟨⟨sh₁, t₁, new₁⟩, hact, heq⟩ := Option.map_eq_some_iff.mp h
      obtain ⟨rfl, rfl, rfl⟩ : _ ∧ _ ∧ _ := by simpa using heq
      exact Or.inl ⟨t, e, t₁, new₁, rfl, rfl, rfl, rfl, hact⟩
    · exact absurd h (by simp [System.sum])
  · rcases e with e | e
    · exact absurd h (by simp [System.sum])
    · obtain ⟨⟨sh₁, t₂, new₂⟩, hact, heq⟩ := Option.map_eq_some_iff.mp h
      obtain ⟨rfl, rfl, rfl⟩ : _ ∧ _ ∧ _ := by simpa using heq
      exact Or.inr ⟨t, e, t₂, new₂, rfl, rfl, rfl, rfl, hact⟩

/-- A step of the environment in two systems is a step of the environment in one of them. -/
theorem System.sum_env_cases {new : List (T₁ ⊕ T₂)} {e : E₁ ⊕ E₂}
    (h : (S₁.sum S₂).env sh e = some (sh', new)) :
    (∃ e₁ new₁, e = .inl e₁ ∧ new = new₁.map .inl ∧ S₁.env sh e₁ = some (sh', new₁)) ∨
      (∃ e₂ new₂, e = .inr e₂ ∧ new = new₂.map .inr ∧ S₂.env sh e₂ = some (sh', new₂)) := by
  rcases e with e | e
  · obtain ⟨⟨sh₁, new₁⟩, henv, heq⟩ := Option.map_eq_some_iff.mp h
    obtain ⟨rfl, rfl⟩ : _ ∧ _ := by simpa using heq
    exact Or.inl ⟨e, new₁, rfl, rfl, henv⟩
  · obtain ⟨⟨sh₁, new₂⟩, henv, heq⟩ := Option.map_eq_some_iff.mp h
    obtain ⟨rfl, rfl⟩ : _ ∧ _ := by simpa using heq
    exact Or.inr ⟨e, new₂, rfl, rfl, henv⟩

end

end together

/-! ## The tasks of a pool after one of them moved -/

section tasks

variable {T : Type}

/-- A task of the pool after a step is the one that moved, one that did not, or a new one. -/
theorem mem_set_append {ts new : List T} {i : ℕ} {t' u : T} (h : u ∈ ts.set i t' ++ new) :
    u = t' ∨ u ∈ ts ∨ u ∈ new := by
  rcases List.mem_append.mp h with h | h
  · rcases List.mem_or_eq_of_mem_set h with h | h
    · exact Or.inr (Or.inl h)
    · exact Or.inl h
  · exact Or.inr (Or.inr h)

/-- The task at a position after a step is the one that moved, the one that was there, or a new
one. -/
theorem getElem?_set_append {ts new : List T} {i j : ℕ} {t' u : T}
    (h : (ts.set i t' ++ new)[j]? = some u) :
    (j = i ∧ u = t') ∨ (j ≠ i ∧ ts[j]? = some u) ∨ (ts.length ≤ j ∧ u ∈ new) := by
  by_cases hj : j < ts.length
  · rw [List.getElem?_append_left (by simpa using hj), List.getElem?_set] at h
    split_ifs at h with hij
    · exact Or.inl ⟨hij.symm, (Option.some.inj h).symm⟩
    · exact Or.inr (Or.inl ⟨fun hji => hij hji.symm, h⟩)
  · rw [List.getElem?_append_right (by simpa using not_lt.mp hj)] at h
    exact Or.inr (Or.inr ⟨not_lt.mp hj, List.mem_of_getElem? h⟩)

/-- The task at a position after a step that brings no others. -/
theorem getElem?_set_cases {ts : List T} {i j : ℕ} {t' u : T} (h : (ts.set i t')[j]? = some u) :
    (j = i ∧ u = t') ∨ (j ≠ i ∧ ts[j]? = some u) := by
  rw [← List.append_nil (ts.set i t')] at h
  rcases getElem?_set_append h with hself | hother | ⟨-, hnew⟩
  · exact Or.inl hself
  · exact Or.inr hother
  · exact absurd hnew List.not_mem_nil

/-- The task at a position after another has come in. -/
theorem getElem?_concat_cases {ts : List T} {j : ℕ} {t u : T} (h : (ts ++ [t])[j]? = some u) :
    ts[j]? = some u ∨ (j = ts.length ∧ u = t) := by
  rcases Nat.lt_or_ge j ts.length with hlt | hge
  · rw [List.getElem?_append_left hlt] at h
    exact Or.inl h
  · rw [List.getElem?_append_right hge] at h
    obtain ⟨hlt, heq⟩ := List.getElem?_eq_some_iff.mp h
    rw [List.length_singleton] at hlt
    rw [List.getElem_singleton] at heq
    exact Or.inr ⟨by omega, heq.symm⟩

/-- The task that moved is in the pool after its step. -/
theorem mem_set_append_self {ts : List T} {i : ℕ} {t : T} (ht : ts[i]? = some t) (t' : T)
    (new : List T) : t' ∈ ts.set i t' ++ new :=
  List.mem_append_left new (List.mem_set (List.getElem?_eq_some_iff.mp ht).1 t')

/-- The task that moved stays at its position. -/
theorem getElem?_set_append_self {ts : List T} {i : ℕ} {t : T} (ht : ts[i]? = some t) (t' : T)
    (new : List T) : (ts.set i t' ++ new)[i]? = some t' := by
  have hi := (List.getElem?_eq_some_iff.mp ht).1
  rw [List.getElem?_append_left (by rwa [List.length_set]), List.getElem?_set_self hi]

/-- A task other than the one that moved is in the pool after the step. -/
theorem mem_set_append_of_ne {ts : List T} {i : ℕ} {t u : T} (ht : ts[i]? = some t) (hu : u ∈ ts)
    (hne : u ≠ t) (t' : T) (new : List T) : u ∈ ts.set i t' ++ new := by
  obtain ⟨j, hj⟩ := List.getElem?_of_mem hu
  have hij : i ≠ j := fun h => hne (Option.some.inj (hj.symm.trans (h ▸ ht)))
  refine List.mem_append_left new (List.mem_of_getElem? (i := j) ?_)
  rw [List.getElem?_set_ne hij, hj]

/-- A task is where it was when others come in. -/
theorem getElem?_append_of_some {ts : List T} {i : ℕ} {t : T} (ht : ts[i]? = some t)
    (new : List T) : (ts ++ new)[i]? = some t := by
  rw [List.getElem?_append_left (List.getElem?_eq_some_iff.mp ht).1, ht]

/-- A step of another task or of the environment leaves a task as it is. -/
theorem System.getElem?_of_step {Sh E : Type} (S : System Sh T E) {p p' : Pool Sh T} {a : Sched E}
    {i : ℕ} {t : T} (ht : p.tasks[i]? = some t) (hother : ∀ e, a ≠ .task i e)
    (h : S.machine.step p a = some p') : p'.tasks[i]? = some t := by
  have hi := (List.getElem?_eq_some_iff.mp ht).1
  rcases S.step_cases h with ⟨j, e, u, sh, u', new, rfl, hu, hact, rfl⟩ |
    ⟨e, sh, new, rfl, henv, rfl⟩
  · have hji : j ≠ i := fun heq => hother e (by rw [heq])
    rw [List.getElem?_append_left (by rwa [List.length_set]), List.getElem?_set_ne hji, ht]
  · rw [List.getElem?_append_left hi, ht]

/-- At most one task, by position, meets `P`: mutual exclusion. -/
def AtMostOne (P : T → Prop) (ts : List T) : Prop :=
  ∀ (i j : ℕ) (t u : T), ts[i]? = some t → ts[j]? = some u → P t → P u → i = j

/-- Mutual exclusion is kept by a step that enters the section only when nobody is inside. -/
theorem AtMostOne.set_append {P : T → Prop} {ts new : List T} {i : ℕ} {t t' : T}
    (h : AtMostOne P ts) (ht : ts[i]? = some t) (hnew : ∀ u ∈ new, ¬ P u)
    (hguard : P t' → P t ∨ ∀ u ∈ ts, ¬ P u) : AtMostOne P (ts.set i t' ++ new) := by
  -- a task inside besides the one that moved is inside before the step as well
  have hother : ∀ j u, j ≠ i → (ts.set i t' ++ new)[j]? = some u → P u → P t' → False := by
    intro j u hj hu hPu hPt'
    rcases getElem?_set_append hu with ⟨hji, -⟩ | ⟨-, hu⟩ | ⟨-, hu⟩
    · exact hj hji
    · rcases hguard hPt' with hPt | hnone
      · exact hj (h j i u t hu ht hPu hPt)
      · exact hnone u (List.mem_of_getElem? hu) hPu
    · exact hnew u hu hPu
  intro j k u v hu hv hPu hPv
  rcases getElem?_set_append hu with ⟨rfl, rfl⟩ | ⟨hji, hu'⟩ | ⟨-, hu'⟩
  · by_contra hjk
    exact hother k v (fun h => hjk h.symm) hv hPv hPu
  · rcases getElem?_set_append hv with ⟨rfl, rfl⟩ | ⟨-, hv'⟩ | ⟨-, hv'⟩
    · exact (hother j u hji hu hPu hPv).elim
    · exact h j k u v hu' hv' hPu hPv
    · exact absurd hPv (hnew v hv')
  · exact absurd hPu (hnew u hu')

/-- Mutual exclusion holds after a step that spawns a task into an empty section. -/
theorem AtMostOne.set_append_singleton {P : T → Prop} {ts : List T} {i : ℕ} {t' u : T}
    (hnone : ∀ v ∈ ts, ¬ P v) (ht' : ¬ P t') : AtMostOne P (ts.set i t' ++ [u]) := by
  have hlast : ∀ j v, (ts.set i t' ++ [u])[j]? = some v → P v → j = ts.length := by
    intro j v hv hPv
    rcases getElem?_set_append hv with ⟨-, rfl⟩ | ⟨-, hv⟩ | ⟨hle, -⟩
    · exact absurd hPv ht'
    · exact absurd hPv (hnone v (List.mem_of_getElem? hv))
    · have hlt := (List.getElem?_eq_some_iff.mp hv).1
      rw [List.length_append, List.length_set, List.length_singleton] at hlt
      omega
  intro j k v w hv hw hPv hPw
  rw [hlast j v hv hPv, hlast k w hw hPw]

/-- Mutual exclusion is kept when tasks come in outside the section. -/
theorem AtMostOne.append {P : T → Prop} {ts new : List T} (h : AtMostOne P ts)
    (hnew : ∀ u ∈ new, ¬ P u) : AtMostOne P (ts ++ new) := by
  have hold : ∀ (j : ℕ) (u : T), (ts ++ new)[j]? = some u → P u → ts[j]? = some u := by
    intro j u hj hu
    by_cases hlt : j < ts.length
    · rwa [List.getElem?_append_left hlt] at hj
    · rw [List.getElem?_append_right (not_lt.mp hlt)] at hj
      exact absurd hu (hnew u (List.mem_of_getElem? hj))
  intro i j t u hi hj ht hu
  exact h i j t u (hold i t hi ht) (hold j u hj hu) ht hu

/-- The number of tasks with a property changes by the task that moved and the tasks it spawned. -/
theorem countP_set_append (P : T → Bool) {ts : List T} {i : ℕ} {t : T} (ht : ts[i]? = some t)
    (t' : T) (new : List T) :
    (ts.set i t' ++ new).countP P + (if P t then 1 else 0) =
      ts.countP P + (if P t' then 1 else 0) + new.countP P := by
  obtain ⟨hi, rfl⟩ := List.getElem?_eq_some_iff.mp ht
  have hpos : P ts[i] = true → 0 < ts.countP P := fun h =>
    List.countP_pos_iff.mpr ⟨ts[i], List.getElem_mem hi, h⟩
  rw [List.countP_append, List.countP_set hi]
  by_cases h : P ts[i] = true
  · have := hpos h
    simp only [if_pos h]
    omega
  · simp only [if_neg h]
    omega

/-- A step into a section from outside adds one to the tasks in it. -/
theorem countP_set_of_enter (P : T → Bool) {ts : List T} {i : ℕ} {t t' : T} (ht : ts[i]? = some t)
    (hbefore : P t = false) (hafter : P t' = true) : (ts.set i t').countP P = ts.countP P + 1 := by
  simpa [hbefore, hafter] using countP_set_append P ht t' []

/-- A step out of a section takes one from the tasks in it. -/
theorem countP_set_of_leave (P : T → Bool) {ts : List T} {i : ℕ} {t t' : T} (ht : ts[i]? = some t)
    (hbefore : P t = true) (hafter : P t' = false) : (ts.set i t').countP P + 1 = ts.countP P := by
  simpa [hbefore, hafter] using countP_set_append P ht t' []

/-- A step inside or outside a section leaves the number of tasks in it alone. -/
theorem countP_set_of_same (P : T → Bool) {ts : List T} {i : ℕ} {t t' : T} (ht : ts[i]? = some t)
    (hsame : P t' = P t) : (ts.set i t').countP P = ts.countP P := by
  have h := countP_set_append P ht t' []
  rw [hsame] at h
  simpa using h

/-- A sum over the tasks changes by the task that moved and the tasks it spawned. -/
theorem sum_map_set_append (f : T → ℕ) {ts : List T} {i : ℕ} {t : T} (ht : ts[i]? = some t)
    (t' : T) (new : List T) :
    ((ts.set i t' ++ new).map f).sum + f t = (ts.map f).sum + f t' + (new.map f).sum := by
  induction ts generalizing i with
  | nil => exact absurd ht (by simp)
  | cons u ts ih =>
      cases i with
      | zero =>
          obtain rfl : u = t := by simpa using ht
          simp only [List.set_cons_zero, List.cons_append, List.map_cons, List.sum_cons,
            List.map_append, List.sum_append]
          omega
      | succ i =>
          have hrest := ih (i := i) (by simpa using ht)
          simp only [List.set_cons_succ, List.cons_append, List.map_cons, List.sum_cons]
          omega

/-- Where the number of tasks with a property is one at most, at most one has it. -/
theorem AtMostOne.of_countP_le {P : T → Bool} {ts : List T} (h : ts.countP P ≤ 1) :
    AtMostOne (fun t => P t = true) ts := by
  induction ts with
  | nil => exact fun i j t u hi => absurd hi (by simp)
  | cons v ts ih =>
      rw [List.countP_cons] at h
      -- a task behind the first one has it only if the first one has not
      have hbehind : ∀ (j : ℕ) (u : T), ts[j]? = some u → P u = true → P v = true → False := by
        intro j u hu hPu hPv
        have hpos : 0 < ts.countP P := List.countP_pos_iff.mpr ⟨u, List.mem_of_getElem? hu, hPu⟩
        rw [if_pos hPv] at h
        omega
      intro i j t u hi hj hPt hPu
      cases i with
      | zero =>
          obtain rfl : v = t := by simpa using hi
          cases j with
          | zero => rfl
          | succ j => exact (hbehind j u (by simpa using hj) hPu hPt).elim
      | succ i =>
          cases j with
          | zero =>
              obtain rfl : v = u := by simpa using hj
              exact (hbehind i t (by simpa using hi) hPt hPu).elim
          | succ j =>
              have hij := ih (by omega) i j t u (by simpa using hi) (by simpa using hj) hPt hPu
              rw [hij]

/-- What the tasks yield changes by what the task that moved and the tasks it spawned yield. -/
theorem filterMap_set_append {β : Type} (f : T → Option β) {ts : List T} {i : ℕ} {t : T}
    (ht : ts[i]? = some t) (t' : T) (new : List T) :
    ((f t).toList ++ (ts.set i t' ++ new).filterMap f).Perm
      ((f t').toList ++ ts.filterMap f ++ new.filterMap f) := by
  obtain ⟨hi, rfl⟩ := List.getElem?_eq_some_iff.mp ht
  have hcons : ∀ u : T, (u :: ts.eraseIdx i).filterMap f =
      (f u).toList ++ (ts.eraseIdx i).filterMap f := by
    intro u
    rw [List.filterMap_cons]
    cases f u <;> rfl
  have hset := (List.set_perm_cons_eraseIdx hi t').filterMap f
  have hold := (List.getElem_cons_eraseIdx_perm hi).filterMap f
  rw [hcons] at hset hold
  rw [List.filterMap_append, ← List.append_assoc]
  refine List.Perm.append_right _ ((hset.append_left _).trans ?_)
  exact (List.perm_append_comm_assoc _ _ _).trans (hold.append_left _)

/-- When every resource is claimed by at most one task, and claimed ones are on a list, there are
at most as many claims as the list is long. -/
theorem length_claims_le {κ : Type} (f : T → Option κ) {ts : List T} {keys : List κ}
    (hmem : ∀ t ∈ ts, ∀ c, f t = some c → c ∈ keys)
    (hone : ∀ c, AtMostOne (fun t => f t = some c) ts) :
    ts.countP (fun t => (f t).isSome) ≤ keys.length := by
  rw [← List.length_filterMap_eq_countP]
  have hnodup : (ts.filterMap f).Nodup := by
    rw [List.Nodup, List.pairwise_filterMap, List.pairwise_iff_getElem]
    intro i j hi hj hij c hc c' hc' heq
    subst heq
    exact absurd (hone c i j _ _ (List.getElem?_eq_getElem hi) (List.getElem?_eq_getElem hj) hc hc')
      (Nat.ne_of_lt hij)
  refine (List.subperm_of_subset hnodup fun c hc => ?_).length_le
  obtain ⟨t, ht, hft⟩ := List.mem_filterMap.mp hc
  exact hmem t ht c hft

end tasks

/-! ## The proof rule -/

section rule

variable {Sh T E : Type} (S : System Sh T E)

/-- **The Owicki–Gries rule, with a condition on the schedule.** `I` is the invariant of the
shared state, `J sh t` the assertion of the task `t`. Each local step (and each step of the
environment) that meets the condition `P` keeps `I`, establishes the assertion of the task that
moved and of the tasks it spawned, and does not disturb the assertion of any other task; then
every run whose steps meet `P` keeps all of them. -/
theorem System.run_owickiGries {P : Pool Sh T → Sched E → Prop} {I : Sh → Prop}
    {J : Sh → T → Prop}
    (hact : ∀ p i e t sh t' new, I p.shared → (∀ u ∈ p.tasks, J p.shared u) →
      P p (.task i e) → p.tasks[i]? = some t → S.act p.tasks p.shared t e = some (sh, t', new) →
      I sh ∧ J sh t' ∧ (∀ u ∈ new, J sh u) ∧ ∀ u ∈ p.tasks, J p.shared u → J sh u)
    (henv : ∀ p e sh new, I p.shared → (∀ u ∈ p.tasks, J p.shared u) → P p (.env e) →
      S.env p.shared e = some (sh, new) →
      I sh ∧ (∀ u ∈ new, J sh u) ∧ ∀ u ∈ p.tasks, J p.shared u → J sh u)
    {p p' : Pool Sh T} {es : List (Sched E)} (hI : I p.shared) (hJ : ∀ u ∈ p.tasks, J p.shared u)
    (hP : S.machine.Along P p es) (hrun : S.machine.run p es = some p') :
    I p'.shared ∧ ∀ u ∈ p'.tasks, J p'.shared u := by
  refine S.machine.run_preserves_along (P := P)
    (I := fun q => I q.shared ∧ ∀ u ∈ q.tasks, J q.shared u) ?_ ⟨hI, hJ⟩ hP hrun
  rintro q a q' ⟨hIq, hJq⟩ hPa hstep
  rcases S.step_cases hstep with ⟨i, e, t, sh, t', new, rfl, ht, hloc, rfl⟩ |
    ⟨e, sh, new, rfl, hloc, rfl⟩
  · obtain ⟨hI', ht', hnew, hothers⟩ := hact q i e t sh t' new hIq hJq hPa ht hloc
    refine ⟨hI', fun u hu => ?_⟩
    rcases mem_set_append hu with rfl | hu | hu
    · exact ht'
    · exact hothers u hu (hJq u hu)
    · exact hnew u hu
  · obtain ⟨hI', hnew, hothers⟩ := henv q e sh new hIq hJq hPa hloc
    refine ⟨hI', fun u hu => ?_⟩
    rcases List.mem_append.mp hu with hu | hu
    · exact hothers u hu (hJq u hu)
    · exact hnew u hu

end rule

end TaskPool
