import Mathlib.Data.List.Induction
import Mathlib.Tactic.Common

/-!
# Labelled machines and their runs

A machine is a guarded, executable step function: `step s e = some s'` when the event `e` is
enabled in `s`, and `none` otherwise. Every nondeterministic choice (which task moves, what the
environment answers) is part of the event, so a run is a list of events and "for every
interleaving" is "for every list of events".

* `Machine.run` executes a list of events.
* `Machine.Along P` says that every step of a run is taken in a state and with an event that
  satisfy `P`; it is how a condition on the schedule is stated.
* `Machine.log` collects what the steps of a run leave behind.
* `Machine.run_preserves` and `Machine.run_preserves_along` are the invariant rules: what every
  step keeps (or every step that meets `P`), every run keeps.
-/

set_option autoImplicit false

namespace Transition

/-- A labelled machine over states `σ` and events `ε`. -/
structure Machine (σ ε : Type) where
  /-- The successor under an event, `none` where the event is not enabled. -/
  step : σ → ε → Option σ

namespace Machine

variable {σ ε : Type} (M : Machine σ ε)

/-- The state after a list of events, `none` when one of them is not enabled. -/
def run : σ → List ε → Option σ
  | s, [] => some s
  | s, e :: es => (M.step s e).bind fun s' => run s' es

/-- Every step of the run of `es` from `s` meets `P`. -/
def Along (P : σ → ε → Prop) : σ → List ε → Prop
  | _, [] => True
  | s, e :: es => P s e ∧ ∀ s', M.step s e = some s' → Along P s' es

/-- The empty run stays where it is. -/
@[simp] theorem run_nil (s : σ) : M.run s [] = some s := rfl

/-- A run takes its first step and goes on from there. -/
theorem run_cons (s : σ) (e : ε) (es : List ε) :
    M.run s (e :: es) = (M.step s e).bind fun s' => M.run s' es := rfl

/-- A successful run of `e :: es` splits at its first step. -/
theorem run_cons_eq_some {s s' : σ} {e : ε} {es : List ε} :
    M.run s (e :: es) = some s' ↔ ∃ t, M.step s e = some t ∧ M.run t es = some s' := by
  rw [run_cons, Option.bind_eq_some_iff]

/-- Running `es ++ fs` is running `es` and then `fs`. -/
theorem run_append (s : σ) (es fs : List ε) :
    M.run s (es ++ fs) = (M.run s es).bind fun t => M.run t fs := by
  induction es generalizing s with
  | nil => rfl
  | cons e es ih =>
      rw [List.cons_append, run_cons, run_cons, Option.bind_assoc]
      exact congrArg _ (funext fun t => ih t)

/-- A successful run of `es ++ fs` passes through a state in the middle. -/
theorem run_append_eq_some {s s' : σ} {es fs : List ε} :
    M.run s (es ++ fs) = some s' ↔ ∃ t, M.run s es = some t ∧ M.run t fs = some s' := by
  rw [run_append, Option.bind_eq_some_iff]

/-- A one-event run is a step. -/
@[simp] theorem run_singleton (s : σ) (e : ε) : M.run s [e] = M.step s e := by
  rw [run_cons]
  cases M.step s e <;> rfl

/-- The condition along a run, read at any one of its steps. -/
theorem along_iff {P : σ → ε → Prop} {s : σ} {es : List ε} :
    M.Along P s es ↔
      ∀ es₁ e es₂, es = es₁ ++ e :: es₂ → ∀ t, M.run s es₁ = some t → P t e := by
  induction es generalizing s with
  | nil =>
      simp only [Along, true_iff]
      intro es₁ e es₂ h
      simp at h
  | cons e es ih =>
      constructor
      · rintro ⟨hP, hrest⟩ es₁ e' es₂ heq t ht
        cases es₁ with
        | nil =>
            obtain ⟨rfl, -⟩ : e = e' ∧ es = es₂ := by simpa using heq
            obtain rfl : s = t := by simpa using ht
            exact hP
        | cons e₁ es₁ =>
            obtain ⟨rfl, rfl⟩ : e = e₁ ∧ es = es₁ ++ e' :: es₂ := by simpa using heq
            obtain ⟨u, hu, hrun⟩ := M.run_cons_eq_some.mp ht
            exact ih.mp (hrest u hu) es₁ e' es₂ rfl t hrun
      · intro h
        refine ⟨h [] e es rfl s rfl, fun s' hs' => ih.mpr ?_⟩
        rintro es₁ e' es₂ rfl t ht
        exact h (e :: es₁) e' es₂ rfl t (M.run_cons_eq_some.mpr ⟨s', hs', ht⟩)

/-- A condition holds along a run with a first step when it holds of that step and along the
rest. -/
theorem along_cons {P : σ → ε → Prop} {s t : σ} {e : ε} {es : List ε} (h : M.step s e = some t) :
    M.Along P s (e :: es) ↔ P s e ∧ M.Along P t es := by
  refine and_congr_right fun _ => ⟨fun hrec => hrec t h, fun hes s' hs' => ?_⟩
  exact Option.some.inj (h.symm.trans hs') ▸ hes

/-- A condition holds along a run with a last step when it holds along the run before and of that
step. -/
theorem along_concat {P : σ → ε → Prop} {s t : σ} {es : List ε} {e : ε}
    (hrun : M.run s es = some t) : M.Along P s (es ++ [e]) ↔ M.Along P s es ∧ P t e := by
  induction es generalizing s with
  | nil =>
      obtain rfl : s = t := by simpa using hrun
      simp [Along]
  | cons e₁ es ih =>
      obtain ⟨u, hu, hrest⟩ := M.run_cons_eq_some.mp hrun
      rw [List.cons_append, M.along_cons hu, M.along_cons hu, ih hrest, and_assoc]

/-- A condition that each event meets in the state before it holds along the run. -/
theorem along_of_getElem {P : σ → ε → Prop} {s : σ} {es : List ε}
    (h : ∀ n e t, es[n]? = some e → M.run s (es.take n) = some t → P t e) : M.Along P s es := by
  rw [along_iff]
  rintro es₁ e es₂ rfl t ht
  exact h es₁.length e t (by simp) (by rwa [List.take_left])

/-- A condition that every event meets in every state of a run holds along the run. -/
theorem along_of_take {P : σ → ε → Prop} {s : σ} {es : List ε}
    (h : ∀ n ≤ es.length, ∀ t, M.run s (es.take n) = some t → ∀ e, P t e) : M.Along P s es := by
  apply along_of_getElem
  intro n e t he ht
  obtain ⟨hn, -⟩ := List.getElem?_eq_some_iff.mp he
  exact h n (Nat.le_of_lt hn) t ht e

/-- The condition along a run holds along each of its prefixes. -/
theorem Along.of_append {P : σ → ε → Prop} {s : σ} {es fs : List ε} (h : M.Along P s (es ++ fs)) :
    M.Along P s es := by
  rw [along_iff] at h ⊢
  rintro es₁ e es₂ rfl t ht
  exact h es₁ e (es₂ ++ fs) (by simp) t ht

/-- The condition along a run holds along what follows a prefix of it. -/
theorem Along.after {P : σ → ε → Prop} {s t : σ} {es fs : List ε} (h : M.Along P s (es ++ fs))
    (hrun : M.run s es = some t) : M.Along P t fs := by
  rw [along_iff] at h ⊢
  rintro fs₁ e fs₂ rfl u hu
  exact h (es ++ fs₁) e fs₂ (by simp) u (M.run_append_eq_some.mpr ⟨t, hrun, hu⟩)

/-- **Invariant rule, with a condition on the steps**: what every step that meets `P` keeps holds
after every run whose steps all meet `P`. -/
theorem run_preserves_along {P : σ → ε → Prop} {I : σ → Prop}
    (hstep : ∀ s e s', I s → P s e → M.step s e = some s' → I s') {s s' : σ} {es : List ε}
    (hs : I s) (hP : M.Along P s es) (hrun : M.run s es = some s') : I s' := by
  induction es generalizing s with
  | nil =>
      obtain rfl : s = s' := by simpa using hrun
      exact hs
  | cons e es ih =>
      obtain ⟨t, ht, hrest⟩ := M.run_cons_eq_some.mp hrun
      exact ih (hstep s e t hs hP.1 ht) (hP.2 t ht) hrest

/-- What every step that meets `P` from a state of the invariant meets as well holds along every run
whose steps all meet `P`. -/
theorem along_of_invariant {P Q : σ → ε → Prop} {I : σ → Prop}
    (hstep : ∀ s e s', I s → P s e → M.step s e = some s' → I s' ∧ Q s e) {s s' : σ} {es : List ε}
    (hs : I s) (hP : M.Along P s es) (hrun : M.run s es = some s') : M.Along Q s es := by
  induction es generalizing s with
  | nil => trivial
  | cons e es ih =>
      obtain ⟨t, ht, hrest⟩ := M.run_cons_eq_some.mp hrun
      rw [M.along_cons ht] at hP ⊢
      obtain ⟨hI, hQ⟩ := hstep s e t hs hP.1 ht
      exact ⟨hQ, ih hI hP.2 hrest⟩

/-- **Invariant rule**: what every step keeps holds after every run. -/
theorem run_preserves {I : σ → Prop} (hstep : ∀ s e s', I s → M.step s e = some s' → I s')
    {s s' : σ} {es : List ε} (hs : I s) (hrun : M.run s es = some s') : I s' := by
  induction es generalizing s with
  | nil =>
      obtain rfl : s = s' := by simpa using hrun
      exact hs
  | cons e es ih =>
      obtain ⟨t, ht, hrest⟩ := M.run_cons_eq_some.mp hrun
      exact ih (hstep s e t hs ht) hrest

/-- What the steps of a run leave behind, in order: `f` says it of one step. -/
def log {β : Type} (f : σ → ε → σ → List β) : σ → List ε → List β
  | _, [] => []
  | s, e :: es =>
      match M.step s e with
      | some t => f s e t ++ log f t es
      | none => []

/-- The log of a run that goes on is the log so far and the log of what follows. -/
theorem log_append {β : Type} (f : σ → ε → σ → List β) {s t : σ} {es : List ε} (fs : List ε)
    (hrun : M.run s es = some t) : M.log f s (es ++ fs) = M.log f s es ++ M.log f t fs := by
  induction es generalizing s with
  | nil =>
      obtain rfl : s = t := by simpa using hrun
      rfl
  | cons e es ih =>
      obtain ⟨u, hu, hrest⟩ := M.run_cons_eq_some.mp hrun
      simp only [List.cons_append, log, hu]
      rw [ih hrest, List.append_assoc]

/-- The log of a run with a last step is the log so far and the entries of that step. -/
theorem log_concat {β : Type} (f : σ → ε → σ → List β) {s t t' : σ} {es : List ε} {e : ε}
    (hrun : M.run s es = some t) (hstep : M.step t e = some t') :
    M.log f s (es ++ [e]) = M.log f s es ++ f t e t' := by
  rw [M.log_append f [e] hrun]
  simp [log, hstep]

/-- What is in the log of a run is left behind by one of its steps. -/
theorem forall_mem_log_iff {β : Type} {f : σ → ε → σ → List β} {P : β → Prop} {s : σ}
    {es : List ε} : (∀ b ∈ M.log f s es, P b) ↔
      M.Along (fun t e => ∀ t', M.step t e = some t' → ∀ b ∈ f t e t', P b) s es := by
  induction es generalizing s with
  | nil => simp [log, Along]
  | cons e es ih =>
      cases hstep : M.step s e with
      | none => simp [log, Along, hstep]
      | some t => simp [log, Along, hstep, ← ih, or_imp, forall_and]

/-- Conditions that agree on the steps that a machine takes agree along its runs. -/
theorem along_congr {P Q : σ → ε → Prop} (h : ∀ s e s', M.step s e = some s' → (P s e ↔ Q s e))
    {s s' : σ} {es : List ε} (hrun : M.run s es = some s') : M.Along P s es ↔ M.Along Q s es := by
  have hrec : ∀ {P Q : σ → ε → Prop}, (∀ s e s', M.step s e = some s' → (P s e ↔ Q s e)) →
      M.Along P s es → M.Along Q s es := fun h hP =>
    M.along_of_invariant (P := _) (I := fun _ => True)
      (fun t e t' _ hPt hstep => ⟨trivial, (h t e t' hstep).mp hPt⟩) trivial hP hrun
  exact ⟨hrec h, hrec fun t e t' hstep => (h t e t' hstep).symm⟩

/-- Induction over a run from its last event backwards: the shape of a statement about the
history of the state reached. -/
theorem run_induction {s : σ} {Q : List ε → σ → Prop} (hnil : Q [] s)
    (hsnoc : ∀ es e t t', M.run s es = some t → Q es t → M.step t e = some t' → Q (es ++ [e]) t')
    {es : List ε} {s' : σ} (hrun : M.run s es = some s') : Q es s' := by
  induction es using List.reverseRecOn generalizing s' with
  | nil =>
      obtain rfl : s = s' := by simpa using hrun
      exact hnil
  | append_singleton es e ih =>
      obtain ⟨t, ht, hstep⟩ := M.run_append_eq_some.mp hrun
      rw [run_singleton] at hstep
      exact hsnoc es e t s' ht (ih ht) hstep

end Machine

end Transition
