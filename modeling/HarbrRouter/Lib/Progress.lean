import HarbrRouter.Lib.Transition

/-!
# Runs that come to an end

A measure in the natural numbers that every step lowers bounds the length of every run, so a run
that goes on while it can stops; and where it stops no step is possible (`Machine.Stuck`). What is
then known of a state without a step is known of the end of every such run.

A run takes its length from the measure (`Machine.length_add_le_of_decreases`), by induction on the
run; and by induction on the measure every state has a run to a stuck one
(`Machine.exists_run_stuck`).
-/

set_option autoImplicit false

namespace Transition.Machine

variable {σ ε : Type} (M : Machine σ ε)

/-- No event that meets `P` is possible. -/
def Stuck (P : σ → ε → Prop) (s : σ) : Prop := ∀ e s', P s e → M.step s e ≠ some s'

variable {M} {P : σ → ε → Prop} {I : σ → Prop} {μ : σ → ℕ}

/-- A measure that every step lowers bounds the runs: a run is no longer than what it takes from
the measure. -/
theorem length_add_le_of_decreases
    (hstep : ∀ s e s', I s → P s e → M.step s e = some s' → I s' ∧ μ s' < μ s) {s s' : σ}
    {es : List ε} (hs : I s) (hP : M.Along P s es) (hrun : M.run s es = some s') :
    es.length + μ s' ≤ μ s := by
  induction es generalizing s with
  | nil =>
      obtain rfl : s = s' := by simpa using hrun
      simp
  | cons e es ih =>
      obtain ⟨t, ht, hrest⟩ := M.run_cons_eq_some.mp hrun
      rw [M.along_cons ht] at hP
      obtain ⟨hI, hlt⟩ := hstep s e t hs hP.1 ht
      have hrec := ih hI hP.2 hrest
      rw [List.length_cons]
      omega

/-- Where every step lowers a measure, every state has a run that ends stuck. -/
theorem exists_run_stuck
    (hstep : ∀ s e s', I s → P s e → M.step s e = some s' → I s' ∧ μ s' < μ s) {s : σ}
    (hs : I s) : ∃ es s', M.Along P s es ∧ M.run s es = some s' ∧ M.Stuck P s' := by
  induction hn : μ s using Nat.strongRecOn generalizing s with
  | ind n ih =>
      by_cases hstuck : M.Stuck P s
      · exact ⟨[], s, trivial, rfl, hstuck⟩
      · obtain ⟨e, t, hPe, ht⟩ : ∃ e t, P s e ∧ M.step s e = some t := by
          simpa [Stuck] using hstuck
        obtain ⟨hI, hlt⟩ := hstep s e t hs hPe ht
        obtain ⟨es, s', halong, hrun, hend⟩ := ih (μ t) (hn ▸ hlt) hI rfl
        exact ⟨e :: es, s', (M.along_cons ht).mpr ⟨hPe, halong⟩,
          M.run_cons_eq_some.mpr ⟨t, ht, hrun⟩, hend⟩

end Transition.Machine
