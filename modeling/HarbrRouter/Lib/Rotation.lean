import Mathlib.Algebra.Ring.Nat
import Mathlib.Data.List.Count
import Mathlib.Data.List.Rotate
import Mathlib.Data.Option.Basic
import Mathlib.Tactic.Common

/-!
# Windows of a rotation through a list

A rotation hands out the elements of a list in a circle, by a counter taken modulo the length.
`window l c n` is what `n` consecutive counter values from `c` on hand out.

**Theorem** (`le_count_window`, `count_window_le`): any window is fair up to the part of a turn it
ends with. A whole turn is the list, rotated (`window_turn`), so it hands out each element as often
as the list has it, wherever it starts (`window_turn_perm`); by induction on the turns that counts
every window of whole turns (`count_window_turns`), and any window lies between two of these
(`count_window_mono`).
-/

set_option autoImplicit false

namespace Rotation

variable {α : Type}

/-- What the counter values `c`, `c + 1`, …, `c + n - 1` hand out. -/
def window (l : List α) (c n : ℕ) : List (Option α) :=
  (List.range n).map fun k => l[(c + k) % l.length]?

@[simp] theorem length_window (l : List α) (c n : ℕ) : (window l c n).length = n := by
  simp [window]

/-- A window is two windows, one after the other. -/
theorem window_add (l : List α) (c m n : ℕ) :
    window l c (m + n) = window l c m ++ window l (c + m) n := by
  simp [window, List.range_add, Nat.add_assoc, Function.comp_def]

/-- A window of a whole turn is the list, rotated. -/
theorem window_turn (l : List α) (c : ℕ) : window l c l.length = (l.rotate c).map some := by
  apply List.ext_getElem
  · simp
  · intro k hk _
    have hk : k < l.length := by simpa using hk
    have hlt : (k + c) % l.length < l.length := Nat.mod_lt _ (Nat.zero_lt_of_lt hk)
    simp only [window, List.getElem_map, List.getElem_range, List.getElem_rotate, Nat.add_comm c k]
    exact List.getElem?_eq_getElem hlt

/-- A whole turn hands out the elements of the list, wherever it starts. -/
theorem window_turn_perm (l : List α) (c : ℕ) : (window l c l.length).Perm (l.map some) := by
  rw [window_turn]
  exact (l.rotate_perm c).map some

/-- Only elements of the list are handed out. -/
theorem mem_of_mem_window {l : List α} {c n : ℕ} {a : α} (h : some a ∈ window l c n) : a ∈ l := by
  obtain ⟨k, -, hk⟩ := List.mem_map.mp h
  exact List.mem_of_getElem? hk

section count

variable [DecidableEq α]

/-- Whole turns hand out each element once for each time the list has it. -/
theorem count_window_turns (l : List α) (a : α) (c q : ℕ) :
    (window l c (l.length * q)).count (some a) = l.count a * q := by
  induction q generalizing c with
  | zero => simp [window]
  | succ q ih =>
      have hturn : (window l c l.length).count (some a) = l.count a := by
        rw [(window_turn_perm l c).count_eq,
          List.count_map_of_injective l some (Option.some_injective α) a]
      rw [Nat.mul_succ, Nat.add_comm, window_add, List.count_append, hturn, ih, Nat.mul_succ,
        Nat.add_comm]

/-- A longer window hands out at least as much. -/
theorem count_window_mono (l : List α) (a : α) (c : ℕ) {m n : ℕ} (h : m ≤ n) :
    (window l c m).count (some a) ≤ (window l c n).count (some a) := by
  obtain ⟨k, rfl⟩ := Nat.exists_eq_add_of_le h
  rw [window_add, List.count_append]
  exact Nat.le_add_right _ _

/-- **Fairness from below**: an element is handed out in every whole turn of the window. -/
theorem le_count_window (l : List α) (a : α) (c n : ℕ) :
    l.count a * (n / l.length) ≤ (window l c n).count (some a) := by
  rw [← count_window_turns l a c]
  exact count_window_mono l a c (Nat.mul_div_le n l.length)

/-- **Fairness from above**: an element is handed out in no more turns than the window begins. -/
theorem count_window_le (l : List α) (a : α) (c n : ℕ) :
    (window l c n).count (some a) ≤ l.count a * ((n + l.length - 1) / l.length) := by
  rcases Nat.eq_zero_or_pos l.length with hl | hl
  · have hnil : l = [] := List.length_eq_zero_iff.mp hl
    have hmem : some a ∉ window l c n := fun h => by
      simpa [hnil] using mem_of_mem_window h
    rw [List.count_eq_zero_of_not_mem hmem]
    exact Nat.zero_le _
  · rw [← count_window_turns l a c]
    apply count_window_mono
    have hdiv := Nat.div_add_mod (n + l.length - 1) l.length
    have hmod := Nat.mod_lt (n + l.length - 1) hl
    omega

end count

end Rotation
