import Mathlib.Data.List.Infix
import Mathlib.Order.Monotone.Defs
import Mathlib.Tactic.Common

/-!
# Positions in a filtered list

An element that a filter keeps moves up by the elements before it that are dropped: from the
position `i` to the number of the elements that are kept among the first `i`.
`getElem?_filter_countP` and `exists_getElem?_of_filter` go from one list to the other. A list that
is changed at one position has its filtered list changed at the new position, if the elements before
and after are kept (`filter_set_of_kept`), and as it was, if they are dropped
(`filter_set_of_dropped`).
-/

set_option autoImplicit false

namespace Filtered

variable {α : Type} {P : α → Bool} {l : List α}

/-- An element that is kept moves up by the elements before it that are not. -/
theorem getElem?_filter_countP {i : ℕ} {a : α} (hi : l[i]? = some a) (ha : P a = true) :
    (l.filter P)[(l.take i).countP P]? = some a := by
  obtain ⟨hlt, rfl⟩ := List.getElem?_eq_some_iff.mp hi
  have hsplit : l.filter P = (l.take i).filter P ++ (l.drop i).filter P := by
    rw [← List.filter_append, List.take_append_drop]
  rw [hsplit, List.countP_eq_length_filter, List.getElem?_append_right le_rfl, Nat.sub_self,
    List.drop_eq_getElem_cons hlt, List.filter_cons_of_pos ha]
  rfl

/-- Every position of the filtered list comes from one of the list. -/
theorem exists_getElem?_of_filter {j : ℕ} {a : α} (hj : (l.filter P)[j]? = some a) :
    ∃ i, l[i]? = some a ∧ (l.take i).countP P = j := by
  induction l generalizing j with
  | nil => exact absurd hj (by simp)
  | cons b l ih =>
      by_cases hb : P b = true
      · rw [List.filter_cons_of_pos hb] at hj
        cases j with
        | zero => exact ⟨0, hj, rfl⟩
        | succ j =>
            obtain ⟨i, hi, hcount⟩ := ih hj
            exact ⟨i + 1, hi, by simp [hb, hcount]⟩
      · rw [List.filter_cons_of_neg hb] at hj
        obtain ⟨i, hi, hcount⟩ := ih hj
        exact ⟨i + 1, hi, by simp [hb, hcount]⟩

/-- The order of the positions is kept. -/
theorem monotone_countP_take : Monotone fun i => (l.take i).countP P :=
  fun _ _ hij => (List.take_prefix_take_left hij).sublist.countP_le

/-- Where an element that is kept is replaced by another one that is kept, the filtered list is
changed at its new position. -/
theorem filter_set_of_kept {i : ℕ} {a b : α} (hi : l[i]? = some a) (ha : P a = true)
    (hb : P b = true) : (l.set i b).filter P = (l.filter P).set ((l.take i).countP P) b := by
  induction l generalizing i with
  | nil => exact absurd hi (by simp)
  | cons c l ih =>
      cases i with
      | zero =>
          obtain rfl : c = a := by simpa using hi
          simp [ha, hb]
      | succ i =>
          have hrest := ih (by simpa using hi)
          by_cases hc : P c = true
          · simp [hc, hrest]
          · simp [hc, hrest]

/-- Where an element that is dropped is replaced by another one that is dropped, the filtered list
is as it was. -/
theorem filter_set_of_dropped {i : ℕ} {a b : α} (hi : l[i]? = some a) (ha : P a = false)
    (hb : P b = false) : (l.set i b).filter P = l.filter P := by
  induction l generalizing i with
  | nil => exact absurd hi (by simp)
  | cons c l ih =>
      cases i with
      | zero =>
          obtain rfl : c = a := by simpa using hi
          simp [ha, hb]
      | succ i =>
          have hrest := ih (by simpa using hi)
          by_cases hc : P c = true
          · simp [hc, hrest]
          · simp [hc, hrest]

end Filtered
