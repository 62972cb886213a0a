import Mathlib.Tactic.Common

/-!
# Windows over what was pushed last

A list that grows at its end, and that loses a batch of its oldest elements whenever it has become
longer than its limit.

**Theorem** (`Window.push`): every push keeps `Window`. The case that needs an argument is the last
bound: as long as the limit was not passed nothing was dropped, so the window is everything, and its
length is known. From the invariant: the window has everything, or all that the limit allows but one
batch (`Window.min_le_length`), and what it has are the elements pushed last (`Window.eq_drop`).
-/

set_option autoImplicit false

namespace SlidingWindow

variable {α : Type} {limit batch : ℕ} {all window : List α}

/-- Push an element, and drop the oldest ones when there are too many. -/
def push (limit batch : ℕ) (window : List α) (a : α) : List α :=
  if limit < (window ++ [a]).length then (window ++ [a]).drop batch else window ++ [a]

/-- A window over the elements of `all`, which were pushed in this order. -/
structure Window (limit batch : ℕ) (all window : List α) : Prop where
  suffix : window <:+ all
  /-- Nothing is dropped at first. -/
  full : all.length ≤ limit → window = all
  length_le : window.length ≤ limit
  /-- What was dropped last is not more than one batch below the limit. -/
  le_length : limit < all.length → limit + 1 ≤ window.length + batch

namespace Window

/-- The empty window. -/
theorem nil : Window limit batch ([] : List α) [] :=
  ⟨List.suffix_refl [], fun _ => rfl, Nat.zero_le _, fun h => absurd h (Nat.not_lt_zero _)⟩

/-- A push keeps the invariant, as long as a batch has an element. -/
theorem push (h : Window limit batch all window) (hbatch : 0 < batch) (a : α) :
    Window limit batch (all ++ [a]) (push limit batch window a) := by
  have hle := h.length_le
  have hsuffix : window ++ [a] <:+ all ++ [a] := by
    obtain ⟨old, rfl⟩ := h.suffix
    exact ⟨old, (List.append_assoc _ _ _).symm⟩
  unfold SlidingWindow.push
  split_ifs with hlong
  · rw [List.length_append, List.length_singleton] at hlong
    refine ⟨(List.drop_suffix _ _).trans hsuffix, fun hshort => ?_, ?_, fun _ => ?_⟩
    · rw [List.length_append, List.length_singleton] at hshort
      rw [h.full (by omega)] at hlong
      omega
    · rw [List.length_drop, List.length_append, List.length_singleton]
      omega
    · rw [List.length_drop, List.length_append, List.length_singleton]
      omega
  · rw [List.length_append, List.length_singleton] at hlong
    refine ⟨hsuffix, fun hshort => ?_, ?_, fun hlate => ?_⟩
    · rw [List.length_append, List.length_singleton] at hshort
      rw [h.full (by omega)]
    · rw [List.length_append, List.length_singleton]
      omega
    · rw [List.length_append, List.length_singleton] at hlate ⊢
      by_cases hbefore : limit < all.length
      · have := h.le_length hbefore
        omega
      · -- the window would be as long as the limit
        rw [h.full (Nat.le_of_not_lt hbefore)] at hlong
        omega

/-- The window has everything, or all but one batch of what the limit allows. -/
theorem min_le_length (h : Window limit batch all window) :
    min all.length (limit + 1 - batch) ≤ window.length := by
  by_cases hlate : limit < all.length
  · have := h.le_length hlate
    omega
  · rw [h.full (Nat.le_of_not_lt hlate)]
    exact Nat.min_le_left _ _

/-- The window has the elements that were pushed last. -/
theorem eq_drop (h : Window limit batch all window) :
    window = all.drop (all.length - window.length) :=
  List.suffix_iff_eq_drop.mp h.suffix

end Window

end SlidingWindow
