import HarbrRouter.Basic
import HarbrRouter.Lib.TaskPool

/-!
# Counters that follow a section

An atomic counter that every task increments when it enters a section and decrements when it leaves
it: as long as nothing overflows, it counts the tasks in the section.

A step of a task keeps the counter the number of the tasks in the section, modulo `2 ^ 64`
(`Follows.countP_mod`), by the three ways in which a step can cross the border of the section or
not; and without the modulus as long as there are fewer tasks (`Follows.countP`).
-/

set_option autoImplicit false

namespace HarbrRouter

open TaskPool

/-- A step that takes a task from `before` to `after` (is it in the section?) takes the counter from
`x` to `x'`. -/
def Follows (before after : Bool) (x x' : ℕ) : Prop :=
  (after = before ∧ x' = x) ∨
    (before = false ∧ after = true ∧ x' = wrappingAdd x 1) ∨
    (before = true ∧ after = false ∧ x' = wrappingSub x 1)

namespace Follows

/-- A step that does not touch the counter does not cross the border of the section. -/
theorem same {before after : Bool} (h : after = before) (x : ℕ) : Follows before after x x :=
  Or.inl ⟨h, rfl⟩

/-- Whoever enters increments. -/
theorem enter {before after : Bool} (hbefore : before = false) (hafter : after = true) (x : ℕ) :
    Follows before after x (wrappingAdd x 1) :=
  Or.inr (Or.inl ⟨hbefore, hafter, rfl⟩)

/-- Whoever leaves decrements. -/
theorem leave {before after : Bool} (hbefore : before = true) (hafter : after = false) (x : ℕ) :
    Follows before after x (wrappingSub x 1) :=
  Or.inr (Or.inr ⟨hbefore, hafter, rfl⟩)

/-- **The counter counts the tasks in the section**, above what it started with, as far as a word
can count them. -/
theorem countP_mod {T : Type} {P : T → Bool} {ts : List T} {i : ℕ} {t t' : T} {start x x' : ℕ}
    (h : Follows (P t) (P t') x x') (ht : ts[i]? = some t)
    (hx : x = (start + ts.countP P) % 2 ^ 64) :
    x' = (start + (ts.set i t').countP P) % 2 ^ 64 := by
  rcases h with ⟨hsame, hx'⟩ | ⟨hbefore, hafter, hx'⟩ | ⟨hbefore, hafter, hx'⟩
  · rw [hx', countP_set_of_same P ht hsame, hx]
  · have hcount := countP_set_of_enter P ht hbefore hafter
    rw [hx', hx, hcount]
    unfold wrappingAdd
    omega
  · have hcount := countP_set_of_leave P ht hbefore hafter
    rw [hx', hx, ← hcount]
    unfold wrappingSub
    omega

/-- The counter counts all tasks in the section as long as nothing overflows. -/
theorem countP {T : Type} {P : T → Bool} {ts : List T} {i : ℕ} {t t' : T} {start x x' : ℕ}
    (h : Follows (P t) (P t') x x') (ht : ts[i]? = some t) (hx : x = start + ts.countP P)
    (hbound : start + ts.length < 2 ^ 64) : x' = start + (ts.set i t').countP P := by
  have hle : (ts.set i t').countP P ≤ ts.length := by
    have := List.countP_le_length (p := P) (l := ts.set i t')
    rwa [List.length_set] at this
  have hle' : ts.countP P ≤ ts.length := List.countP_le_length
  have hx' : x = (start + ts.countP P) % 2 ^ 64 := by rw [Nat.mod_eq_of_lt (by omega), hx]
  have hmod := h.countP_mod ht hx'
  rwa [Nat.mod_eq_of_lt (by omega)] at hmod

end Follows

end HarbrRouter
