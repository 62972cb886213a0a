import Mathlib.Data.List.Infix

/-!
# Orders of operations on an object

An object with atomic operations, and a list of operations in the order in which they take effect.
Concurrent calls are linearizable when such an order explains what they did and puts an operation
before another whenever it was over before the other began.

**Theorem** (`after_insert`): an operation whose effect commutes with the operations from some point
on can be inserted at this point. By induction on the operations behind it: the effect moves past
them one after the other, to the end of the order.
`Respects` is the condition on the order; an insertion keeps it when the operation precedes nothing
before it and nothing behind it precedes the operation (`Respects.insert`).
-/

set_option autoImplicit false

namespace Linearization

variable {σ α : Type}

section after

variable (apply : σ → α → σ) (start : σ)

/-- The object after a list of operations. -/
def after (order : List α) : σ := order.foldl apply start

/-- Before all operations the object is as it was at the start. -/
@[simp] theorem after_nil : after apply start [] = start := rfl

/-- The object after some operations and one more is the object after them, with that one
applied. -/
@[simp] theorem after_concat (order : List α) (x : α) :
    after apply start (order ++ [x]) = apply (after apply start order) x := by
  rw [after, List.foldl_append]
  rfl

variable {apply start}

/-- **An operation whose effect commutes with what comes after can be inserted.** -/
theorem after_insert {effect : σ → σ} {before rest : List α} {x : α}
    (hx : apply (after apply start before) x = effect (after apply start before))
    (hcomm : ∀ ys y, ys ++ [y] <+: rest →
      apply (effect (after apply start (before ++ ys))) y =
        effect (apply (after apply start (before ++ ys)) y)) :
    after apply start (before ++ x :: rest) = effect (after apply start (before ++ rest)) := by
  induction rest using List.reverseRecOn with
  | nil => rw [after_concat, hx, List.append_nil]
  | append_singleton ys y ih =>
      have hys := ih fun zs z hzs => hcomm zs z (hzs.trans (List.prefix_append ys [y]))
      have hlast := hcomm ys y (List.prefix_refl _)
      rw [← List.cons_append, ← List.append_assoc, after_concat, hys, hlast, ← List.append_assoc,
        after_concat]

end after

/-- No operation comes after one that it precedes. -/
def Respects (precedes : α → α → Prop) (order : List α) : Prop :=
  order.Pairwise fun x y => ¬ precedes y x

variable {precedes precedes' : α → α → Prop} {order before rest : List α} {x : α}

/-- An order respects what precedes less. -/
theorem Respects.mono (h : Respects precedes order)
    (hle : ∀ a ∈ order, ∀ b ∈ order, precedes' a b → precedes a b) : Respects precedes' order :=
  List.Pairwise.imp_of_mem (fun ha hb hnot hprec => hnot (hle _ hb _ ha hprec)) h

/-- An operation that precedes none of those before it, and is preceded by none of those after it,
can be inserted. -/
theorem Respects.insert (h : Respects precedes (before ++ rest))
    (hbefore : ∀ a ∈ before, ¬ precedes x a) (hrest : ∀ b ∈ rest, ¬ precedes b x) :
    Respects precedes (before ++ x :: rest) := by
  obtain ⟨hleft, hright, hcross⟩ := List.pairwise_append.mp h
  refine List.pairwise_append.mpr ⟨hleft, List.pairwise_cons.mpr ⟨hrest, hright⟩, ?_⟩
  intro a ha b hb
  rcases List.mem_cons.mp hb with rfl | hb
  · exact hbefore a ha
  · exact hcross a ha b hb

end Linearization
