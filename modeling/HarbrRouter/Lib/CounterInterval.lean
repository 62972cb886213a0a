import Mathlib.Algebra.Order.Floor.Semiring
import Mathlib.Algebra.Order.Group.Abs
import Mathlib.Order.Interval.Finset.Nat
import Mathlib.Tactic.Linarith

/-!
# How many values of a counter lie in an interval

A counter takes the values below some number. How many of them lie between two bounds differs from
the length of the interval by less than one (`abs_card_Ioc_sub_lt`, `card_Iic_bounds`): the number
is that of the integers in the interval, the difference of the floors of the bounds (`card_Ioc`,
`card_Iic`), and a floor is less than one below its value.
-/

set_option autoImplicit false

namespace CounterInterval

variable {K : Type} [Field K] [LinearOrder K] [IsStrictOrderedRing K] [FloorSemiring K] {a b : K}
  {n : ℕ}

/-- The values above a bound and not above another one. -/
theorem card_Ioc (ha : 0 ≤ a) (hb : 0 ≤ b) (hn : b < n) :
    ((Finset.range n).filter fun v : ℕ => a < v ∧ (v : K) ≤ b).card = ⌊b⌋₊ - ⌊a⌋₊ := by
  rw [← Nat.card_Ioc]
  congr 1
  ext v
  rw [Finset.mem_filter, Finset.mem_range, Finset.mem_Ioc, Nat.floor_lt ha, Nat.le_floor_iff hb]
  refine and_iff_right_of_imp fun h => ?_
  exact_mod_cast h.2.trans_lt hn

/-- The values that are not above a bound. -/
theorem card_Iic (hb : 0 ≤ b) (hn : b < n) :
    ((Finset.range n).filter fun v : ℕ => (v : K) ≤ b).card = ⌊b⌋₊ + 1 := by
  rw [← Finset.card_range (⌊b⌋₊ + 1)]
  congr 1
  ext v
  rw [Finset.mem_filter, Finset.mem_range, Finset.mem_range, Nat.lt_succ_iff, Nat.le_floor_iff hb]
  refine and_iff_right_of_imp fun h => ?_
  exact_mod_cast h.trans_lt hn

/-- Between two bounds there are about as many values as the interval is long. -/
theorem abs_card_Ioc_sub_lt (ha : 0 ≤ a) (hab : a ≤ b) (hn : b < n) :
    |(((Finset.range n).filter fun v : ℕ => a < v ∧ (v : K) ≤ b).card : K) - (b - a)| < 1 := by
  have hb := ha.trans hab
  rw [card_Ioc ha hb hn, Nat.cast_sub (Nat.floor_mono hab), abs_lt]
  have ha₁ := Nat.floor_le ha
  have ha₂ := Nat.lt_floor_add_one a
  have hb₁ := Nat.floor_le hb
  have hb₂ := Nat.lt_floor_add_one b
  constructor
  · linarith
  · linarith

/-- From zero to a bound there are more values than the interval is long, by one at most. -/
theorem card_Iic_bounds (hb : 0 ≤ b) (hn : b < n) :
    b < ((Finset.range n).filter fun v : ℕ => (v : K) ≤ b).card ∧
      (((Finset.range n).filter fun v : ℕ => (v : K) ≤ b).card : K) ≤ b + 1 := by
  rw [card_Iic hb hn, Nat.cast_add, Nat.cast_one]
  have hb₁ := Nat.floor_le hb
  have hb₂ := Nat.lt_floor_add_one b
  constructor
  · exact hb₂
  · linarith

end CounterInterval
