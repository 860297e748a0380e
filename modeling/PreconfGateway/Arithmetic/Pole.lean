import Mathlib.Algebra.Order.Field.Basic
import Mathlib.Tactic.Linarith

/-! The curve 1 / (1 - r^k), cut off at a top value that it keeps from its pole on. -/
namespace PreconfGateway.Arithmetic
variable {K : Type*} [Field K] [LinearOrder K]

/-- The value at r, which is the top value from one on. -/
def pole (top : K) (k : Nat) (r : K) : K := if 1 ≤ r then top else min top (1 / (1 - r ^ k))

variable {top r s : K} {k l : Nat}

theorem pole_below (less : r < 1) : pole top k r = min top (1 / (1 - r ^ k)) := if_neg (not_le.mpr less)

theorem pole_from (more : 1 ≤ r) : pole top k r = top := if_pos more

theorem pole_le : pole top k r ≤ top := by
  unfold pole
  split
  · exact le_refl top
  · exact min_le_left _ _

variable [IsStrictOrderedRing K]

/-- Below one the denominator is positive. -/
theorem pole_denominator (hk : 1 ≤ k) (pos : 0 ≤ r) (less : r < 1) : 0 < 1 - r ^ k :=
  sub_pos.mpr (pow_lt_one₀ pos less (Nat.one_le_iff_ne_zero.mp hk))

theorem one_le_rise (hk : 1 ≤ k) (pos : 0 ≤ r) (less : r < 1) : 1 ≤ 1 / (1 - r ^ k) := by
  rw [le_div_iff₀ (pole_denominator hk pos less)]
  have low := pow_nonneg pos k
  linarith

theorem one_le_pole (one : 1 ≤ top) (hk : 1 ≤ k) (pos : 0 ≤ r) : 1 ≤ pole top k r := by
  rcases lt_or_ge r 1 with less | more
  · rw [pole_below less]
    exact le_min one (one_le_rise hk pos less)
  · rw [pole_from more]
    exact one

/-- At zero the curve has not risen. -/
theorem pole_zero (one : 1 ≤ top) (hk : 1 ≤ k) : pole top k (0 : K) = 1 := by
  rw [pole_below zero_lt_one,zero_pow (Nat.one_le_iff_ne_zero.mp hk),sub_zero,div_one,min_eq_right one]

/-- The curve rises. -/
theorem pole_mono (hk : 1 ≤ k) (pos : 0 ≤ r) (le : r ≤ s) : pole top k r ≤ pole top k s := by
  rcases lt_or_ge s 1 with less | more
  · rw [pole_below less,pole_below (le.trans_lt less)]
    apply min_le_min_left
    apply one_div_le_one_div_of_le (pole_denominator hk (pos.trans le) less)
    exact sub_le_sub_left (pow_le_pow_left₀ pos le k) 1
  · rw [pole_from more]
    exact pole_le

/-- A larger exponent bends it down. -/
theorem pole_anti (hk : 1 ≤ k) (le : k ≤ l) (pos : 0 ≤ r) : pole top l r ≤ pole top k r := by
  rcases lt_or_ge r 1 with less | more
  · rw [pole_below less,pole_below less]
    apply min_le_min_left
    apply one_div_le_one_div_of_le (pole_denominator hk pos less)
    exact sub_le_sub_left (pow_le_pow_of_le_one pos less.le le) 1
  · rw [pole_from more,pole_from more]

end PreconfGateway.Arithmetic
