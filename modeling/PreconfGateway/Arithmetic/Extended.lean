import Mathlib.Analysis.SpecialFunctions.Pow.Real

/-! Exact arithmetic with the special values of floating point: the real numbers, what a
division by zero leaves, and no rounding. The sign of a zero is not kept. -/
namespace PreconfGateway.Arithmetic

inductive Extended
  | nan
  | negInf
  | finite (x : ℝ)
  | posInf

namespace Extended

/-- Infinity times a number with the sign of x. -/
noncomputable def infinite (x : ℝ) : Extended := if 0 < x then posInf else if x < 0 then negInf else nan

def sub : Extended → Extended → Extended
  | finite a, finite b => finite (a - b)
  | finite _, posInf | negInf, finite _ | negInf, posInf => negInf
  | finite _, negInf | posInf, finite _ | posInf, negInf => posInf
  | _, _ => nan

noncomputable def mul : Extended → Extended → Extended
  | finite a, finite b => finite (a * b)
  | finite a, posInf | posInf, finite a => infinite a
  | finite a, negInf | negInf, finite a => infinite (-a)
  | posInf, posInf | negInf, negInf => posInf
  | posInf, negInf | negInf, posInf => negInf
  | _, _ => nan

noncomputable def div : Extended → Extended → Extended
  | finite a, finite b => if b = 0 then infinite a else finite (a / b)
  | finite _, posInf | finite _, negInf => finite 0
  | posInf, finite b => if b < 0 then negInf else posInf
  | negInf, finite b => if b < 0 then posInf else negInf
  | _, _ => nan

/-- Powers of numbers from zero on. -/
noncomputable def powf : Extended → Extended → Extended
  | finite x, finite k => if x < 0 then nan else if x = 0 ∧ k < 0 then posInf else finite (x ^ k)
  | _, _ => nan

noncomputable def le : Extended → Extended → Bool
  | finite a, finite b => decide (a ≤ b)
  | negInf, negInf | negInf, finite _ | negInf, posInf | finite _, posInf | posInf, posInf => true
  | _, _ => false

noncomputable def lt : Extended → Extended → Bool
  | finite a, finite b => decide (a < b)
  | negInf, finite _ | negInf, posInf | finite _, posInf => true
  | _, _ => false

/-- The larger number; what is no number is passed over. -/
noncomputable def max : Extended → Extended → Extended
  | nan, b => b
  | a, nan => a
  | a, b => if le a b then b else a

noncomputable def min : Extended → Extended → Extended
  | nan, b => b
  | a, nan => a
  | a, b => if le a b then a else b

noncomputable def ceil : Extended → Extended
  | finite x => finite ⌈x⌉
  | x => x

/-- The cast saturates at both ends. -/
noncomputable def toU64 : Extended → UInt64
  | finite x => .ofNat (Nat.min ⌊x⌋.toNat (2 ^ 64 - 1))
  | posInf => .ofNat (2 ^ 64 - 1)
  | _ => 0

def isFinite : Extended → Bool
  | finite _ => true
  | _ => false

section Finite
variable (a b : ℝ)

@[simp] theorem finite_inj {a b : ℝ} : finite a = finite b ↔ a = b := by simp

@[simp] theorem sub_finite : sub (finite a) (finite b) = finite (a - b) := rfl

@[simp] theorem mul_finite : mul (finite a) (finite b) = finite (a * b) := rfl

theorem div_finite {a b : ℝ} (h : b ≠ 0) : div (finite a) (finite b) = finite (a / b) := if_neg h

@[simp] theorem le_finite : le (finite a) (finite b) = decide (a ≤ b) := rfl

@[simp] theorem lt_finite : lt (finite a) (finite b) = decide (a < b) := rfl

@[simp] theorem max_finite : max (finite a) (finite b) = finite (a ⊔ b) := by
  simp only [max,le_finite,decide_eq_true_eq]
  split
  · rename_i h
    rw [sup_eq_right.mpr h]
  · rename_i h
    rw [sup_eq_left.mpr (le_of_lt (not_le.mp h))]

@[simp] theorem min_finite : min (finite a) (finite b) = finite (a ⊓ b) := by
  simp only [min,le_finite,decide_eq_true_eq]
  split
  · rename_i h
    rw [inf_eq_left.mpr h]
  · rename_i h
    rw [inf_eq_right.mpr (le_of_lt (not_le.mp h))]

@[simp] theorem ceil_finite : ceil (finite a) = finite ⌈a⌉ := rfl

@[simp] theorem isFinite_finite : isFinite (finite a) = true := rfl

theorem powf_finite {x k : ℝ} (hx : 0 ≤ x) (h : x = 0 → 0 ≤ k) : powf (finite x) (finite k) = finite (x ^ k) := by
  have zero : ¬ (x = 0 ∧ k < 0) := fun ⟨hx,hk⟩ => absurd (h hx) (not_le.mpr hk)
  rw [powf,if_neg (not_lt.mpr hx),if_neg zero]

end Finite
end Extended
end PreconfGateway.Arithmetic
