import Mathlib
import VoxelScout.Proofs.Scalar.Exact
import VoxelScout.Proofs.Scalar.Order

/-! # Real scalars

Over the real numbers nothing is rounded either, and there roots and angles are exact as well: a
hypotenuse has the length that its legs say, and `atan2` is the argument of a complex number.
-/

namespace VoxelScout

namespace Scalar

noncomputable instance : Scalar ℝ :=
  exact ℝ

/-- The true roots, angles and circular functions. -/
noncomputable instance : Trig ℝ where
  toScalar := inferInstance
  sqrt := Real.sqrt
  sin := Real.sin
  cos := Real.cos
  acos := Real.arccos
  atan2 y x := Complex.arg ⟨x, y⟩
  pi := Real.pi

theorem ofNat_real (n : ℕ) : (instOfNat n : OfNat ℝ n).ofNat = n :=
  Int.cast_natCast n

@[simp] theorem zero_real : (instOfNat 0 : OfNat ℝ 0).ofNat = 0 := by
  rw [ofNat_real, Nat.cast_zero]

@[simp] theorem one_real : (instOfNat 1 : OfNat ℝ 1).ofNat = 1 := by
  rw [ofNat_real, Nat.cast_one]

/-- Real numbers are ordered, and nothing is beside the order. -/
instance : Ordered ℝ where
  lt_irrefl := lt_irrefl
  lt_trans := lt_trans
  lt_or_lt {a b c} _ hac := lt_or_ge a b |>.imp_right fun hba => hba.trans_lt hac
  le_iff {a b} := by simp [isNumber]
  belowTop_of_lt {a b} _ := by simp [belowTop, isNumber, isTop]
  isNumber_of_lt {a b} _ := by simp [isNumber]
  isNumber_zero := by simp [isNumber]

end Scalar

open Scalar

namespace Trig

@[simp] theorem sqrt_real (x : ℝ) : sqrt x = √x :=
  rfl

@[simp] theorem sin_real (x : ℝ) : sin x = Real.sin x :=
  rfl

@[simp] theorem cos_real (x : ℝ) : cos x = Real.cos x :=
  rfl

@[simp] theorem acos_real (x : ℝ) : acos x = Real.arccos x :=
  rfl

@[simp] theorem atan2_real (y x : ℝ) : atan2 y x = Complex.arg ⟨x, y⟩ :=
  rfl

@[simp] theorem pi_real : (pi : ℝ) = Real.pi :=
  rfl

theorem stretched_eq_sqrt {long short : ℝ} (hshort : 0 ≤ short) (hle : short ≤ long) :
    (if long = 0 then 0 else long * √(1 + short / long * (short / long))) =
      √(long ^ 2 + short ^ 2) := by
  split
  · next h =>
      have hnone : short = 0 := (hle.trans_eq h).antisymm hshort
      simp [h, hnone]
  · next h =>
      have hratio : long ^ 2 + short ^ 2 = long ^ 2 * (1 + short / long * (short / long)) := by
        field_simp
      rw [hratio, Real.sqrt_mul (sq_nonneg long), Real.sqrt_sq (hshort.trans hle)]

/-- The ratio of the legs, which keeps squares small, does not change the length. -/
theorem hypot_real (x y : ℝ) : hypot x y = √(x ^ 2 + y ^ 2) := by
  have hlong : (if |x| < |y| then |y| else |x|) = max |x| |y| := (max_def_lt ..).symm
  have hshort : (if |x| < |y| then |x| else |y|) = min |x| |y| := (min_def_lt ..).symm
  have hsquares : max |x| |y| ^ 2 + min |x| |y| ^ 2 = x ^ 2 + y ^ 2 := by
    rcases le_total |x| |y| with h | h
    · rw [max_eq_right h, min_eq_left h, sq_abs, sq_abs, add_comm]
    · rw [max_eq_left h, min_eq_right h, sq_abs, sq_abs]
  rw [← hsquares, ← stretched_eq_sqrt (le_min (abs_nonneg x) (abs_nonneg y)) min_le_max]
  unfold hypot
  simp only [Scalar.abs, hlong, hshort]
  simp [isTop, isNumber]

end Trig

end VoxelScout
