import Mathlib
import VoxelScout.Scalar

/-! # Exact scalars

In an ordered field whose elements have floors, such as the rational numbers, the arithmetic of
scalars is exact: nothing is rounded, everything is a number, and nothing lies above all numbers.
-/

namespace VoxelScout.Scalar

def integerPart {K : Type} [Ring K] [LinearOrder K] [FloorRing K] (a : K) : ℤ :=
  if 0 ≤ a then ⌊a⌋ else ⌈a⌉

/-- An ordered field as scalars. -/
abbrev exact (K : Type) [Field K] [LinearOrder K] [IsStrictOrderedRing K] [FloorRing K] :
    Scalar K where
  decLt := inferInstance
  decLe := inferInstance
  beq a b := decide (a = b)
  ofInt i := i
  floor a := ⌊a⌋
  truncate := integerPart
  ceilNat a := ⌈a⌉₊
  abs a := |a|
  larger := max
  smaller := min
  isTop _ := false
  advance cell step := cell + step

instance : Scalar ℚ :=
  exact ℚ

/-- Functions that take the part of roots and angles, whatever they are. -/
class Circular (K : Type) where
  sqrt : K → K
  sin : K → K
  cos : K → K
  acos : K → K
  atan2 : K → K → K
  pi : K

/-- Most roots and angles are not rational; what has to be exact without them can be read over the
rational numbers with any functions in their place. -/
instance [Circular ℚ] : Trig ℚ where
  toScalar := inferInstance
  sqrt := Circular.sqrt
  sin := Circular.sin
  cos := Circular.cos
  acos := Circular.acos
  atan2 := Circular.atan2
  pi := Circular.pi

@[simp] theorem instOfNat_zero : (instOfNat 0 : OfNat ℚ 0).ofNat = 0 :=
  rfl

@[simp] theorem instOfNat_one : (instOfNat 1 : OfNat ℚ 1).ofNat = 1 :=
  rfl

theorem truncate_of_nonneg {a : ℚ} (h : 0 ≤ a) : truncate a = ⌊a⌋ :=
  if_pos h

theorem clamp_eq_max_min {a lo hi : ℚ} (h : lo ≤ hi) : clamp a lo hi = max lo (min a hi) := by
  unfold clamp
  split_ifs with hlow hhigh
  · rw [min_eq_left (hlow.le.trans h), max_eq_left hlow.le]
  · rw [min_eq_right hhigh.le, max_eq_right h]
  · rw [min_eq_left (not_lt.mp hhigh), max_eq_right (not_lt.mp hlow)]

theorem truncate_floor (a : ℚ) : truncate (floor a) = ⌊a⌋ := by
  change integerPart ((⌊a⌋ : ℤ) : ℚ) = ⌊a⌋
  simp [integerPart]

end VoxelScout.Scalar
