import Mathlib
import VoxelScout.Geometry.Vec
import VoxelScout.Proofs.Scalar.Real

/-! # Exact vectors

Over the real numbers lengths, products and directions of vectors obey the laws of Euclidean
space, and the direction of a heading has length one.
-/

namespace VoxelScout

open Scalar

namespace Vec

variable {p q : Vec ℝ}

/-! ## Lengths -/

theorem norm_real (p : Vec ℝ) : p.norm = √(p.x ^ 2 + p.y ^ 2 + p.z ^ 2) := by
  rw [norm, Trig.hypot_real, Trig.hypot_real, Real.sq_sqrt (by positivity), add_assoc]

theorem norm_nonneg (p : Vec ℝ) : 0 ≤ p.norm := by
  rw [norm_real]
  exact Real.sqrt_nonneg _

theorem norm_sq (p : Vec ℝ) : p.norm ^ 2 = p.x ^ 2 + p.y ^ 2 + p.z ^ 2 := by
  rw [norm_real, Real.sq_sqrt (by positivity)]

theorem zero_eq : (zero : Vec ℝ) = ⟨0, 0, 0⟩ := by
  simp [zero]

theorem add_sub_cancel_left (p q : Vec ℝ) : (p.add q).sub p = q := by
  simp [add, sub]

theorem add_sub_cancel (p q : Vec ℝ) : p.add (q.sub p) = q := by
  simp [add, sub]

theorem sub_eq_zero_iff : p.sub q = zero ↔ p = q := by
  obtain ⟨x, y, z⟩ := p
  obtain ⟨x', y', z'⟩ := q
  simp [sub, zero_eq, sub_eq_zero]

theorem norm_eq_zero_iff : p.norm = 0 ↔ p = zero := by
  obtain ⟨x, y, z⟩ := p
  rw [← sq_eq_zero_iff, norm_sq, zero_eq, mk.injEq]
  constructor
  · intro h
    dsimp only at h
    exact ⟨by nlinarith, by nlinarith, by nlinarith⟩
  · rintro ⟨rfl, rfl, rfl⟩
    norm_num

theorem norm_pos (h : p ≠ zero) : 0 < p.norm :=
  (norm_nonneg p).lt_of_ne' (mt norm_eq_zero_iff.mp h)

theorem norm_scale (f : ℝ) (p : Vec ℝ) : (p.scale f).norm = |f| * p.norm := by
  rw [norm_real, norm_real, ← Real.sqrt_sq_eq_abs, ← Real.sqrt_mul (sq_nonneg f)]
  congr 1
  simp only [scale]
  ring

theorem norm_unit (h : p ≠ zero) : p.unit.norm = 1 := by
  have hpos := norm_pos h
  rw [unit, norm_scale, one_real, abs_of_pos (one_div_pos.mpr hpos)]
  exact one_div_mul_cancel hpos.ne'

theorem scale_norm_unit (h : p ≠ zero) : p.unit.scale p.norm = p := by
  have hne := (norm_pos h).ne'
  obtain ⟨x, y, z⟩ := p
  simp only [unit, one_real, scale, mk.injEq]
  refine ⟨?_, ?_, ?_⟩ <;> field_simp

/-- The angle between two directions is the one whose cosine their product tells. -/
theorem angle_real (hp : p ≠ zero) (hq : q ≠ zero) :
    p.angle q = Real.arccos (p.dot q / (p.norm * q.norm)) := by
  have hlengths : p.norm * q.norm ≠ 0 := (mul_pos (norm_pos hp) (norm_pos hq)).ne'
  have hclamp (a : ℝ) : Real.arccos (clamp a (-1) 1) = Real.arccos a := by
    unfold clamp
    split_ifs with hlow hhigh
    · rw [Real.arccos_neg_one, Real.arccos_of_le_neg_one hlow.le]
    · rw [Real.arccos_one, Real.arccos_of_one_le hhigh.le]
    · rfl
  simp only [angle, zero_real, one_real, beq_iff_eq, hlengths, if_false, Trig.acos_real]
  exact hclamp _

end Vec

/-- Every heading has a direction of length one. -/
theorem Heading.norm_direction (h : Heading ℝ) : h.direction.norm = 1 := by
  rw [Vec.norm_real, Real.sqrt_eq_one]
  simp only [direction, Trig.sin_real, Trig.cos_real]
  linear_combination Real.sin_sq_add_cos_sq h.pitch +
    Real.cos h.pitch ^ 2 * Real.sin_sq_add_cos_sq h.yaw

end VoxelScout
