import Mathlib
import VoxelScout.Proofs.Scalar.Magnitude

/-! # Sine and cosine are small

An angle is reduced to a remainder of two at most, whatever its size, and the polynomials stay
small there. So the sine and the cosine of every finite angle are finite and small.
-/

namespace VoxelScout.Binary64

open Scalar

variable {x y z p c : Float} {k l m n : ℤ} {v : ℚ}

/-! ## Polynomials near zero -/

theorem Within.horner (hp : Within p k) (hz : Within z l) (hc : Within c m) (hkl : k + l < n)
    (hm : m < n) (hfits : Fits (k + l)) (hn : Fits n) : Within (p * z + c) n :=
  (hp.mul hz le_rfl hfits).add hc hkl hm hn

theorem within_sine_coefficients :
    Within 1.58962301576546568060e-10 (-32) ∧ Within (-2.50507477628578072866e-8) (-25) ∧
      Within 2.75573136213857245213e-6 (-18) ∧ Within (-1.98412698295895385996e-4) (-12) ∧
      Within 8.33333333332211858878e-3 (-6) ∧ Within (-1.66666666666666307295e-1) (-2) := by
  decide +kernel

theorem within_cosine_coefficients :
    Within (-1.13585365213876817300e-11) (-36) ∧ Within 2.08757008419747316778e-9 (-28) ∧
      Within (-2.75573141792967388112e-7) (-21) ∧ Within 2.48015872888517045348e-5 (-15) ∧
      Within (-1.38888888888730564116e-3) (-9) ∧ Within 4.16666666666665929218e-2 (-4) ∧
      Within 1.0 0 ∧ Within 0.5 (-1) := by
  decide +kernel

theorem sineNear_within (hz : Within z 1) : Within (sineNear z) 3 := by
  obtain ⟨h₀, h₁, h₂, h₃, h₄, h₅⟩ := within_sine_coefficients
  have hzz : Within (z * z) 2 := hz.mul hz (by decide) (by decide)
  have p₁ := h₀.horner (n := -24) hzz h₁ (by decide) (by decide) (by decide) (by decide)
  have p₂ := p₁.horner (n := -17) hzz h₂ (by decide) (by decide) (by decide) (by decide)
  have p₃ := p₂.horner (n := -11) hzz h₃ (by decide) (by decide) (by decide) (by decide)
  have p₄ := p₃.horner (n := -5) hzz h₄ (by decide) (by decide) (by decide) (by decide)
  have p₅ := p₄.horner (n := -1) hzz h₅ (by decide) (by decide) (by decide) (by decide)
  have hcube : Within (z * (z * z)) 3 := hz.mul hzz (by decide) (by decide)
  exact hz.add (hcube.mul p₅ le_rfl (by decide)) (by decide) (by decide) (by decide)

theorem cosineNear_within (hz : Within z 1) : Within (cosineNear z) 3 := by
  obtain ⟨h₀, h₁, h₂, h₃, h₄, h₅, hone, hhalf⟩ := within_cosine_coefficients
  have hzz : Within (z * z) 2 := hz.mul hz (by decide) (by decide)
  have p₁ := h₀.horner (n := -27) hzz h₁ (by decide) (by decide) (by decide) (by decide)
  have p₂ := p₁.horner (n := -20) hzz h₂ (by decide) (by decide) (by decide) (by decide)
  have p₃ := p₂.horner (n := -14) hzz h₃ (by decide) (by decide) (by decide) (by decide)
  have p₄ := p₃.horner (n := -8) hzz h₄ (by decide) (by decide) (by decide) (by decide)
  have p₅ := p₄.horner (n := -3) hzz h₅ (by decide) (by decide) (by decide) (by decide)
  have hfourth : Within (z * z * (z * z)) 4 := hzz.mul hzz (by decide) (by decide)
  have hparabola : Within (1.0 - 0.5 * (z * z)) 2 :=
    hone.sub (hhalf.mul hzz le_rfl (by decide)) (by decide) (by decide) (by decide)
  exact hparabola.add (hfourth.mul p₅ le_rfl (by decide)) (by decide) (by decide) (by decide)

/-! ## Remainders -/

theorem within_octant_constants :
    Within 1.2732395447351628 1 ∧ Within 7.85398125648498535156e-1 0 ∧
      Within 3.77489470793079817668e-8 (-24) ∧ Within 2.69515142907905952645e-15 (-48) ∧
      Within quarterPi 0 ∧ Within (1 : Float) 0 := by
  decide +kernel

/-- The leading digits of a fraction stand for a number between a half and one, divided by the
zeros before them. -/
theorem within_fraction {digits zeros : Nat} (hdigits : digits < 2 ^ 52) (hzeros : zeros ≤ 63) :
    Within (Float.ofNat (digits + 2 ^ 52) / Float.ofNat (2 ^ (zeros + 53))) 0 := by
  obtain ⟨hnum, hnumValue⟩ := value_ofNat (n := digits + 2 ^ 52) (by omega)
  obtain ⟨hden, hdenValue⟩ := value_ofNat_two_pow (n := zeros + 53) (by omega)
  have hwithin : Within (Float.ofNat (digits + 2 ^ 52)) 53 := by
    refine ⟨hnum, ?_⟩
    rw [hnumValue, abs_of_nonneg (by positivity)]
    exact_mod_cast (by omega : digits + 2 ^ 52 ≤ 2 ^ 53)
  have hlow : (2 : ℚ) ^ (53 : ℤ) ≤ |value (Float.ofNat (2 ^ (zeros + 53)))| := by
    rw [hdenValue, abs_of_nonneg (by positivity), ← zpow_natCast]
    exact two_zpow_le (by omega)
  exact hwithin.div hden hlow (by decide) (by decide)

theorem octantFraction_within (digits : Nat) : Within (octantFraction digits) 0 := by
  have hless (n k : Nat) : n % Nat.pow 2 64 / k < 2 ^ 64 :=
    (Nat.div_le_self _ _).trans_lt (Nat.mod_lt _ (Nat.two_pow_pos 64))
  have hfirst (n : Nat) : n % Nat.pow 2 64 < 2 ^ 64 :=
    Nat.mod_lt _ (Nat.two_pow_pos 64)
  unfold octantFraction
  dsimp only
  refine within_fraction ?_ (Nat.sub_le _ _)
  exact Nat.div_lt_of_lt_mul (Nat.or_lt_two_pow (hfirst _) (hless _ _))

theorem largeOctant_within {j : Nat} (h : largeOctant x = (j, z)) : Within z 1 := by
  obtain ⟨-, -, -, -, hpi, hone⟩ := within_octant_constants
  unfold largeOctant at h
  generalize octantDigits x = digits at h
  have hz := octantFraction_within digits
  dsimp only at h
  split at h
  · cases h
    have hless : Within (octantFraction digits - 1) 1 :=
      hz.sub hone (by decide) (by decide) (by decide)
    exact hless.mul hpi (by decide) (by decide)
  · cases h
    exact hz.mul hpi (by decide) (by decide)

/-- The number of eighths of a turn in a radian, and the three parts of an eighth. -/
theorem value_octant_constants :
    value 1.2732395447351628 = 5734161139222659 / 2 ^ 52 ∧
      value 7.85398125648498535156e-1 = 6588397 / 2 ^ 23 ∧
      value 3.77489470793079817668e-8 = 1328173 / 2 ^ 45 ∧
      value 2.69515142907905952645e-15 = 427063790847255 / 2 ^ 97 := by
  decide +kernel

theorem Nearly.error_le (h : Nearly x v) (hv : |v| ≤ 2 ^ m) (hm : -1020 ≤ m) :
    |value x - v| ≤ 2 ^ (m - 52) := by
  have htiny : halfLeast ≤ 2 ^ (m - 53) := two_zpow_le (by omega)
  have hsplit : (2 : ℚ) ^ (m - 52) = 2 ^ (m - 53) + 2 ^ (m - 53) := by
    rw [← two_mul, ← two_zpow_succ]
    congr 1
    ring
  have hpart : |v| / 2 ^ 53 ≤ 2 ^ (m - 53) := by
    rw [zpow_sub₀ (by norm_num)]
    exact div_le_div_of_nonneg_right hv (by norm_num)
  have herror := Rounds.error h
  change |value x - v| ≤ _ at herror
  linarith

/-- The even number of eighths of a turn is next to the angle. -/
theorem evenEighths_near (hx : Within x 29) (hpos : 0 ≤ value x) :
    |value x * (5734161139222659 / 2 ^ 52) - evenEighths x| ≤ 1 + 1 / 2 ^ 20 ∧
      evenEighths x ≤ 2 ^ 31 := by
  obtain ⟨hfactor, -⟩ := within_octant_constants
  obtain ⟨hvalue, -⟩ := value_octant_constants
  obtain ⟨hnearly, hsize⟩ := hx.nearly_mul hfactor (m := 30) (by decide) (by decide)
  have herror := hnearly.error_le hsize (by decide)
  rw [hvalue] at herror hsize
  have hexact : 0 ≤ value x * (5734161139222659 / 2 ^ 52) := by positivity
  generalize value x * (5734161139222659 / 2 ^ 52) = v at *
  norm_num at hsize herror
  rw [abs_le] at hsize herror
  obtain ⟨hlow, hhigh⟩ := toNat_toUInt64 hnearly.isFinite (by linarith)
  unfold evenEighths
  dsimp only
  generalize (x * 1.2732395447351628).toUInt64.toNat = j at *
  generalize value (x * 1.2732395447351628) = p at *
  have hj : j ≤ 2 ^ 30 + 1 := by
    have hle : (j : ℚ) ≤ 2 ^ 30 + 1 := hlow.trans (max_le (by norm_num) (by linarith))
    exact_mod_cast hle
  have hnear : (j : ℚ) ≤ v + 1 / 2 ^ 20 := by
    refine hlow.trans (max_le (by linarith) (by linarith))
  rw [abs_le]
  split
  · push_cast
    refine ⟨⟨by linarith, by linarith⟩, by omega⟩
  · refine ⟨⟨by linarith, by linarith⟩, by omega⟩

/-- Subtracting the parts of the eighths from the angle leaves little. -/
theorem remainder_within {j : Nat} (hx : Within x 29)
    (hnear : |value x * (5734161139222659 / 2 ^ 52) - j| ≤ 1 + 1 / 2 ^ 20) (hj : j ≤ 2 ^ 31) :
    Within (((x - Float.ofNat j * 7.85398125648498535156e-1)
      - Float.ofNat j * 3.77489470793079817668e-8)
      - Float.ofNat j * 2.69515142907905952645e-15) 1 := by
  obtain ⟨-, hA, hB, hC, -⟩ := within_octant_constants
  obtain ⟨-, hvalueA, hvalueB, hvalueC⟩ := value_octant_constants
  obtain ⟨hfinite, hvalue⟩ := value_ofNat (n := j) (by omega)
  have hy : Within (Float.ofNat j) 31 := by
    refine ⟨hfinite, ?_⟩
    rw [hvalue, abs_of_nonneg (by positivity)]
    exact_mod_cast hj
  obtain ⟨ha, hasize⟩ := hy.nearly_mul hA (m := 31) (by decide) (by decide)
  obtain ⟨hb, hbsize⟩ := hy.nearly_mul hB (m := 7) (by decide) (by decide)
  obtain ⟨hc, hcsize⟩ := hy.nearly_mul hC (m := -17) (by decide) (by decide)
  obtain ⟨hd, hdsize⟩ := hx.nearly_sub (ha.within (by decide) hasize) (m := 32) (by decide)
    (by decide) (by decide)
  obtain ⟨he, hesize⟩ := (hd.within (by decide) hdsize).nearly_sub (hb.within (by decide) hbsize)
    (m := 33) (by decide) (by decide) (by decide)
  obtain ⟨hf, hfsize⟩ := (he.within (by decide) hesize).nearly_sub (hc.within (by decide) hcsize)
    (m := 34) (by decide) (by decide) (by decide)
  refine ⟨hf.isFinite, ?_⟩
  have haerror := ha.error_le hasize (by decide)
  have hberror := hb.error_le hbsize (by decide)
  have hcerror := hc.error_le hcsize (by decide)
  have hderror := hd.error_le hdsize (by decide)
  have heerror := he.error_le hesize (by decide)
  have hferror := hf.error_le hfsize (by decide)
  rw [hvalue, hvalueA] at haerror
  rw [hvalue, hvalueB] at hberror
  rw [hvalue, hvalueC] at hcerror
  have hjq : (j : ℚ) ≤ 2 ^ 31 := by exact_mod_cast hj
  have hj0 : (0 : ℚ) ≤ j := by positivity
  norm_num at haerror hberror hcerror hderror heerror hferror
  rw [abs_le] at *
  constructor <;> linarith

theorem octant_within {j : Nat} (hx : x.isFinite = true) (hpos : 0 ≤ value x)
    (h : octant x = (j, z)) : Within z 1 := by
  unfold octant at h
  split at h
  · exact largeOctant_within h
  · next hsmall =>
    have hlimit : reductionLimit.isFinite = true ∧ value reductionLimit = 2 ^ (29 : ℤ) := by
      decide +kernel
    have hwithin : Within x 29 := by
      rw [ge_iff_le, le_iff_value_le hlimit.1 hx, hlimit.2, not_le] at hsmall
      exact ⟨hx, by rw [abs_of_nonneg hpos]; exact hsmall.le⟩
    obtain ⟨hnear, hj⟩ := evenEighths_near hwithin hpos
    cases h
    exact remainder_within hwithin hnear hj

/-! ## Sine and cosine -/

/-- The two polynomials at the remainder of an angle, whichever its sign. -/
theorem octant_abs_within {j : Nat} (hx : x.isFinite = true) (h : octant x.abs = (j, z)) :
    Within (sineNear z) 3 ∧ Within (cosineNear z) 3 := by
  obtain ⟨hfinite, hvalue⟩ := value_abs hx
  have hz := octant_within hfinite (hvalue ▸ abs_nonneg _) h
  exact ⟨sineNear_within hz, cosineNear_within hz⟩

theorem cos_within (hx : x.isFinite = true) : Within (cos x) 3 := by
  unfold cos
  rw [isNaN_of_isFinite hx, isInf_of_isFinite hx, if_neg (by decide)]
  cases hoctant : octant x.abs with
  | mk j z =>
      obtain ⟨hsine, hcosine⟩ := octant_abs_within hx hoctant
      have heither {q : Prop} [Decidable q] := hsine.ite (q := q) hcosine
      exact heither.neg.ite heither

theorem sin_within (hx : x.isFinite = true) : Within (sin x) 3 := by
  unfold sin
  rw [isNaN_of_isFinite hx, isInf_of_isFinite hx, Bool.or_false]
  split
  · next hzero =>
    refine ⟨hx, ?_⟩
    rw [(beq_iff_value_eq hx (by decide +kernel)).mp hzero]
    decide +kernel
  · rw [if_neg (by decide)]
    cases hoctant : octant x.abs with
    | mk j z =>
        obtain ⟨hsine, hcosine⟩ := octant_abs_within hx hoctant
        have heither {q : Prop} [Decidable q] := hcosine.ite (q := q) hsine
        exact heither.neg.ite heither

end VoxelScout.Binary64
