import Mathlib
import VoxelScout.Geometry.Vec
import VoxelScout.Proofs.Scalar.Magnitude

/-! # How long vectors are

The computed length of a vector lies within small factors of its longest coordinate, down to the
least numbers there are. A vector divided by its length has small coordinates, unless the length
is so small that its reciprocal overflows.
-/

namespace VoxelScout

open Scalar Binary64

variable {x y z : Float} {k m : ℤ}

/-! ## Hypotenuses -/

theorem within_zero : Within 0 0 ∧ value 0 = 0 := by
  decide +kernel

theorem within_one : Within 1 0 ∧ value 1 = 1 := by
  decide +kernel

/-- The hypotenuse is the longer leg stretched, and zero if there is none. -/
theorem hypot_eq (hx : x.isFinite = true) (hy : y.isFinite = true) :
    ∃ long short : Float, long.isFinite = true ∧ short.isFinite = true ∧
      value long = max |value x| |value y| ∧ value short = min |value x| |value y| ∧
      Trig.hypot x y =
        if long == 0 then 0 else long * (1 + short / long * (short / long)).sqrt := by
  obtain ⟨hp, hpvalue⟩ := value_abs hx
  obtain ⟨hq, hqvalue⟩ := value_abs hy
  have htop {a : Float} (ha : a.isFinite = true) : isTop a = false := beq_inf_of_isFinite ha
  have hnumber {a : Float} (ha : a.isFinite = true) : isNumber a = true :=
    (beq_iff_value_eq ha ha).mpr rfl
  have hless : x.abs < y.abs ↔ |value x| < |value y| := by
    rw [lt_iff_value_lt hp hq, hpvalue, hqvalue]
  have hfinite : Trig.hypot x y =
      let long := if x.abs < y.abs then y.abs else x.abs
      let short := if x.abs < y.abs then x.abs else y.abs
      if long == 0 then 0 else long * (1 + short / long * (short / long)).sqrt := by
    change (if isTop x.abs then _ else if isTop y.abs then _ else
      if !isNumber x.abs then _ else if !isNumber y.abs then _ else _) = _
    rw [htop hp, htop hq, hnumber hp, hnumber hq]
    rfl
  by_cases h : |value x| < |value y|
  · refine ⟨y.abs, x.abs, hq, hp, ?_, ?_, ?_⟩
    · rw [hqvalue, max_eq_right h.le]
    · rw [hpvalue, min_eq_left h.le]
    · rw [hfinite]
      simp only [hless.mpr h, if_true]
  · refine ⟨x.abs, y.abs, hp, hq, ?_, ?_, ?_⟩
    · rw [hpvalue, max_eq_left (not_lt.mp h)]
    · rw [hqvalue, min_eq_right (not_lt.mp h)]
    · rw [hfinite]
      simp only [mt hless.mp h, if_false]

theorem ratio_le_one (x y : Float) :
    |(min |value x| |value y| / max |value x| |value y| : ℚ)| ≤ 2 ^ (0 : ℤ) := by
  have hpos : 0 ≤ min |value x| |value y| / max |value x| |value y| := by positivity
  rw [zpow_zero, abs_of_nonneg hpos]
  exact div_le_one_of_le₀ min_le_max (by positivity)

theorem hypot_eq_mul (hx : x.isFinite = true) (hy : y.isFinite = true)
    (hne : max |value x| |value y| ≠ 0) :
    ∃ long ratio : Float, long.isFinite = true ∧ value long = max |value x| |value y| ∧
      Nearly ratio (min |value x| |value y| / max |value x| |value y|) ∧
      Trig.hypot x y = long * (1 + ratio * ratio).sqrt := by
  obtain ⟨long, short, hlong, hshort, hlongValue, hshortValue, heq⟩ := hypot_eq hx hy
  have hsize : |value short / value long| ≤ 2 ^ (0 : ℤ) := by
    rw [hlongValue, hshortValue]
    exact ratio_le_one x y
  have hratio := div_nearly hshort hlong (hlongValue ▸ hne) (hsize.trans_lt (Fits.lt (by decide)))
  rw [hlongValue, hshortValue] at hratio
  refine ⟨long, short / long, hlong, hlongValue, hratio, ?_⟩
  rw [heq, if_neg]
  rwa [beq_iff_value_eq hlong within_zero.1.isFinite, within_zero.2, hlongValue]

theorem hypot_eq_zero (hx : x.isFinite = true) (hy : y.isFinite = true)
    (hzero : max |value x| |value y| = 0) : Trig.hypot x y = 0 := by
  obtain ⟨long, short, hlong, -, hlongValue, -, heq⟩ := hypot_eq hx hy
  rw [heq, if_pos]
  rw [beq_iff_value_eq hlong within_zero.1.isFinite, within_zero.2, hlongValue, hzero]

theorem one_add_square (hx : Within x 0) :
    Nearly (1 + x * x) (1 + value (x * x)) ∧ Within (1 + x * x) 1 ∧ 1 ≤ value (1 + x * x) ∧
      0 ≤ value (x * x) := by
  obtain ⟨hone, honeValue⟩ := within_one
  obtain ⟨hsquare, hsquareSize⟩ := hx.nearly_mul hx (m := 0) (by decide) (by decide)
  have hpos : 0 ≤ value (x * x) := hsquare.nonneg (mul_self_nonneg _)
  obtain ⟨hsum, hsumSize⟩ := hone.nearly_add (hsquare.within (by decide) hsquareSize) (m := 1)
    (by decide) (by decide) (by decide)
  rw [honeValue] at hsum hsumSize
  refine ⟨hsum, hsum.within (by decide) hsumSize, ?_, hpos⟩
  have hlow := hsum.two_zpow_le_value (k := 0) (by decide) (by rw [zpow_zero]; linarith)
  rwa [zpow_zero] at hlow

theorem exists_root (hx : x.isFinite = true) (hone : 1 ≤ value x) :
    ∃ w, 2 ^ (-1 : ℤ) ≤ w ∧ |w ^ 2 - value x| ≤ value x / 2 ^ 52 ∧ Nearly x.sqrt w := by
  obtain ⟨w, hw, hsquare, hnearly⟩ := sqrt_nearly hx (by linarith)
  refine ⟨w, ?_, hsquare, hnearly⟩
  rw [abs_le] at hsquare
  norm_num at hsquare ⊢
  nlinarith

/-- The factor by which the longer leg is stretched lies between a half and two. -/
theorem stretch_within (hx : Within x 0) :
    Within (1 + x * x).sqrt 1 ∧ 2 ^ (-1 : ℤ) ≤ value (1 + x * x).sqrt := by
  obtain ⟨-, hsum, hone, -⟩ := one_add_square hx
  obtain ⟨w, hw, -, hnearly⟩ := exists_root hsum.isFinite hone
  exact ⟨hsum.sqrt (by linarith) (by decide) (by decide),
    hnearly.two_zpow_le_value (by decide) hw⟩

/-- The factor is nearly one when the other leg is far shorter. -/
theorem stretch_le (hx : Within x (-29)) : value (1 + x * x).sqrt ≤ 1 + 1 / 2 ^ 36 := by
  obtain ⟨hsum, -, hone, hpos⟩ := one_add_square (hx.mono (by decide))
  obtain ⟨w, hw, hsquare, hnearly⟩ := exists_root hsum.isFinite hone
  have hsmall : value (x * x) ≤ 2 ^ (-58 : ℤ) :=
    (le_abs_self _).trans (hx.mul hx (m := -58) (by decide) (by decide)).le
  have hsumError := hsum.relative (k := 0) (by decide) (by
    rw [zpow_zero, abs_of_nonneg (by linarith)]
    linarith)
  have hrootError := hnearly.relative (k := -1) (by decide) (hw.trans (le_abs_self w))
  have hwpos : 0 < w := lt_of_lt_of_le (by positivity) hw
  rw [abs_of_nonneg (by linarith : 0 ≤ 1 + value (x * x))] at hsumError
  rw [abs_of_pos hwpos] at hrootError
  rw [abs_le] at hsquare hsumError hrootError
  norm_num at hsmall
  have hsumLe : value (1 + x * x) ≤ 1 + 1 / 2 ^ 38 := by
    norm_num at hsumError ⊢
    linarith
  have hwle : w ≤ 1 + 1 / 2 ^ 37 := by
    norm_num at hsquare hsumLe ⊢
    nlinarith
  norm_num at hrootError hwle ⊢
  linarith

/-- The longer of two legs that are not both zero is stretched by a factor that their ratio
decides. -/
theorem exists_stretch (hx : Within x k) (hy : Within y k) (hk : Fits (k + 1))
    (hne : max |value x| |value y| ≠ 0) :
    ∃ ratio : Float, Nearly ratio (min |value x| |value y| / max |value x| |value y|) ∧
      2 ^ (-1 : ℤ) ≤ value (1 + ratio * ratio).sqrt ∧
      |max |value x| |value y| * value (1 + ratio * ratio).sqrt| ≤ 2 ^ (k + 1) ∧
      Nearly (Trig.hypot x y) (max |value x| |value y| * value (1 + ratio * ratio).sqrt) := by
  obtain ⟨long, ratio, hlong, hlongValue, hratio, heq⟩ :=
    hypot_eq_mul hx.isFinite hy.isFinite hne
  obtain ⟨hstretch, hstretchLow⟩ :=
    stretch_within (hratio.within (by decide) (ratio_le_one x y))
  have hsize : Within long k := by
    refine ⟨hlong, ?_⟩
    rw [hlongValue, abs_of_nonneg (by positivity)]
    exact max_le hx.le hy.le
  obtain ⟨hproduct, hproductSize⟩ := hsize.nearly_mul hstretch le_rfl hk
  rw [hlongValue] at hproduct hproductSize
  exact ⟨ratio, hratio, hstretchLow, hproductSize, heq ▸ hproduct⟩

theorem hypot_within (hx : Within x k) (hy : Within y k) (hk : Fits (k + 1)) :
    Within (Trig.hypot x y) (k + 1) ∧ 0 ≤ value (Trig.hypot x y) := by
  by_cases hne : max |value x| |value y| = 0
  · obtain ⟨hzero, hzeroValue⟩ := within_zero
    rw [hypot_eq_zero hx.isFinite hy.isFinite hne]
    refine ⟨⟨hzero.isFinite, ?_⟩, hzeroValue.ge⟩
    rw [hzeroValue, abs_zero]
    positivity
  · obtain ⟨ratio, -, hstretch, hsize, hproduct⟩ := exists_stretch hx hy hk hne
    refine ⟨hproduct.within hk hsize, hproduct.nonneg (mul_nonneg (by positivity) ?_)⟩
    exact le_trans (by positivity) hstretch

/-- A hypotenuse is not much shorter than the legs. -/
theorem two_zpow_le_hypot (hx : Within x k) (hy : Within y k) (hk : Fits (k + 1))
    (hm : -1073 ≤ m) (h : 2 ^ m ≤ max |value x| |value y|) :
    2 ^ (m - 1) ≤ value (Trig.hypot x y) := by
  have hne : max |value x| |value y| ≠ 0 := (lt_of_lt_of_le (by positivity) h).ne'
  obtain ⟨ratio, -, hstretch, -, hproduct⟩ := exists_stretch hx hy hk hne
  refine hproduct.two_zpow_le_value (by omega) ?_
  rw [sub_eq_add_neg, zpow_add₀ (by norm_num)]
  gcongr

/-- A hypotenuse is nearly its first leg when the other one is far shorter. -/
theorem hypot_le (hx : Within x k) (hy : Within y k) (hk : Fits (k + 1)) (hm : -1026 ≤ m)
    (hlong : 2 ^ m ≤ |value x|) (hshort : |value y| ≤ 2 ^ (m - 29)) :
    value (Trig.hypot x y) ≤ |value x| * (1 + 1 / 2 ^ 35) := by
  have hpos : 0 < |value x| := lt_of_lt_of_le (by positivity) hlong
  have hless : |value y| ≤ |value x| := hshort.trans ((two_zpow_le (by omega)).trans hlong)
  obtain ⟨ratio, hratio, hstretch, -, hproduct⟩ :=
    exists_stretch hx hy hk (by rw [max_eq_left hless]; exact hpos.ne')
  rw [max_eq_left hless] at hratio hproduct
  rw [min_eq_right hless] at hratio
  have hratioSize : |(|value y| / |value x| : ℚ)| ≤ 2 ^ (-29 : ℤ) := by
    rw [abs_of_nonneg (by positivity), div_le_iff₀ hpos]
    calc |value y| ≤ 2 ^ (m - 29) := hshort
      _ = 2 ^ (-29 : ℤ) * 2 ^ m := by
          rw [← zpow_add₀ (by norm_num)]
          congr 1
          ring
      _ ≤ 2 ^ (-29 : ℤ) * |value x| := by gcongr
  have hstretchLe := stretch_le (hratio.within (by decide) hratioSize)
  generalize value (1 + ratio * ratio).sqrt = stretch at *
  have hexact : 2 ^ (m - 1) ≤ |value x| * stretch := by
    rw [sub_eq_add_neg, zpow_add₀ (by norm_num)]
    gcongr
  have hexactLe : |value x| * stretch ≤ |value x| * (1 + 1 / 2 ^ 36) := by gcongr
  have herror := hproduct.relative (k := m - 1) (by omega) (hexact.trans (le_abs_self _))
  rw [abs_of_nonneg (le_trans (by positivity) hexact), abs_le] at herror
  norm_num at hexactLe herror ⊢
  linarith

/-! ## Lengths -/

structure Vec.Within (p : Vec Float) (k : ℤ) : Prop where
  x : Binary64.Within p.x k
  y : Binary64.Within p.y k
  z : Binary64.Within p.z k

variable {p : Vec Float}

theorem Vec.Within.mono (hp : p.Within k) (hk : k ≤ m) : p.Within m :=
  ⟨hp.x.mono hk, hp.y.mono hk, hp.z.mono hk⟩

section Norm

variable (hp : p.Within k) (hlow : Fits k) (hhigh : Fits (k + 2))

include hp hlow hhigh

theorem hypot_rest_within : Binary64.Within (Trig.hypot p.y p.z) (k + 1) :=
  (hypot_within hp.y hp.z (hlow.between hhigh (by omega) (by omega))).1

theorem norm_within : Binary64.Within p.norm (k + 2) ∧ 0 ≤ value p.norm := by
  have hnorm := hypot_within (hp.x.mono (by omega)) (hypot_rest_within hp hlow hhigh)
    (by rwa [add_assoc])
  rwa [add_assoc] at hnorm

theorem two_zpow_le_norm (hm : -1072 ≤ m)
    (h : 2 ^ m ≤ |value p.x| ∨ 2 ^ m ≤ |value p.y| ∨ 2 ^ m ≤ |value p.z|) :
    2 ^ (m - 2) ≤ value p.norm := by
  have hsplit : m - 2 = m - 1 - 1 := by ring
  have hleg : 2 ^ (m - 1) ≤ max |value p.x| |value (Trig.hypot p.y p.z)| := by
    rcases h with hx | hyz
    · exact le_max_of_le_left ((two_zpow_le (by omega)).trans hx)
    · have hrest := two_zpow_le_hypot hp.y hp.z (hlow.between hhigh (by omega) (by omega))
        (by omega) (le_max_iff.mpr hyz)
      exact le_max_of_le_right (hrest.trans (le_abs_self _))
  rw [hsplit]
  exact two_zpow_le_hypot (hp.x.mono (by omega)) (hypot_rest_within hp hlow hhigh)
    (by rwa [add_assoc]) (by omega) hleg

end Norm

/-! ## Reciprocals -/

/-- Finite values are whole numbers of the least one. -/
theorem exists_value_eq (hx : x.isFinite = true) :
    ∃ n : ℤ, value x = n * 2 ^ (-1074 : ℤ) := by
  have hproper := proper_unpack x
  replace hx : x.toModel.unpack.isFinite = true := hx
  unfold value
  cases hparts : x.toModel.unpack with
  | notANumber =>
      rw [hparts] at hx
      cases hx
  | infinity s =>
      rw [hparts] at hx
      cases hx
  | zero s => exact ⟨0, by simp [valueOf]⟩
  | finite s m e h =>
      rw [hparts] at hproper
      have hleast : -1074 ≤ e := hproper.least
      refine ⟨s.apply m * 2 ^ (e + 1074).toNat, ?_⟩
      have hexponent : e = ((e + 1074).toNat : ℤ) + -1074 := by omega
      rw [valueOf]
      conv_lhs => rw [hexponent, two_zpow_add]
      generalize (2 : ℚ) ^ (-1074 : ℤ) = unit
      push_cast
      ring

/-- The reciprocal of what is greater than `2 ^ (-1024)` does not overflow. -/
theorem reciprocal_nearly (hx : x.isFinite = true) (hlarge : 2 ^ (-1024 : ℤ) < value x) :
    Nearly (1 / x) (1 / value x) := by
  obtain ⟨n, hn⟩ := exists_value_eq hx
  have hunit : (0 : ℚ) < 2 ^ (-1074 : ℤ) := zpow_pos (by norm_num) _
  have hgap : (2 : ℚ) ^ (-1024 : ℤ) + 2 ^ (-1074 : ℤ) ≤ value x := by
    have hsplit : (2 : ℚ) ^ (-1024 : ℤ) = (2 ^ 50 : ℕ) * 2 ^ (-1074 : ℤ) := by
      rw [show (-1024 : ℤ) = ((50 : ℕ) : ℤ) + -1074 from rfl, two_zpow_add]
    rw [hn, hsplit] at hlarge ⊢
    generalize (2 : ℚ) ^ (-1074 : ℤ) = unit at *
    have hless : 2 ^ 50 < n := by exact_mod_cast lt_of_mul_lt_mul_right hlarge hunit.le
    have hle : (2 ^ 50 : ℚ) + 1 ≤ n := by exact_mod_cast hless
    calc ((2 ^ 50 : ℕ) : ℚ) * unit + unit = (2 ^ 50 + 1) * unit := by
          push_cast
          ring
      _ ≤ n * unit := by gcongr
  have hpos : 0 < value x := (zpow_pos (by norm_num) _).trans hlarge
  have hbound : (0 : ℚ) < overflowBound :=
    (zpow_pos (by norm_num) (0 : ℤ)).trans (two_zpow_lt_overflowBound.mpr (by decide))
  have hone : 1 < overflowBound * (2 ^ (-1024 : ℤ) + 2 ^ (-1074 : ℤ)) := by
    rw [overflowBound, sub_mul, mul_add, mul_add, ← zpow_add₀ (by norm_num),
      ← zpow_add₀ (by norm_num), ← zpow_add₀ (by norm_num), ← zpow_add₀ (by norm_num)]
    norm_num
  refine within_one.2 ▸ div_nearly within_one.1.isFinite hx hpos.ne' ?_
  rw [within_one.2, abs_of_pos (one_div_pos.mpr hpos), div_lt_iff₀ hpos]
  exact hone.trans_le (mul_le_mul_of_nonneg_left hgap hbound.le)

theorem isFinite_reciprocal (hx : x.isFinite = true) (hpos : 0 < value x)
    (hsmall : value x ≤ 2 ^ (-1024 : ℤ)) : (1 / x).isFinite = false := by
  refine isFinite_div_of_le within_one.1.isFinite hx hpos.ne' ?_
  rw [within_one.2, abs_of_pos (one_div_pos.mpr hpos), le_div_iff₀ hpos]
  calc (2 : ℚ) ^ (1024 : ℤ) * value x ≤ 2 ^ (1024 : ℤ) * 2 ^ (-1024 : ℤ) :=
        mul_le_mul_of_nonneg_left hsmall (zpow_nonneg (by norm_num) _)
    _ = 1 := by rw [← zpow_add₀ (by norm_num)]; rfl

/-! ## Directions -/

/-- The length of a vector lies next above `2 ^ l` and has a reciprocal; the coordinates are not
much longer. -/
structure Vec.Magnitude (p : Vec Float) (l : ℤ) : Prop where
  least : -1024 ≤ l
  most : l ≤ 1023
  le_norm : 2 ^ l ≤ value p.norm
  norm_lt : value p.norm < 2 ^ (l + 1)
  reciprocal : Nearly (1 / p.norm) (1 / value p.norm)
  within : p.Within (l + 3)

theorem exists_magnitude (hp : p.Within k) (hlow : Fits k) (hhigh : Fits (k + 2))
    (hlarge : 2 ^ (-1024 : ℤ) < value p.norm) : ∃ l, p.Magnitude l := by
  have hnorm := (norm_within hp hlow hhigh).1
  have hpos : 0 < value p.norm := (zpow_pos (by norm_num) _).trans hlarge
  obtain ⟨l, hbelow, habove⟩ := exists_mem_Ico_zpow hpos (by norm_num : (1 : ℚ) < 2)
  have hleast : -1024 ≤ l := by
    have := (zpow_lt_zpow_iff_right₀ (by norm_num)).mp (hlarge.trans habove)
    omega
  have hmost : l ≤ 1023 := by
    have := le_of_two_zpow_le (hbelow.trans ((le_abs_self _).trans hnorm.le))
    unfold Fits at hhigh
    omega
  have hcoordinate {c : ℚ} (h : 2 ^ (l + 3) ≤ c → 2 ^ (l + 3 - 2) ≤ value p.norm) :
      c ≤ 2 ^ (l + 3) := by
    by_contra hc
    have hle := h (not_le.mp hc).le
    rw [show l + 3 - 2 = l + 1 by ring] at hle
    exact absurd habove (not_lt.mpr hle)
  have hlong := two_zpow_le_norm hp hlow hhigh (m := l + 3) (by omega)
  refine ⟨l, hleast, hmost, hbelow, habove, reciprocal_nearly hnorm.isFinite hlarge,
    ⟨hp.x.isFinite, ?_⟩, ⟨hp.y.isFinite, ?_⟩, ⟨hp.z.isFinite, ?_⟩⟩
  · exact hcoordinate fun h => hlong (.inl h)
  · exact hcoordinate fun h => hlong (.inr (.inl h))
  · exact hcoordinate fun h => hlong (.inr (.inr h))

namespace Vec.Magnitude

variable {l : ℤ} {c : Float} (h : p.Magnitude l)

include h

theorem norm_pos : 0 < value p.norm :=
  (zpow_pos (by norm_num) l).trans_le h.le_norm

theorem reciprocal_within : Binary64.Within (1 / p.norm) (-l) := by
  have hleast := h.least
  have hmost := h.most
  refine ⟨h.reciprocal.isFinite, Rounds.le_two_pow h.reciprocal (by omega) ?_⟩
  rw [abs_of_pos (one_div_pos.mpr h.norm_pos), zpow_neg, ← one_div]
  exact one_div_le_one_div_of_le (by positivity) h.le_norm

theorem le_one_div : 2 ^ (-l - 1) ≤ 1 / value p.norm := by
  rw [show -l - 1 = -(l + 1) by ring, zpow_neg, ← one_div]
  exact one_div_le_one_div_of_le h.norm_pos h.norm_lt.le

theorem le_reciprocal : 2 ^ (-l - 1) ≤ value (1 / p.norm) := by
  have hmost := h.most
  exact h.reciprocal.two_zpow_le_value (by omega) h.le_one_div

theorem scaled_nearly (hc : Binary64.Within c (l + 3)) :
    Nearly (1 / p.norm * c) (value (1 / p.norm) * value c) :=
  (h.reciprocal_within.nearly_mul hc (m := 3) (by omega) (by decide)).1

theorem le_abs_scaled (hc : 2 ^ m ≤ |value c|) :
    2 ^ (m - l - 1) ≤ |value (1 / p.norm) * value c| := by
  have hlow := h.le_reciprocal
  rw [abs_mul, show m - l - 1 = -l - 1 + m by ring, zpow_add₀ (by norm_num)]
  exact mul_le_mul (hlow.trans (le_abs_self _)) hc (by positivity) (abs_nonneg _)

/-- Where a direction has a small coordinate, the vector has a short one. -/
theorem le_of_scaled (hc : Binary64.Within c (l + 3))
    (hsmall : |value (1 / p.norm * c)| < 2 ^ (-33 : ℤ)) : |value c| ≤ 2 ^ (l - 32) := by
  by_contra hlong
  have hexact := h.le_abs_scaled (not_le.mp hlong).le
  rw [show l - 32 - l - 1 = -33 by ring] at hexact
  exact absurd hsmall
    (not_lt.mpr ((h.scaled_nearly hc).two_zpow_le_abs_value (by decide) hexact))

/-- The direction of a vector that is not much longer than its first coordinate is close to the
first axis. -/
theorem lt_unit_x (hfirst : 2 ^ (l - 2) ≤ |value p.x|)
    (hlength : value p.norm ≤ |value p.x| * (1 + 1 / 2 ^ 35)) :
    1 - 1 / 2 ^ 20 < |value p.unit.x| := by
  have hmost := h.most
  have hpos := h.norm_pos
  have hreciprocalPos : 0 < value (1 / p.norm) :=
    (zpow_pos (by norm_num) _).trans_le h.le_reciprocal
  have hunitLow := h.le_abs_scaled hfirst
  rw [show l - 2 - l - 1 = -3 by ring] at hunitLow
  have hunitError := (h.scaled_nearly h.within.x).relative (by decide) hunitLow
  have hreciprocalError := h.reciprocal.relative (k := -l - 1) (by omega)
    (h.le_one_div.trans (le_abs_self _))
  change _ < |value (1 / p.norm * p.x)|
  have hdifference := abs_sub_abs_le_abs_sub (value (1 / p.norm) * value p.x)
    (value (1 / p.norm * p.x))
  rw [abs_sub_comm] at hunitError
  rw [abs_mul, abs_of_pos hreciprocalPos] at hdifference hunitError
  rw [abs_of_pos (one_div_pos.mpr hpos), abs_le] at hreciprocalError
  have hshare : 1 ≤ |value p.x| / value p.norm * (1 + 1 / 2 ^ 35) := by
    rw [div_mul_eq_mul_div, le_div_iff₀ hpos, one_mul]
    exact hlength
  have hfactor : |value p.x| / value p.norm * (1 - 1 / 2 ^ 39) ≤
      value (1 / p.norm) * |value p.x| := by
    calc |value p.x| / value p.norm * (1 - 1 / 2 ^ 39)
        = (1 / value p.norm - 1 / value p.norm / 2 ^ 39) * |value p.x| := by ring
      _ ≤ value (1 / p.norm) * |value p.x| := by
          gcongr
          linarith
  generalize |value p.x| / value p.norm = share at hshare hfactor
  generalize value (1 / p.norm) * |value p.x| = exact at hfactor hdifference hunitError
  norm_num at hshare hfactor hunitError ⊢
  linarith

end Vec.Magnitude

theorem scale_within {f : Float} {l : ℤ} (hf : Binary64.Within f k) (hp : p.Within l)
    (hkl : k + l ≤ m) (hm : Fits m) : (p.scale f).Within m :=
  ⟨hf.mul hp.x hkl hm, hf.mul hp.y hkl hm, hf.mul hp.z hkl hm⟩

section Direction

variable (hp : p.Within k) (hlow : Fits k) (hhigh : Fits (k + 2))

include hp hlow hhigh

theorem unit_within (hlarge : 2 ^ (-1024 : ℤ) < value p.norm) : p.unit.Within 3 := by
  obtain ⟨l, h⟩ := exists_magnitude hp hlow hhigh hlarge
  exact scale_within h.reciprocal_within h.within (by omega) (by decide)

/-- A vector whose other coordinates are far shorter is not much longer than the first one. -/
theorem norm_le {l : ℤ} (h : p.Magnitude l) (hy : |value p.y| ≤ 2 ^ (l - 32))
    (hz : |value p.z| ≤ 2 ^ (l - 32)) :
    2 ^ (l - 2) ≤ |value p.x| ∧ value p.norm ≤ |value p.x| * (1 + 1 / 2 ^ 35) := by
  have hleast := h.least
  have hmost := h.most
  have hrest : |value (Trig.hypot p.y p.z)| ≤ 2 ^ (l - 32 + 1) :=
    (hypot_within ⟨hp.y.isFinite, hy⟩ ⟨hp.z.isFinite, hz⟩ ⟨by omega, by omega⟩).1.le
  have hwithin := hypot_rest_within hp hlow hhigh
  have hfirst : 2 ^ (l - 2) ≤ |value p.x| := by
    by_contra hshort
    have hnorm := (hypot_within (k := l - 2) ⟨hp.x.isFinite, (not_le.mp hshort).le⟩
      ⟨hwithin.isFinite, hrest.trans (two_zpow_le (by omega))⟩ ⟨by omega, by omega⟩).1.le
    have hle := le_of_two_zpow_le (h.le_norm.trans ((le_abs_self _).trans hnorm))
    omega
  exact ⟨hfirst, hypot_le (hp.x.mono (by omega)) hwithin (by rwa [add_assoc]) (by omega) hfirst
    (hrest.trans (two_zpow_le (by omega)))⟩

/-- A direction that is not close to the first axis has another coordinate that is not small. -/
theorem exists_unit_coordinate (hlarge : 2 ^ (-1024 : ℤ) < value p.norm)
    (haligned : |value p.unit.x| ≤ 1 - 1 / 2 ^ 20) :
    2 ^ (-33 : ℤ) ≤ |value p.unit.y| ∨ 2 ^ (-33 : ℤ) ≤ |value p.unit.z| := by
  obtain ⟨l, h⟩ := exists_magnitude hp hlow hhigh hlarge
  by_contra hsmall
  rw [not_or, not_le, not_le] at hsmall
  obtain ⟨hfirst, hlength⟩ := norm_le hp hlow hhigh h (h.le_of_scaled h.within.y hsmall.1)
    (h.le_of_scaled h.within.z hsmall.2)
  exact absurd haligned (not_le.mpr (h.lt_unit_x hfirst hlength))

end Direction

end VoxelScout
