import Mathlib
import VoxelScout.Proofs.Decimal.Shortest

/-! # Rounding to the nearest number

Arithmetic on floating point numbers keeps the leading bits of an exact result and two bits for
the rest of it. From these the result is rounded to the number it is near to.
-/

namespace VoxelScout.Decimal

open Float.Model Float.Model.UnpackedFloat

/-! ## The bits kept of a quotient -/

/-- The mantissa is the whole part of `num / den`; the two bits tell how the rest compares to zero
and to a half. -/
def Describes (em : ExtendedMantissa) (num den : Nat) : Prop :=
  ∃ rest, rest < den ∧ num = em.mantissa * den + rest ∧ em.roundBit = decide (den ≤ 2 * rest) ∧
    em.stickyBit = decide (rest ≠ 0 ∧ 2 * rest ≠ den)

theorem describes_ofMantissaAndAccuracy (num : Nat) {den : Nat} (hden : 0 < den) :
    Describes (.ofMantissaAndAccuracy (num / den) (accuracyOfFraction (num % den) den))
      num den := by
  refine ⟨num % den, Nat.mod_lt num hden, ?_⟩
  have hsplit : num = num / den * den + num % den := (Nat.div_add_mod' num den).symm
  generalize num % den = rest at hsplit ⊢
  unfold accuracyOfFraction
  by_cases hzero : rest = 0
  · rw [if_pos hzero]
    exact ⟨hsplit, (decide_eq_false (by omega)).symm, (decide_eq_false (by omega)).symm⟩
  · rw [if_neg hzero]
    rcases Nat.lt_trichotomy (2 * rest) den with hlt | heq | hgt
    · rw [Nat.compare_eq_lt.mpr hlt]
      exact ⟨hsplit, (decide_eq_false (by omega)).symm, (decide_eq_true (by omega)).symm⟩
    · rw [Nat.compare_eq_eq.mpr heq]
      exact ⟨hsplit, (decide_eq_true (by omega)).symm, (decide_eq_false (by omega)).symm⟩
    · rw [Nat.compare_eq_gt.mpr hgt]
      exact ⟨hsplit, (decide_eq_true (by omega)).symm, (decide_eq_true (by omega)).symm⟩

theorem Describes.shiftRightOne {em : ExtendedMantissa} {num den : Nat} (h : Describes em num den) :
    Describes em.shiftRightOne num (den * 2) := by
  obtain ⟨rest, hlt, hnum, hround, hsticky⟩ := h
  have hhalf : em.mantissa * den = em.mantissa / 2 * (den * 2) + em.mantissa % 2 * den := by
    conv_lhs => rw [← Nat.div_add_mod em.mantissa 2]
    ring
  have hbit : em.mantissa % 2 = 0 ∨ em.mantissa % 2 = 1 := by omega
  refine ⟨em.mantissa % 2 * den + rest, ?_, ?_, ?_, ?_⟩
  · rcases hbit with hbit | hbit <;> rw [hbit] <;> omega
  · rw [hnum, hhalf, Nat.add_assoc]
    rfl
  · change (em.mantissa % 2 != 0) = _
    rcases hbit with hbit | hbit
    · rw [hbit]
      exact (decide_eq_false (by omega)).symm
    · rw [hbit]
      exact (decide_eq_true (by omega)).symm
  · simp only [ExtendedMantissa.shiftRightOne, hround, hsticky, ← Bool.decide_or]
    rcases hbit with hbit | hbit
    · rw [hbit]
      exact decide_eq_decide.mpr (by omega)
    · rw [hbit]
      exact decide_eq_decide.mpr (by omega)

theorem Describes.shiftRight {em : ExtendedMantissa} {num den : Nat} (h : Describes em num den)
    (k : Nat) : Describes (em >>> k) num (den * 2 ^ k) := by
  induction k with
  | zero =>
      rw [pow_zero, mul_one]
      exact h
  | succ k ih =>
      rw [pow_succ, ← mul_assoc]
      exact ih.shiftRightOne

theorem Describes.mantissa_eq {em : ExtendedMantissa} {num den : Nat} (h : Describes em num den) :
    em.mantissa = num / den := by
  obtain ⟨rest, hlt, rfl, -, -⟩ := h
  rw [Nat.mul_comm, Nat.mul_add_div (by omega), Nat.div_eq_of_lt hlt, Nat.add_zero]

theorem Describes.roundedMantissa {em : ExtendedMantissa} {num den : Nat}
    (h : Describes em num den) : em.roundedMantissa = roundDiv num den := by
  obtain ⟨mantissa, round, sticky⟩ := em
  have hmantissa := h.mantissa_eq
  obtain ⟨rest, hlt, hnum, hround, hsticky⟩ := h
  dsimp only at hmantissa hnum hround hsticky
  have hrest : num % den = rest := by
    have := Nat.div_add_mod' num den
    rw [← hmantissa] at this
    omega
  unfold ExtendedMantissa.roundedMantissa roundDiv
  rw [← hmantissa, hrest]
  dsimp only
  cases round with
  | false =>
      have hless : 2 * rest < den := by simpa using hround
      rw [if_pos hless]
      cases sticky <;> rfl
  | true =>
      have hmost : den ≤ 2 * rest := by simpa using hround
      rw [if_neg (by omega)]
      cases sticky with
      | true =>
          have hne : 2 * rest ≠ den := (by simpa using hsticky : _ ∧ _).2
          rw [if_pos (by omega)]
          rfl
      | false =>
          have heq : 2 * rest = den := by
            by_contra hne
            have hzero : rest = 0 := by simpa [hne] using hsticky
            omega
          rw [if_neg (by omega)]
          simp only [ExtendedMantissa.accuracy, Accuracy.roundToNearestEven, beq_iff_eq]
          split <;> omega

/-- The nearest whole number is the one less than half away, or half away and even. -/
theorem roundDiv_unique {num den r : Nat} (hden : 0 < den) (hlow : 2 * (r * den) ≤ 2 * num + den)
    (hhigh : 2 * num ≤ 2 * (r * den) + den)
    (hodd : r % 2 = 1 → 2 * (r * den) < 2 * num + den ∧ 2 * num < 2 * (r * den) + den) :
    roundDiv num den = r := by
  have hsplit : num / den * den + num % den = num := Nat.div_add_mod' num den
  have hlt : num % den < den := Nat.mod_lt num hden
  unfold roundDiv
  dsimp only
  generalize num / den = q at hsplit ⊢
  generalize num % den = rest at hsplit hlt ⊢
  subst hsplit
  have hge : q ≤ r := by
    by_contra h
    have hmul : (r + 1) * den ≤ q * den := Nat.mul_le_mul_right den (by omega)
    rw [Nat.add_mul] at hmul
    omega
  have hle : r ≤ q + 1 := by
    by_contra h
    have hmul : (q + 2) * den ≤ r * den := Nat.mul_le_mul_right den (by omega)
    rw [Nat.add_mul] at hmul
    omega
  rcases (by omega : r = q ∨ r = q + 1) with rfl | rfl
  · rw [if_neg (by omega : ¬ den < 2 * rest)]
    split
    · rfl
    · rw [if_pos]
      by_contra hq
      have := hodd (by simpa using hq)
      omega
  · rw [Nat.add_mul] at hlow hhigh hodd
    rw [if_neg (by omega)]
    split
    · rfl
    · rw [if_neg]
      intro hq
      have := hodd (by rw [beq_iff_eq] at hq; omega)
      omega

theorem roundDiv_eq {num den r : Nat} (hden : 0 < den) (hlow : (r : ℚ) - 1 / 2 ≤ num / den)
    (hhigh : (num : ℚ) / den ≤ r + 1 / 2)
    (hodd : r % 2 = 1 → (r : ℚ) - 1 / 2 < num / den ∧ (num : ℚ) / den < r + 1 / 2) :
    roundDiv num den = r := by
  have hdenq : (0 : ℚ) < den := by exact_mod_cast hden
  rw [le_div_iff₀ hdenq] at hlow
  rw [div_le_iff₀ hdenq] at hhigh
  rw [lt_div_iff₀ hdenq, div_lt_iff₀ hdenq] at hodd
  refine roundDiv_unique hden ?_ ?_ fun h => ?_
  · exact_mod_cast (by linarith : (2 : ℚ) * (r * den) ≤ 2 * num + den)
  · exact_mod_cast (by linarith : (2 : ℚ) * num ≤ 2 * (r * den) + den)
  · obtain ⟨hlow, hhigh⟩ := hodd h
    exact ⟨by exact_mod_cast (by linarith : (2 : ℚ) * (r * den) < 2 * num + den),
      by exact_mod_cast (by linarith : (2 : ℚ) * num < 2 * (r * den) + den)⟩

/-! ## The exponent of the result -/

theorem targetExponent_eq (m : Nat) (e : Int) :
    Format.binary64.targetExponent (totalExponent m e) = max (m.log2 + e - 52) (-1074) := by
  simp only [Format.targetExponent, totalExponent, Format.mantissaBits, Format.minExponent]
  norm_num
  omega

/-- The exponent is chosen such that 53 bits stand before the point, or fewer if it is the least
one. -/
theorem lt_targetExponent {num den : Nat} (hden : 0 < den) {e t : Int}
    (ht : Format.binary64.targetExponent (totalExponent (num / den) e) = t) (he : e ≤ t) :
    -1074 ≤ t ∧ (num : ℚ) / den * 2 ^ e < 2 ^ (53 + t) ∧
      (-1074 < t → 2 ^ (52 + t) ≤ (num : ℚ) / den * 2 ^ e) := by
  rw [targetExponent_eq] at ht
  have hdenq : (0 : ℚ) < den := by exact_mod_cast hden
  have hlog : (num : ℚ) / den < 2 ^ ((num / den).log2 + 1) := by
    rw [div_lt_iff₀ hdenq]
    exact_mod_cast (Nat.div_lt_iff_lt_mul hden).mp (Nat.lt_log2_self (n := num / den))
  have hunit : (0 : ℚ) < 2 ^ e := by positivity
  refine ⟨by omega, ?_, ?_⟩
  · calc (num : ℚ) / den * 2 ^ e < 2 ^ ((num / den).log2 + 1) * 2 ^ e := by gcongr
      _ = 2 ^ (((num / den).log2 + 1 : Nat) + e) := by
          rw [zpow_add₀ (by norm_num), zpow_natCast]
      _ ≤ 2 ^ (53 + t) := zpow_le_zpow_right₀ (by norm_num) (by omega)
  · intro hgt
    have hne : num / den ≠ 0 := by
      intro hzero
      rw [hzero, Nat.log2_zero] at ht
      omega
    have hlow : (2 : ℚ) ^ (num / den).log2 ≤ num / den := by
      rw [le_div_iff₀ hdenq]
      exact_mod_cast (Nat.le_div_iff_mul_le hden).mp (Nat.log2_self_le hne)
    calc (2 : ℚ) ^ (52 + t) = 2 ^ (num / den).log2 * 2 ^ e := by
          rw [← zpow_natCast, ← zpow_add₀ (by norm_num)]
          congr 1
          omega
      _ ≤ num / den * 2 ^ e := by gcongr

/-! ## The result -/

theorem shiftToTargetExponent_of_lt {r : Nat} (hr : r < 2 ^ 53) {t : Int} (ht : -1074 ≤ t) :
    shiftToTargetExponent Format.binary64 r t .exact = (⟨r, false, false⟩, t) := by
  have hlog : r.log2 ≤ 52 := by
    by_cases hzero : r = 0
    · simp [hzero]
    · have := (Nat.log2_lt hzero).mpr hr
      omega
  have hstay : (Format.binary64.targetExponent (totalExponent r t) - t).toNat = 0 := by
    rw [targetExponent_eq]
    omega
  simp only [shiftToTargetExponent, shiftToExponent, hstay]
  simp [ExtendedMantissa.ofMantissaAndAccuracy, HShiftRight.hShiftRight, Nat.repeat]

/-- Where rounding up carries into a 54th bit, the exponent grows by one. -/
theorem shiftToTargetExponent_carry {t : Int} (ht : -1074 ≤ t) :
    shiftToTargetExponent Format.binary64 (2 ^ 53) t .exact = (⟨2 ^ 52, false, false⟩, t + 1) := by
  have hgrow : (Format.binary64.targetExponent (totalExponent (2 ^ 53) t) - t).toNat = 1 := by
    rw [targetExponent_eq, Nat.log2_two_pow]
    omega
  simp only [shiftToTargetExponent, shiftToExponent, hgrow]
  rfl

theorem roundWithAccuracy_eq_dite {num den : Nat} (hden : 0 < den) {e t : Int}
    (ht : Format.binary64.targetExponent (totalExponent (num / den) e) = t) (he : e ≤ t)
    {em : ExtendedMantissa} {last : Int}
    (hlast : shiftToTargetExponent Format.binary64 (roundDiv num (den * 2 ^ (t - e).toNat)) t .exact
      = (em, last)) (s : Sign) :
    roundWithAccuracy Format.binary64 s (num / den) e (accuracyOfFraction (num % den) den)
      = if h : em.mantissa = 0 then .zero s
        else .finite s em.mantissa last (Nat.pos_of_ne_zero h) := by
  have hrounded := ((describes_ofMantissaAndAccuracy num hden).shiftRight
    (t - e).toNat).roundedMantissa
  have hexponent : e + ((t - e).toNat : Int) = t := by omega
  have hfirst : shiftToTargetExponent Format.binary64 (num / den) e
      (accuracyOfFraction (num % den) den) =
      (ExtendedMantissa.ofMantissaAndAccuracy (num / den) (accuracyOfFraction (num % den) den)
        >>> (t - e).toNat, t) := by
    simp only [shiftToTargetExponent, shiftToExponent, ht, hexponent]
  unfold roundWithAccuracy
  rw [hfirst]
  dsimp only
  rw [hrounded, hlast]

theorem roundWithAccuracy_eq {num den : Nat} (hden : 0 < den) {e t : Int}
    (ht : Format.binary64.targetExponent (totalExponent (num / den) e) = t) (he : e ≤ t)
    (em : ExtendedMantissa) {last : Int} (hem : em.mantissa ≠ 0)
    (hlast : shiftToTargetExponent Format.binary64 (roundDiv num (den * 2 ^ (t - e).toNat)) t .exact
      = (em, last)) (s : Sign) :
    roundWithAccuracy Format.binary64 s (num / den) e (accuracyOfFraction (num % den) den)
      = .finite s em.mantissa last (Nat.pos_of_ne_zero hem) := by
  rw [roundWithAccuracy_eq_dite hden ht he hlast, dif_neg hem]

theorem Exact.Near.lt_unit {x : Exact} (hx : x.Canonical) {v : ℚ} (h : x.Near v) :
    v < 2 ^ 53 * x.unit := by
  have hmantissa : (x.mantissa : ℚ) + 1 ≤ 2 ^ 53 := by exact_mod_cast hx.lt
  have hpos := x.unit_pos
  calc v ≤ x.upper * x.unit := h.le_upper
    _ < 2 ^ 53 * x.unit := by
        unfold Exact.upper
        gcongr
        linarith

/-- In its own unit, what is near to a number is rounded to its mantissa. -/
theorem Exact.Near.roundDiv_eq_mantissa {x : Exact} {v : ℚ} (h : x.Near v) {num den : Nat}
    (hden : 0 < den) (hscaled : (num : ℚ) / den = v / x.unit) : roundDiv num den = x.mantissa := by
  have hunit := x.unit_pos
  have hlower : ((x.mantissa : ℚ) - 1 / 2) * x.unit ≤ x.lower * x.unit := by
    gcongr
    unfold Exact.lower
    split <;> linarith
  refine roundDiv_eq hden ?_ ?_ fun hodd => ?_
  · rw [hscaled, le_div_iff₀ hunit]
    exact hlower.trans h.lower_le
  · rw [hscaled, div_le_iff₀ hunit]
    exact h.le_upper
  · rw [hscaled, lt_div_iff₀ hunit, div_lt_iff₀ hunit]
    exact ⟨hlower.trans_lt (h.lower_lt hodd), h.lt_upper hodd⟩

/-- Below a power of two the numbers lie twice as close, and what is near to the power from below
has the smaller exponent. -/
theorem Exact.Near.of_lt_exponent {x : Exact} (hx : x.Canonical) {v : ℚ} (hnear : x.Near v)
    {t : Int} (hleast : -1074 ≤ t) (ht : t < x.exponent) (hbelow : v < 2 ^ (53 + t)) :
    x.mantissa = 2 ^ 52 ∧ x.exponent = t + 1 ∧ ((2 : ℚ) ^ 53 - 1 / 2) * 2 ^ t ≤ v := by
  have hfull := hx.full (by omega)
  have hlow := hnear.lower_le
  have hunit : (0 : ℚ) < 2 ^ t := by positivity
  rw [zpow_add₀ (by norm_num), show (2 : ℚ) ^ (53 : ℤ) = 2 ^ 53 from rfl] at hbelow
  have htwice : 2 * 2 ^ t ≤ x.unit := by
    rw [← zpow_one_add₀ (by norm_num)]
    exact zpow_le_zpow_right₀ (by norm_num) (by omega)
  have hmantissa : x.mantissa = 2 ^ 52 := by
    by_contra hne
    have hlower : (2 : ℚ) ^ 52 < x.lower := by
      have hone : (2 : ℚ) ^ 52 + 1 ≤ x.mantissa := by
        exact_mod_cast (by omega : 2 ^ 52 + 1 ≤ x.mantissa)
      unfold Exact.lower
      rw [if_neg (by omega)]
      linarith
    nlinarith
  have hlower : x.lower = 2 ^ 52 - 1 / 4 := by
    unfold Exact.lower
    rw [if_pos ⟨hmantissa, by omega⟩, hmantissa]
    norm_num
  rw [hlower] at hlow
  have hexponent : x.exponent = t + 1 := by
    by_contra hne
    have hfour : 4 * 2 ^ t ≤ x.unit := by
      rw [show (4 : ℚ) = 2 ^ (2 : ℤ) by norm_num, ← zpow_add₀ (by norm_num)]
      exact zpow_le_zpow_right₀ (by norm_num) (by omega)
    linarith
  refine ⟨hmantissa, hexponent, ?_⟩
  rw [Exact.unit, hexponent, zpow_add_one₀ (by norm_num)] at hlow
  linarith

theorem div_mul_two_pow (num den : Nat) {e t : Int} (he : e ≤ t) :
    (num : ℚ) / (den * 2 ^ (t - e).toNat : Nat) = num / den * 2 ^ e / 2 ^ t := by
  have hshift : (2 : ℚ) ^ (t - e).toNat = 2 ^ t / 2 ^ e := by
    rw [← zpow_natCast, Int.toNat_of_nonneg (by omega), zpow_sub₀ (by norm_num)]
  push_cast
  rw [hshift]
  field_simp

/-- A result is rounded to the number it is near to. -/
theorem roundWithAccuracy_of_near {x : Exact} (hx : x.Canonical) {num den : Nat} (hden : 0 < den)
    {e : Int} (he : e ≤ Format.binary64.targetExponent (totalExponent (num / den) e))
    (hnear : x.Near (num / den * 2 ^ e)) (s : Sign) :
    roundWithAccuracy Format.binary64 s (num / den) e (accuracyOfFraction (num % den) den)
      = .finite s x.mantissa x.exponent hx.pos := by
  generalize ht : Format.binary64.targetExponent (totalExponent (num / den) e) = t at he
  obtain ⟨hleast, hbelow, habove⟩ := lt_targetExponent hden ht he
  have hunit : (0 : ℚ) < 2 ^ t := by positivity
  have hscaled := div_mul_two_pow num den he
  have hden2 : 0 < den * 2 ^ (t - e).toNat := by positivity
  generalize (num : ℚ) / den * 2 ^ e = v at *
  rcases lt_trichotomy t x.exponent with hless | heq | hmore
  · obtain ⟨hmantissa, hexponent, hlow⟩ := hnear.of_lt_exponent hx hleast hless hbelow
    have hround : roundDiv num (den * 2 ^ (t - e).toNat) = 2 ^ 53 := by
      rw [zpow_add₀ (by norm_num), show (2 : ℚ) ^ (53 : ℤ) = 2 ^ 53 from rfl] at hbelow
      refine roundDiv_eq hden2 ?_ ?_ (by norm_num)
      · rw [hscaled, le_div_iff₀ hunit]
        exact_mod_cast hlow
      · rw [hscaled, div_le_iff₀ hunit]
        push_cast
        linarith
    rw [roundWithAccuracy_eq hden ht he ⟨2 ^ 52, false, false⟩ (by decide)
      (by rw [hround]; exact shiftToTargetExponent_carry hleast)]
    simp only [hmantissa, hexponent]
  · subst heq
    have hround := hnear.roundDiv_eq_mantissa hden2 hscaled
    exact roundWithAccuracy_eq hden ht he ⟨x.mantissa, false, false⟩ hx.pos.ne'
      (by rw [hround]; exact shiftToTargetExponent_of_lt hx.lt hx.least) s
  · -- the number would have more than 53 bits
    have hlarge : 2 ^ 53 * x.unit ≤ v := by
      refine le_trans ?_ (habove (by have := hx.least; omega))
      rw [Exact.unit, show (2 : ℚ) ^ 53 = 2 ^ (53 : ℤ) from rfl, ← zpow_add₀ (by norm_num)]
      exact zpow_le_zpow_right₀ (by norm_num) (by omega)
    exact absurd (hnear.lt_unit hx) (not_lt.mpr hlarge)

theorem roundWithAccuracy_exact_of_near {x : Exact} (hx : x.Canonical) {m : Nat} {e : Int}
    (he : e ≤ Format.binary64.targetExponent (totalExponent m e)) (hnear : x.Near (m * 2 ^ e))
    (s : Sign) :
    roundWithAccuracy Format.binary64 s m e .exact = .finite s x.mantissa x.exponent hx.pos := by
  have hround := @roundWithAccuracy_of_near x hx m 1 Nat.one_pos e (by rwa [Nat.div_one])
    (by rwa [Nat.cast_one, div_one]) s
  rw [Nat.div_one, Nat.mod_one] at hround
  exact hround

end VoxelScout.Decimal
