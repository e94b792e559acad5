import Mathlib
import VoxelScout.Decimal.Reader
import VoxelScout.Proofs.Decimal.Parts
import VoxelScout.Proofs.Decimal.Rounding

/-! # Decimals are read as the number they are near to

A decimal becomes a floating point number by a multiplication with a power of ten or a division by
one, on numbers that hold both operands exactly or on integers of any size. Either way it becomes
the number that it is near to.
-/

namespace VoxelScout.Decimal

open Float.Model Float.Model.UnpackedFloat

/-! ## Multiplication and division -/

theorem mul_of_near {x : Exact} (hx : x.Canonical) {m₁ m₂ : Nat} {e₁ e₂ : Int} (h₁ : 0 < m₁)
    (h₂ : 0 < m₂) (hbits : 2 ^ 52 ≤ m₁ * m₂) (hnear : x.Near (m₁ * m₂ * 2 ^ (e₁ + e₂))) :
    mul Format.binary64 (.finite .positive m₁ e₁ h₁) (.finite .positive m₂ e₂ h₂)
      = .finite .positive x.mantissa x.exponent hx.pos := by
  have hlog : 52 ≤ (m₁ * m₂).log2 := (Nat.le_log2 (by omega)).mpr hbits
  exact roundWithAccuracy_exact_of_near hx (by rw [targetExponent_eq]; omega)
    (by exact_mod_cast hnear) .positive

/-- The leading bits of a quotient: they are those of another one, which has 53 bits before the
point unless the exponent is the least one. -/
theorem divCore_eq {m₁ m₂ : Nat} (e₁ e₂ : Int) (h₁ : 0 < m₁) (h₂ : 0 < m₂) :
    ∃ num e, divCore Format.binary64 m₁ e₁ m₂ e₂
        = (num / m₂, e, accuracyOfFraction (num % m₂) m₂) ∧
      e ≤ Format.binary64.targetExponent (totalExponent (num / m₂) e) ∧
      (num : ℚ) / m₂ * 2 ^ e = m₁ / m₂ * 2 ^ (e₁ - e₂) := by
  have htarget : Format.binary64.targetExponent (totalExponent m₁ e₁ - totalExponent m₂ e₂)
      = max (m₁.log2 - m₂.log2 + e₁ - e₂ - 53 : Int) (-1074) := by
    simp only [Format.targetExponent, totalExponent, Format.mantissaBits, Format.minExponent]
    norm_num
    omega
  simp only [divCore, htarget]
  generalize hlast : min (e₁ - e₂) (max (m₁.log2 - m₂.log2 + e₁ - e₂ - 53 : Int) (-1074)) = last
  generalize hshift : (e₁ - e₂ - last).toNat = shift
  rw [Nat.shiftLeft_eq]
  refine ⟨_, last, rfl, ?_, ?_⟩
  · rw [targetExponent_eq]
    by_cases hleast : last ≤ -1074
    · omega
    · have hpow : 2 ^ 52 * m₂ ≤ m₁ * 2 ^ shift := by
        calc 2 ^ 52 * m₂ ≤ 2 ^ 52 * 2 ^ (m₂.log2 + 1) := by
              gcongr
              exact Nat.lt_log2_self.le
          _ = 2 ^ (52 + (m₂.log2 + 1)) := by rw [← Nat.pow_add]
          _ ≤ 2 ^ (m₁.log2 + shift) := Nat.pow_le_pow_right (by decide) (by omega)
          _ = 2 ^ m₁.log2 * 2 ^ shift := by rw [Nat.pow_add]
          _ ≤ m₁ * 2 ^ shift := by
              gcongr
              exact Nat.log2_self_le h₁.ne'
      have hquotient : 2 ^ 52 ≤ m₁ * 2 ^ shift / m₂ := (Nat.le_div_iff_mul_le h₂).mpr hpow
      have hlog : 52 ≤ (m₁ * 2 ^ shift / m₂).log2 := (Nat.le_log2 (by omega)).mpr hquotient
      omega
  · have hexponent : e₁ - e₂ = (shift : Int) + last := by omega
    rw [hexponent, zpow_add₀ (by norm_num), zpow_natCast]
    push_cast
    ring

theorem div_of_near {x : Exact} (hx : x.Canonical) {m₁ m₂ : Nat} {e₁ e₂ : Int} (h₁ : 0 < m₁)
    (h₂ : 0 < m₂) (hnear : x.Near (m₁ / m₂ * 2 ^ (e₁ - e₂))) :
    div Format.binary64 (.finite .positive m₁ e₁ h₁) (.finite .positive m₂ e₂ h₂)
      = .finite .positive x.mantissa x.exponent hx.pos := by
  obtain ⟨num, e, hcore, he, hvalue⟩ := divCore_eq e₁ e₂ h₁ h₂
  simp only [UnpackedFloat.div, hcore]
  exact roundWithAccuracy_of_near hx h₂ he (hvalue ▸ hnear) .positive

/-! ## Reading on integers -/

theorem Exact.Near.lt_two_pow {x : Exact} (hx : x.Canonical) {v : ℚ} (h : x.Near v) :
    v < 2 ^ (1024 : ℤ) := by
  have hunit : x.unit ≤ 2 ^ (971 : ℤ) := zpow_le_zpow_right₀ (by norm_num) hx.most
  calc v < 2 ^ 53 * x.unit := h.lt_unit hx
    _ ≤ 2 ^ 53 * 2 ^ (971 : ℤ) := by gcongr
    _ = 2 ^ (1024 : ℤ) := by
        rw [← zpow_natCast, ← zpow_add₀ (by norm_num)]
        norm_num

theorem Exact.Near.two_pow_le {x : Exact} (hx : x.Canonical) {v : ℚ} (h : x.Near v) :
    2 ^ (-1075 : ℤ) ≤ v := by
  have hmantissa : (1 : ℚ) ≤ x.mantissa := by exact_mod_cast hx.pos
  have hunit : (2 : ℚ) ^ (-1074 : ℤ) ≤ x.unit := zpow_le_zpow_right₀ (by norm_num) hx.least
  have hpos := x.unit_pos
  have hlower : 1 / 2 ≤ x.lower := by
    unfold Exact.lower
    split <;> linarith
  calc (2 : ℚ) ^ (-1075 : ℤ) = 1 / 2 * 2 ^ (-1074 : ℤ) := by
        rw [show (-1075 : ℤ) = -1 + -1074 by norm_num, zpow_add₀ (by norm_num)]
        norm_num
    _ ≤ x.lower * x.unit := by gcongr
    _ ≤ v := h.lower_le

theorem Exact.Near.coefficient_pos {x : Exact} (hx : x.Canonical) {c : Nat} {k : Int}
    (h : x.Near (c * 10 ^ k)) : 0 < c := by
  by_contra hzero
  have hpos := h.pos hx.pos
  rw [Nat.eq_zero_of_not_pos hzero] at hpos
  simp at hpos

/-- A decimal with so large an exponent would not be finite. -/
theorem Exact.Near.exponent_le {x : Exact} (hx : x.Canonical) {c : Nat} {k : Int}
    (h : x.Near (c * 10 ^ k)) : k ≤ 2 ^ 11 := by
  by_contra hk
  have hten : (0 : ℚ) < 10 ^ k := by positivity
  have hone : (1 : ℚ) ≤ c := by exact_mod_cast h.coefficient_pos hx
  have hpow : (2 : ℚ) ^ (1024 : ℤ) ≤ c * 10 ^ k :=
    calc (2 : ℚ) ^ (1024 : ℤ) ≤ 2 ^ k := zpow_le_zpow_right₀ (by norm_num) (by omega)
      _ ≤ 10 ^ k := zpow_le_zpow_left₀ (by omega) (by norm_num) (by norm_num)
      _ ≤ c * 10 ^ k := le_mul_of_one_le_left hten.le hone
  exact absurd (h.lt_two_pow hx) (not_lt.mpr hpow)

/-- A decimal with so small an exponent would be zero. -/
theorem Exact.Near.le_exponent {x : Exact} (hx : x.Canonical) {c : Nat} {k : Int}
    (h : x.Near (c * 10 ^ k)) : -((2 ^ 11 : Int) + c.log2) ≤ k := by
  by_contra hk
  have hlog : (c : ℚ) ≤ 2 ^ ((c.log2 + 1 : Nat) : ℤ) := by
    rw [zpow_natCast]
    exact_mod_cast Nat.lt_log2_self.le
  have hpow : (10 : ℚ) ^ k ≤ 2 ^ k := by
    obtain ⟨n, hn⟩ : ∃ n : Nat, k = -n := ⟨(-k).toNat, by omega⟩
    rw [hn, zpow_neg, zpow_neg, zpow_natCast, zpow_natCast]
    gcongr
    norm_num
  have hlt : (c : ℚ) * 10 ^ k < 2 ^ (-1075 : ℤ) :=
    calc (c : ℚ) * 10 ^ k ≤ 2 ^ ((c.log2 + 1 : Nat) : ℤ) * 2 ^ k := by gcongr
      _ = 2 ^ (((c.log2 + 1 : Nat) : ℤ) + k) := by rw [zpow_add₀ (by norm_num)]
      _ < 2 ^ (-1075 : ℤ) := zpow_lt_zpow_right₀ (by norm_num) (by omega)
  exact absurd (h.two_pow_le hx) (not_le.mpr hlt)

theorem ofScientific_of_near {x : Exact} (hx : x.Canonical) {c : Nat} {k : Int}
    (hnear : x.Near (c * 10 ^ k)) :
    UnpackedFloat.ofScientific Format.binary64 c k
      = .finite .positive x.mantissa x.exponent hx.pos := by
  have hc := hnear.coefficient_pos hx
  unfold UnpackedFloat.ofScientific
  rw [dif_neg hc.ne', if_neg (not_lt.mpr (hnear.exponent_le hx)),
    if_neg (not_lt.mpr (hnear.le_exponent hx))]
  split
  · next hk =>
    have hpow : (10 : ℚ) ^ k = 10 ^ k.toNat := by
      rw [← zpow_natCast, Int.toNat_of_nonneg hk]
    have hbits : c <<< Format.binary64.mantissaBits = c * 2 ^ 53 := Nat.shiftLeft_eq c 53
    refine mul_of_near hx _ _ ?_ ?_
    · rw [hbits]
      calc 2 ^ 52 ≤ 1 * 2 ^ 53 * 1 := by norm_num
        _ ≤ c * 2 ^ 53 * 10 ^ k.toNat :=
          Nat.mul_le_mul (Nat.mul_le_mul_right _ hc) (Nat.one_le_pow _ _ (by decide))
    · convert hnear using 1
      rw [hbits, hpow, show -(Format.binary64.mantissaBits : Int) + 0 = -(53 : Nat) from rfl,
        zpow_neg, zpow_natCast]
      push_cast
      field_simp
      norm_num
  · next hk =>
    have hpow : (10 : ℚ) ^ k = ((10 : ℚ) ^ (-k).toNat)⁻¹ := by
      rw [← zpow_natCast, Int.toNat_of_nonneg (by omega), zpow_neg, inv_inv]
    refine div_of_near hx _ _ ?_
    convert hnear using 1
    rw [hpow]
    simp [div_eq_mul_inv]

/-! ## Reading on numbers that hold both operands -/

/-- The number that holds `c · 2 ^ k` exactly, with all 53 bits in use. -/
def wide (c : Nat) (k : Int) : Exact :=
  ⟨false, c <<< (52 - c.log2), k - (52 - c.log2 : Nat)⟩

theorem canonical_wide {c : Nat} (hc : 0 < c) (hlt : c < 2 ^ 53) {k : Int} (hleast : -1022 ≤ k)
    (hmost : k ≤ 971) : (wide c k).Canonical ∧ 2 ^ 52 ≤ (wide c k).mantissa := by
  have hlog : c.log2 ≤ 52 := by
    have := (Nat.log2_lt hc.ne').mpr hlt
    omega
  have hlow : 2 ^ 52 ≤ c <<< (52 - c.log2) := by
    rw [Nat.shiftLeft_eq]
    calc 2 ^ 52 = 2 ^ c.log2 * 2 ^ (52 - c.log2) := by
          rw [← Nat.pow_add]
          congr 1
          omega
      _ ≤ c * 2 ^ (52 - c.log2) := Nat.mul_le_mul_right _ (Nat.log2_self_le hc.ne')
  have hhigh : c <<< (52 - c.log2) < 2 ^ 53 := by
    rw [Nat.shiftLeft_eq]
    calc c * 2 ^ (52 - c.log2) < 2 ^ (c.log2 + 1) * 2 ^ (52 - c.log2) :=
          Nat.mul_lt_mul_of_pos_right Nat.lt_log2_self (Nat.two_pow_pos _)
      _ = 2 ^ 53 := by
          rw [← Nat.pow_add]
          congr 1
          omega
  refine ⟨⟨?_, hhigh, ?_, ?_, fun _ => hlow⟩, hlow⟩
  · exact lt_of_lt_of_le (by decide) hlow
  · simp only [wide]
    omega
  · simp only [wide]
    omega

theorem mantissa_mul_unit_wide (c : Nat) (k : Int) :
    ((wide c k).mantissa : ℚ) * (wide c k).unit = c * 2 ^ k := by
  simp only [wide, Exact.unit, Nat.shiftLeft_eq]
  rw [zpow_sub₀ (by norm_num), zpow_natCast]
  push_cast
  field_simp

theorem Exact.near_self (x : Exact) : x.Near (x.mantissa * x.unit) := by
  have hunit := x.unit_pos
  have hlower : x.lower * x.unit < x.mantissa * x.unit := by
    gcongr
    unfold Exact.lower
    split <;> linarith
  have hupper : x.mantissa * x.unit < x.upper * x.unit := by
    gcongr
    unfold Exact.upper
    linarith
  exact ⟨hlower.le, hupper.le, fun _ => hlower, fun _ => hupper⟩

theorem ofNat_eq_wide {c : Nat} (hc : 0 < c) (hlt : c < 2 ^ 53) :
    UnpackedFloat.ofNat Format.binary64 c = .finite .positive (wide c 0).mantissa
      (wide c 0).exponent (canonical_wide hc hlt (by decide) (by decide)).1.pos := by
  obtain ⟨hcanonical, hbits⟩ := canonical_wide hc hlt (k := 0) (by decide) (by decide)
  have hlog : 52 ≤ (wide c 0).mantissa.log2 :=
    (Nat.le_log2 hcanonical.pos.ne').mpr hbits
  have hcompare : compare (c : Int) 0 = .gt := Int.compare_eq_gt.mpr (by omega)
  have hshift : (0 - Format.binary64.targetExponent (totalExponent c 0)).toNat = 52 - c.log2 := by
    rw [targetExponent_eq]
    omega
  unfold UnpackedFloat.ofNat UnpackedFloat.ofInt UnpackedFloat.normalize
  rw [hcompare]
  simp only [Int.toNat_natCast, UnpackedFloat.round, decreaseExponent, hshift]
  exact roundWithAccuracy_exact_of_near hcanonical (by rw [targetExponent_eq]; omega)
    (wide c 0).near_self .positive

theorem toFloat_eq_wide {c : Nat} (hc : 0 < c) (hlt : c < 2 ^ 53) :
    c.toUInt64.toFloat
      = (wide c 0).toFloat (canonical_wide hc hlt (by decide) (by decide)).1.pos .positive := by
  have hword : c.toUInt64.toNat = c := by
    rw [Nat.toUInt64_eq, UInt64.toNat_ofNat']
    omega
  unfold UInt64.toFloat Float.Model.ofUInt64 UnpackedFloat.ofUInt64 Exact.toFloat
  rw [hword, ofNat_eq_wide hc hlt]

theorem pow_five_lt {n : Nat} (hn : n ≤ 22) : 5 ^ n < 2 ^ 53 :=
  (Nat.pow_le_pow_right (by decide) hn).trans_lt (by decide)

theorem canonical_wide_five {n : Nat} (hn : n ≤ 22) :
    (wide (5 ^ n) n).Canonical ∧ 2 ^ 52 ≤ (wide (5 ^ n) n).mantissa :=
  canonical_wide (by positivity) (pow_five_lt hn) (by omega) (by omega)

/-- The powers of ten in the table are exact. -/
theorem toBits_powersOfTen : ∀ n : Fin 23, (Float.exactlyRepresentablePowersOfTen[n]).toBits
    = ((wide (5 ^ n.val) n).toFloat (canonical_wide_five (by omega)).1.pos .positive).toBits := by
  decide +kernel

/-! ## Reading -/

theorem toFloat_mul {x a b : Exact} (hx : x.Canonical) (ha : a.Canonical) (hb : b.Canonical)
    (hbits : 2 ^ 52 ≤ a.mantissa)
    (hnear : x.Near (a.mantissa * a.unit * (b.mantissa * b.unit))) :
    a.toFloat ha.pos .positive * b.toFloat hb.pos .positive = x.toFloat hx.pos .positive := by
  have hmul : mul Format.binary64 (.finite .positive a.mantissa a.exponent ha.pos)
      (.finite .positive b.mantissa b.exponent hb.pos)
      = .finite .positive x.mantissa x.exponent hx.pos := by
    refine mul_of_near hx ha.pos hb.pos (hbits.trans (Nat.le_mul_of_pos_right _ hb.pos)) ?_
    rw [zpow_add₀ (by norm_num), mul_mul_mul_comm]
    exact hnear
  change Float.ofModel (.pack (mul Format.binary64 (a.toFloat ha.pos .positive).toModel.unpack
    (b.toFloat hb.pos .positive).toModel.unpack)) = _
  rw [unpack_toFloat ha, unpack_toFloat hb, hmul]
  rfl

theorem toFloat_div {x a b : Exact} (hx : x.Canonical) (ha : a.Canonical) (hb : b.Canonical)
    (hnear : x.Near (a.mantissa * a.unit / (b.mantissa * b.unit))) :
    a.toFloat ha.pos .positive / b.toFloat hb.pos .positive = x.toFloat hx.pos .positive := by
  have hdiv : UnpackedFloat.div Format.binary64 (.finite .positive a.mantissa a.exponent ha.pos)
      (.finite .positive b.mantissa b.exponent hb.pos)
      = .finite .positive x.mantissa x.exponent hx.pos := by
    refine div_of_near hx ha.pos hb.pos ?_
    rw [zpow_sub₀ (by norm_num), div_mul_div_comm]
    exact hnear
  change Float.ofModel (.pack (UnpackedFloat.div Format.binary64
    (a.toFloat ha.pos .positive).toModel.unpack (b.toFloat hb.pos .positive).toModel.unpack)) = _
  rw [unpack_toFloat ha, unpack_toFloat hb, hdiv]
  rfl

theorem mantissa_mul_unit_wide_five (n : Nat) :
    ((wide (5 ^ n) n).mantissa : ℚ) * (wide (5 ^ n) n).unit = 10 ^ n := by
  rw [mantissa_mul_unit_wide, zpow_natCast]
  push_cast
  rw [← mul_pow]
  norm_num

/-- Small operands are multiplied or divided as floating point numbers, larger ones as integers. -/
theorem float_ofScientific_of_near {x : Exact} (hx : x.Canonical) {c n : Nat} {down : Bool}
    (hnear : x.Near (c * 10 ^ (if down then -(n : Int) else n))) :
    Float.ofScientific c down n = x.toFloat hx.pos .positive := by
  have hc := hnear.coefficient_pos hx
  unfold Float.ofScientific
  split
  · next hsmall =>
    obtain ⟨hlt, hn⟩ := hsmall
    have hpower := Float.toBits_inj.mp (toBits_powersOfTen ⟨n, by omega⟩)
    have hcoefficient := toFloat_eq_wide hc hlt
    obtain ⟨hwide, hbits⟩ := canonical_wide hc hlt (k := 0) (by decide) (by decide)
    obtain ⟨hten, -⟩ := canonical_wide_five hn
    have hvalue : ((wide c 0).mantissa : ℚ) * (wide c 0).unit = c := by
      rw [mantissa_mul_unit_wide, zpow_zero, mul_one]
    have hsize : n < Float.exactlyRepresentablePowersOfTen.size :=
      Nat.lt_of_le_of_lt hn (by decide)
    change Float.exactlyRepresentablePowersOfTen[n] = _ at hpower
    dsimp only
    rw [hpower, hcoefficient]
    cases down with
    | false =>
        refine toFloat_mul hx hwide hten hbits ?_
        rw [hvalue, mantissa_mul_unit_wide_five]
        simpa using hnear
    | true =>
        refine toFloat_div hx hwide hten ?_
        rw [hvalue, mantissa_mul_unit_wide_five]
        simpa [div_eq_mul_inv] using hnear
  · unfold Exact.toFloat Float.Model.ofScientific
    dsimp only
    rw [show (if down then Int.negOfNat n else Int.ofNat n) = if down then -(n : Int) else n by
        cases down
        · rfl
        · exact Int.negOfNat_eq,
      ofScientific_of_near hx hnear]

theorem neg_toFloat {x : Exact} (hx : x.Canonical) :
    -x.toFloat hx.pos .positive = x.toFloat hx.pos .negative := by
  change Float.ofModel (.pack (x.toFloat hx.pos .positive).toModel.unpack.neg) = _
  rw [unpack_toFloat hx]
  rfl

/-- A decimal is read as the number it is near to. -/
theorem nearest?_of_near {x : Exact} (hx : x.Canonical) {c : Nat} {k : Int}
    (hnear : x.Near (c * 10 ^ k)) (negative : Bool) :
    nearest? negative c k = some (x.toFloat hx.pos (signOf negative)) := by
  have hmagnitude : nearest false c k = x.toFloat hx.pos .positive := by
    cases k with
    | ofNat n => exact float_ofScientific_of_near hx hnear
    | negSucc n => exact float_ofScientific_of_near hx hnear
  have hnearest : nearest negative c k = x.toFloat hx.pos (signOf negative) := by
    cases negative with
    | false => exact hmagnitude
    | true =>
        change -nearest false c k = _
        rw [hmagnitude]
        exact neg_toFloat hx
  have hfinite : (x.toFloat hx.pos (signOf negative)).isInf = false := by
    change (x.toFloat hx.pos (signOf negative)).toModel.unpack.isInf = false
    rw [unpack_toFloat hx]
    rfl
  unfold nearest?
  dsimp only
  rw [hnearest, hfinite]
  rfl

end VoxelScout.Decimal
