import Mathlib
import VoxelScout.Proofs.Scalar.Order
import VoxelScout.Proofs.Scalar.Rounding

/-! # Orders of magnitude

How large a result can be follows from how large the operands are, by powers of two; so whatever
is computed from moderate values without dividing by small ones is finite.
-/

namespace VoxelScout.Binary64

open Decimal Scalar
open Float.Model Float.Model.UnpackedFloat

structure Within (x : Float) (k : ℤ) : Prop where
  isFinite : x.isFinite = true
  le : |value x| ≤ 2 ^ k

instance (x : Float) (k : ℤ) : Decidable (Within x k) :=
  decidable_of_iff (x.isFinite = true ∧ |value x| ≤ 2 ^ k)
    ⟨fun h => ⟨h.1, h.2⟩, fun h => ⟨h.isFinite, h.le⟩⟩

/-- The power of two is neither too small nor too large for a result. -/
def Fits (k : ℤ) : Prop :=
  -1074 ≤ k ∧ k ≤ 1023

instance (k : ℤ) : Decidable (Fits k) :=
  inferInstanceAs (Decidable (_ ∧ _))

variable {x y : Float} {k l m : ℤ} {v : ℚ}

theorem Fits.lt (h : Fits m) : (2 : ℚ) ^ m < overflowBound :=
  two_zpow_lt_overflowBound.mpr (by unfold Fits at h; omega)

theorem Fits.between (hlow : Fits k) (hhigh : Fits m) (hk : k ≤ l) (hl : l ≤ m) : Fits l :=
  ⟨hlow.1.trans hk, hl.trans hhigh.2⟩

theorem two_zpow_le (h : k ≤ l) : (2 : ℚ) ^ k ≤ 2 ^ l :=
  zpow_le_zpow_right₀ (by norm_num) h

theorem Within.mono (h : Within x k) (hk : k ≤ l) : Within x l :=
  ⟨h.isFinite, h.le.trans (two_zpow_le hk)⟩

theorem Nearly.isFinite (h : Nearly x v) : x.isFinite = true :=
  Rounds.isFinite h

theorem Nearly.within (h : Nearly x v) (hm : Fits m) (hv : |v| ≤ 2 ^ m) : Within x m :=
  ⟨h.isFinite, Rounds.le_two_pow h hm.1 hv⟩

theorem Nearly.nonneg (h : Nearly x v) (hv : 0 ≤ v) : 0 ≤ value x := by
  have hclose := Rounds.close h
  change |value x - v| ≤ |v| at hclose
  rw [abs_of_nonneg hv, abs_le] at hclose
  linarith

theorem Nearly.two_zpow_le_abs_value (h : Nearly x v) (hk : -1074 ≤ k) (hv : 2 ^ k ≤ |v|) :
    2 ^ k ≤ |value x| :=
  Rounds.two_pow_le h hk hv

theorem Nearly.two_zpow_le_value (h : Nearly x v) (hk : -1074 ≤ k) (hv : 2 ^ k ≤ v) :
    2 ^ k ≤ value x := by
  have hpos : 0 ≤ v := le_trans (by positivity) hv
  rw [← abs_of_nonneg (h.nonneg hpos)]
  exact h.two_zpow_le_abs_value hk (hv.trans (le_abs_self v))

/-- Unless the number is tiny, the relative error is small. -/
theorem Nearly.relative (h : Nearly x v) (hk : -1035 ≤ k) (hv : 2 ^ k ≤ |v|) :
    |value x - v| ≤ |v| / 2 ^ 39 := by
  have htiny : halfLeast ≤ |v| / 2 ^ 40 := by
    rw [le_div_iff₀ (by norm_num)]
    refine le_trans ?_ hv
    calc halfLeast * 2 ^ 40 = 2 ^ (-1035 : ℤ) := by
          rw [halfLeast, ← zpow_natCast, ← zpow_add₀ (by norm_num)]
          rfl
      _ ≤ 2 ^ k := two_zpow_le hk
  have herror := Rounds.error h
  change |value x - v| ≤ _ at herror
  have hpos := abs_nonneg v
  linarith

/-! ## Arithmetic -/

theorem Within.add_le (hx : Within x k) (hy : Within y l) (hk : k < m) (hl : l < m) :
    |value x| + |value y| ≤ 2 ^ m := by
  have hsplit : (2 : ℚ) ^ m = 2 ^ (m - 1) + 2 ^ (m - 1) := by
    rw [← two_mul, ← two_zpow_succ, sub_add_cancel]
  rw [hsplit]
  exact add_le_add (hx.mono (by omega)).le (hy.mono (by omega)).le

theorem Within.nearly_add (hx : Within x k) (hy : Within y l) (hk : k < m) (hl : l < m)
    (hm : Fits m) : Nearly (x + y) (value x + value y) ∧ |value x + value y| ≤ 2 ^ m := by
  have hsize := (abs_add_le (value x) (value y)).trans (hx.add_le hy hk hl)
  exact ⟨add_nearly hx.isFinite hy.isFinite (hsize.trans_lt hm.lt), hsize⟩

theorem Within.add (hx : Within x k) (hy : Within y l) (hk : k < m) (hl : l < m) (hm : Fits m) :
    Within (x + y) m :=
  (hx.nearly_add hy hk hl hm).1.within hm (hx.nearly_add hy hk hl hm).2

theorem Within.nearly_sub (hx : Within x k) (hy : Within y l) (hk : k < m) (hl : l < m)
    (hm : Fits m) : Nearly (x - y) (value x - value y) ∧ |value x - value y| ≤ 2 ^ m := by
  have hsize := (abs_sub (value x) (value y)).trans (hx.add_le hy hk hl)
  exact ⟨sub_nearly hx.isFinite hy.isFinite (hsize.trans_lt hm.lt), hsize⟩

theorem Within.sub (hx : Within x k) (hy : Within y l) (hk : k < m) (hl : l < m) (hm : Fits m) :
    Within (x - y) m :=
  (hx.nearly_sub hy hk hl hm).1.within hm (hx.nearly_sub hy hk hl hm).2

theorem Within.nearly_mul (hx : Within x k) (hy : Within y l) (hkl : k + l ≤ m) (hm : Fits m) :
    Nearly (x * y) (value x * value y) ∧ |value x * value y| ≤ 2 ^ m := by
  have hsize : |value x * value y| ≤ 2 ^ m := by
    calc |value x * value y| = |value x| * |value y| := abs_mul _ _
      _ ≤ 2 ^ k * 2 ^ l := mul_le_mul hx.le hy.le (abs_nonneg _) (by positivity)
      _ = 2 ^ (k + l) := (zpow_add₀ (by norm_num) k l).symm
      _ ≤ 2 ^ m := two_zpow_le hkl
  exact ⟨mul_nearly hx.isFinite hy.isFinite (hsize.trans_lt hm.lt), hsize⟩

theorem Within.mul (hx : Within x k) (hy : Within y l) (hkl : k + l ≤ m) (hm : Fits m) :
    Within (x * y) m :=
  (hx.nearly_mul hy hkl hm).1.within hm (hx.nearly_mul hy hkl hm).2

theorem Within.neg (hx : Within x k) : Within (-x) k := by
  obtain ⟨hfinite, hvalue⟩ := value_neg hx.isFinite
  exact ⟨hfinite, by rw [hvalue, abs_neg]; exact hx.le⟩

theorem Within.nearly_div (hx : Within x k) (hy : y.isFinite = true) (hlow : 2 ^ l ≤ |value y|)
    (hkl : k - l ≤ m) (hm : Fits m) :
    Nearly (x / y) (value x / value y) ∧ |value x / value y| ≤ 2 ^ m := by
  have hpos : (0 : ℚ) < 2 ^ l := by positivity
  have hsize : |value x / value y| ≤ 2 ^ m := by
    calc |value x / value y| = |value x| / |value y| := abs_div _ _
      _ ≤ 2 ^ k / 2 ^ l := div_le_div₀ (by positivity) hx.le hpos hlow
      _ = 2 ^ (k - l) := (zpow_sub₀ (by norm_num) k l).symm
      _ ≤ 2 ^ m := two_zpow_le hkl
  exact ⟨div_nearly hx.isFinite hy (abs_pos.mp (hpos.trans_le hlow)) (hsize.trans_lt hm.lt), hsize⟩

theorem Within.div (hx : Within x k) (hy : y.isFinite = true) (hlow : 2 ^ l ≤ |value y|)
    (hkl : k - l ≤ m) (hm : Fits m) : Within (x / y) m :=
  (hx.nearly_div hy hlow hkl hm).1.within hm (hx.nearly_div hy hlow hkl hm).2

theorem Within.sqrt (hx : Within x k) (hpos : 0 ≤ value x) (hk : k < 2 * m) (hm : Fits m) :
    Within x.sqrt m := by
  obtain ⟨w, hw, hsquare, hnearly⟩ := sqrt_nearly hx.isFinite hpos
  refine hnearly.within hm ?_
  rw [abs_of_nonneg hw, ← pow_le_pow_iff_left₀ hw (by positivity) two_ne_zero]
  have hle : value x ≤ 2 ^ k := (le_abs_self _).trans hx.le
  have hdouble : (2 : ℚ) * 2 ^ k ≤ (2 ^ m) ^ 2 := by
    rw [← two_zpow_succ, ← zpow_natCast, ← zpow_mul]
    exact two_zpow_le (by push_cast; omega)
  have hrest : value x / 2 ^ 52 ≤ value x := div_le_self hpos (by norm_num)
  rw [abs_le] at hsquare
  linarith

theorem Within.ite {q : Prop} [Decidable q] (hx : Within x k) (hy : Within y k) :
    Within (if q then x else y) k := by
  split
  · exact hx
  · exact hy

/-! ## Numerals -/

theorem ofNat_eq_toFloat {n : Nat} {e : Exact} (he : e.Canonical)
    (hvalue : (e.mantissa : ℚ) * e.unit = n) : Float.ofNat n = e.toFloat he.pos .positive := by
  refine float_ofScientific_of_near he ?_
  have hnear := e.near_self
  rw [hvalue] at hnear
  simpa using hnear

theorem value_toFloat {e : Exact} (he : e.Canonical) (s : Sign) :
    (e.toFloat he.pos s).isFinite = true ∧
      value (e.toFloat he.pos s) = signed s (e.mantissa * e.unit) := by
  have hparts := unpack_toFloat he s
  refine ⟨?_, ?_⟩
  · change (e.toFloat he.pos s).toModel.unpack.isFinite = true
    rw [hparts]
    rfl
  · rw [value, hparts]
    exact valueOf_finite ..

theorem value_ofNat_of_eq {n : Nat} {e : Exact} (he : e.Canonical)
    (hvalue : (e.mantissa : ℚ) * e.unit = n) :
    (Float.ofNat n).isFinite = true ∧ value (Float.ofNat n) = n := by
  obtain ⟨hfinite, hsigned⟩ := value_toFloat he .positive
  rw [ofNat_eq_toFloat he hvalue]
  refine ⟨hfinite, hsigned.trans ?_⟩
  rw [hvalue]
  simp [signed, Sign.apply]

/-- Whole numbers of 53 bits are exact. -/
theorem value_ofNat {n : Nat} (h : n < 2 ^ 53) :
    (Float.ofNat n).isFinite = true ∧ value (Float.ofNat n) = n := by
  by_cases hzero : n = 0
  · subst hzero
    decide +kernel
  · have hpos : 0 < n := Nat.pos_of_ne_zero hzero
    refine value_ofNat_of_eq (canonical_wide hpos h (by decide : (-1022 : ℤ) ≤ 0) (by decide)).1 ?_
    rw [mantissa_mul_unit_wide, zpow_zero, mul_one]

theorem value_ofNat_two_pow {n : Nat} (hn : n ≤ 971) :
    (Float.ofNat (2 ^ n)).isFinite = true ∧ value (Float.ofNat (2 ^ n)) = 2 ^ n := by
  obtain ⟨hfinite, hvalue⟩ := @value_ofNat_of_eq (2 ^ n) _
    (canonical_wide one_pos (by norm_num) (by omega : (-1022 : ℤ) ≤ n) (by omega)).1 (by
      rw [mantissa_mul_unit_wide, zpow_natCast]
      push_cast
      ring)
  refine ⟨hfinite, hvalue.trans ?_⟩
  push_cast
  rfl

/-! ## Comparisons -/

theorem isNaN_of_isFinite (h : x.isFinite = true) : x.isNaN = false := by
  change x.toModel.unpack.isNaN = false
  replace h : x.toModel.unpack.isFinite = true := h
  cases hparts : x.toModel.unpack with
  | notANumber =>
      rw [hparts] at h
      cases h
  | _ => rfl

theorem lt_iff_value_lt (hx : x.isFinite = true) (hy : y.isFinite = true) :
    x < y ↔ value x < value y := by
  rw [lt_iff, rank, rank, rankOf_of_isFinite hx, rankOf_of_isFinite hy, coe_lt_coe]
  simp only [isNaN_of_isFinite hx, isNaN_of_isFinite hy, true_and]
  rfl

theorem isInf_of_isFinite (h : x.isFinite = true) : x.isInf = false := by
  change x.toModel.unpack.isInf = false
  replace h : x.toModel.unpack.isFinite = true := h
  cases hparts : x.toModel.unpack with
  | infinity s =>
      rw [hparts] at h
      cases h
  | _ => rfl

theorem le_iff_value_le (hx : x.isFinite = true) (hy : y.isFinite = true) :
    x ≤ y ↔ value x ≤ value y := by
  rw [le_iff, rank, rank, rankOf_of_isFinite hx, rankOf_of_isFinite hy, WithBot.coe_le_coe,
    WithTop.coe_le_coe]
  simp only [isNaN_of_isFinite hx, isNaN_of_isFinite hy, true_and]
  rfl

theorem beq_iff_value_eq (hx : x.isFinite = true) (hy : y.isFinite = true) :
    (x == y) = true ↔ value x = value y := by
  rw [beq_iff, rank, rank, rankOf_of_isFinite hx, rankOf_of_isFinite hy]
  simp only [isNaN_of_isFinite hx, isNaN_of_isFinite hy, true_and, WithBot.coe_inj,
    WithTop.coe_inj]
  rfl

/-! ## What is not finite -/

theorem isFinite_pack_of_not {u : UnpackedFloat} (h : u.isFinite = false) :
    (Float.ofModel (.pack u)).isFinite = false := by
  cases u with
  | notANumber => rfl
  | infinity s => cases s <;> rfl
  | _ => cases h

theorem isFinite_add_of_not {a b : UnpackedFloat} (h : a.isFinite = false ∨ b.isFinite = false) :
    (UnpackedFloat.add Format.binary64 a b).isFinite = false := by
  cases a with
  | notANumber => cases b <;> rfl
  | infinity s =>
      cases b with
      | infinity s' => cases s <;> cases s' <;> rfl
      | _ => rfl
  | _ =>
      cases b with
      | notANumber => rfl
      | infinity s' => rfl
      | _ => rcases h with h | h <;> cases h

theorem isFinite_mul_of_not {a b : UnpackedFloat} (h : a.isFinite = false ∨ b.isFinite = false) :
    (UnpackedFloat.mul Format.binary64 a b).isFinite = false := by
  cases a with
  | notANumber => cases b <;> rfl
  | infinity s => cases b <;> rfl
  | _ =>
      cases b with
      | notANumber => rfl
      | infinity s' => rfl
      | _ => rcases h with h | h <;> cases h

theorem isFinite_of_add (h : (x + y).isFinite = true) : x.isFinite = true ∧ y.isFinite = true := by
  by_contra hnot
  have hparts : x.isFinite = false ∨ y.isFinite = false := by
    rwa [not_and_or, Bool.not_eq_true, Bool.not_eq_true] at hnot
  have hsum : (x + y).isFinite = false := isFinite_pack_of_not (isFinite_add_of_not hparts)
  rw [hsum] at h
  cases h

theorem isFinite_of_mul (h : (x * y).isFinite = true) : x.isFinite = true ∧ y.isFinite = true := by
  by_contra hnot
  have hparts : x.isFinite = false ∨ y.isFinite = false := by
    rwa [not_and_or, Bool.not_eq_true, Bool.not_eq_true] at hnot
  have hproduct : (x * y).isFinite = false := isFinite_pack_of_not (isFinite_mul_of_not hparts)
  rw [hproduct] at h
  cases h

/-! ## Magnitudes -/

theorem isFinite_abs {a : UnpackedFloat} (h : a.isFinite = true) : a.abs.isFinite = true := by
  cases a with
  | notANumber => cases h
  | infinity s => cases h
  | _ => rfl

theorem proper_abs {a : UnpackedFloat} (h : Proper a) : Proper a.abs := by
  cases a with
  | finite s m e hpos => exact h
  | _ => trivial

theorem valueOf_abs (a : UnpackedFloat) : valueOf a.abs = |valueOf a| := by
  cases a with
  | finite s m e h =>
      rw [valueOf_finite, abs_signed, abs_of_nonneg (by positivity)]
      simp [UnpackedFloat.abs, valueOf_finite, signed, Sign.apply]
  | _ => exact abs_zero.symm

theorem value_abs (hx : x.isFinite = true) :
    x.abs.isFinite = true ∧ value x.abs = |value x| := by
  have hparts : x.abs.toModel.unpack = x.toModel.unpack.abs :=
    unpack_pack (isFinite_abs hx) (proper_abs (proper_unpack x))
  refine ⟨?_, ?_⟩
  · change x.abs.toModel.unpack.isFinite = true
    rw [hparts]
    exact isFinite_abs hx
  · rw [value, hparts, valueOf_abs]
    rfl

theorem beq_inf_of_isFinite (hx : x.isFinite = true) : (x == inf) = false := by
  rw [Bool.eq_false_iff]
  intro h
  have hrank := (beq_iff.mp h).2.2
  rw [rank, rankOf_of_isFinite hx, rank_inf] at hrank
  exact absurd (WithBot.coe_inj.mp hrank) (WithTop.coe_ne_top)

/-! ## Whole parts -/

theorem roundToInt_eq (s : Sign) (m : Nat) (e : Int) :
    ∃ n : Nat, roundToInt s m e = s.apply n ∧ (n : ℚ) ≤ m * 2 ^ e ∧ (m : ℚ) * 2 ^ e < n + 1 := by
  generalize hup : (e - 0).toNat = up
  generalize hdown : (0 - (e - up)).toNat = down
  have hdescribes := (describes_ofMantissaAndAccuracy (m <<< up) Nat.one_pos).shiftRight down
  have hmantissa := hdescribes.mantissa_eq
  rw [Nat.div_one, Nat.mod_one, one_mul] at hmantissa
  have hvalue : (m : ℚ) * 2 ^ e = (m <<< up : Nat) / (2 ^ down : Nat) := by
    have hexponent : e = (up : Int) - down := by omega
    rw [hexponent, zpow_sub₀ (by norm_num), zpow_natCast, zpow_natCast, Nat.shiftLeft_eq]
    push_cast
    ring
  refine ⟨(m <<< up) / 2 ^ down, ?_, ?_, ?_⟩
  · simp only [roundToInt, decreaseExponent, shiftToExponent, hup, hdown]
    exact congrArg (fun n : Nat => s.apply n) hmantissa
  · rw [hvalue]
    exact Nat.cast_div_le
  · rw [hvalue, ← Nat.floor_div_eq_div (K := ℚ)]
    exact Nat.lt_floor_add_one _

theorem toNat_ofNatClamp {n : Nat} (h : n < UInt64.size) : (UInt64.ofNatClamp n).toNat = n := by
  unfold UInt64.ofNatClamp
  rw [dif_pos h]
  exact UInt64.toNat_ofNatLT

/-- The word of a number is its whole part, and zero if the number is below zero. -/
theorem toNat_toUInt64 (hx : x.isFinite = true) (hlt : value x < 2 ^ 64) :
    (x.toUInt64.toNat : ℚ) ≤ max 0 (value x) ∧ value x < x.toUInt64.toNat + 1 := by
  replace hx : x.toModel.unpack.isFinite = true := hx
  change ((UInt64.ofNatClamp (toInt 0 _ x.toModel.unpack).toNat).toNat : ℚ)
    ≤ max 0 (valueOf x.toModel.unpack) ∧ valueOf x.toModel.unpack
      < (UInt64.ofNatClamp (toInt 0 _ x.toModel.unpack).toNat).toNat + 1
  rw [value] at hlt
  cases hparts : x.toModel.unpack with
  | notANumber =>
      rw [hparts] at hx
      cases hx
  | infinity s =>
      rw [hparts] at hx
      cases hx
  | zero s =>
      rw [show (toInt 0 _ (.zero s)).toNat = 0 from rfl, toNat_ofNatClamp (by decide)]
      simp [valueOf]
  | finite s m e h =>
      obtain ⟨n, hn, hle, hgt⟩ := roundToInt_eq s m e
      rw [hparts, valueOf_finite] at hlt
      rw [valueOf_finite]
      simp only [toInt, hn]
      cases s with
      | positive =>
          simp only [signed, Sign.apply, Int.cast_one, one_mul] at hlt ⊢
          have hsmall : n < UInt64.size := by exact_mod_cast hle.trans_lt hlt
          rw [Int.toNat_natCast, toNat_ofNatClamp hsmall]
          exact ⟨hle.trans (le_max_right _ _), hgt⟩
      | negative =>
          have hpos : (0 : ℚ) ≤ m * 2 ^ e := by positivity
          simp only [signed, Sign.apply, Int.cast_neg, Int.cast_one, neg_one_mul]
          rw [Int.toNat_of_nonpos (by omega), toNat_ofNatClamp (by decide)]
          push_cast
          exact ⟨le_max_left _ _, by linarith⟩

end VoxelScout.Binary64
