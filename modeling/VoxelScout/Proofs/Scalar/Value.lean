import Mathlib
import VoxelScout.Proofs.Decimal.Parts
import VoxelScout.Scalar.Binary64

/-! # What floating point numbers stand for

A finite value stands for a number, and values that are numbers compare as these, with the
infinities below and above all of them. Whatever comes out of a comparison of a value that is no
number is false.
-/

namespace VoxelScout.Binary64

open Decimal
open Float.Model Float.Model.UnpackedFloat

def valueOf : UnpackedFloat → ℚ
  | .finite s m e _ => s.apply m * 2 ^ e
  | _ => 0

def value (x : Float) : ℚ :=
  valueOf x.toModel.unpack

/-- The place of parts among all values that are numbers. -/
def rankOf : UnpackedFloat → WithBot (WithTop ℚ)
  | .infinity .negative => ⊥
  | .infinity .positive => ⊤
  | x => ((valueOf x : ℚ) : WithTop ℚ)

def rank (x : Float) : WithBot (WithTop ℚ) :=
  rankOf x.toModel.unpack

/-! ## Parts -/

/-- Parts as they are read off a value. -/
def Proper : UnpackedFloat → Prop
  | .finite _ m e _ => (⟨false, m, e⟩ : Exact).Canonical
  | _ => True

theorem proper_unpack (x : Float) : Proper x.toModel.unpack := by
  cases hfinite : x.isFinite with
  | false =>
      have hparts : x.toModel.unpack.isFinite = false := hfinite
      cases hunpack : x.toModel.unpack with
      | finite s m e hpos =>
          rw [hunpack] at hparts
          cases hparts
      | _ => trivial
  | true =>
      obtain ⟨e, -, ⟨-, hzero⟩ | ⟨⟨hpos, hlt, hleast, hmost, hfull⟩, hunpack⟩⟩ :=
        ofFloat?_of_isFinite hfinite
      · rw [hzero]
        trivial
      · rw [hunpack]
        exact ⟨hpos, hlt, hleast, hmost, hfull⟩

theorem rankOf_of_isFinite {x : UnpackedFloat} (h : x.isFinite = true) :
    rankOf x = ((valueOf x : ℚ) : WithTop ℚ) := by
  cases x with
  | infinity s => cases h
  | _ => rfl

/-! ## Comparisons -/

theorem compare_map {β γ : Type} [LinearOrder β] [LinearOrder γ] {f : β → γ} (hf : StrictMono f)
    (x y : β) : compare (f x) (f y) = compare x y := by
  rw [← cmp_eq_compare, ← cmp_eq_compare, hf.cmp_map_eq]

/-- Of two numbers with all their bits in use the one with the greater exponent is greater. -/
theorem lt_of_exponent_lt {a b : Exact} (ha : a.Canonical) (hb : b.Canonical)
    (h : a.exponent < b.exponent) : a.mantissa * a.unit < b.mantissa * b.unit := by
  have hmantissa : (a.mantissa : ℚ) < 2 ^ 53 := by exact_mod_cast ha.lt
  have hfull : (2 : ℚ) ^ 52 ≤ b.mantissa := by
    exact_mod_cast hb.full (ha.least.trans_lt h)
  have hunit : 2 * a.unit ≤ b.unit := by
    unfold Exact.unit
    rw [← zpow_one_add₀ (by norm_num)]
    exact zpow_le_zpow_right₀ (by norm_num) (by omega)
  have hpos := a.unit_pos
  calc a.mantissa * a.unit < 2 ^ 53 * a.unit := by gcongr
    _ = 2 ^ 52 * (2 * a.unit) := by ring
    _ ≤ b.mantissa * b.unit := by gcongr

theorem compare_canonical {a b : Exact} (ha : a.Canonical) (hb : b.Canonical) :
    (compare a.exponent b.exponent).then (compare a.mantissa b.mantissa) =
      compare (a.mantissa * a.unit) (b.mantissa * b.unit) := by
  rcases lt_trichotomy a.exponent b.exponent with h | h | h
  · rw [compare_lt_iff_lt.mpr h, compare_lt_iff_lt.mpr (lt_of_exponent_lt ha hb h)]
    rfl
  · have hunit : a.unit = b.unit := by rw [Exact.unit, Exact.unit, h]
    have hmono : StrictMono fun m : ℕ => (m : ℚ) * b.unit :=
      Nat.strictMono_cast.mul_const b.unit_pos
    rw [compare_eq_iff_eq.mpr h, hunit]
    exact (compare_map hmono a.mantissa b.mantissa).symm
  · rw [compare_gt_iff_gt.mpr h, compare_gt_iff_gt.mpr (lt_of_exponent_lt hb ha h)]
    rfl

theorem coe_lt_coe {p q : ℚ} :
    (((p : ℚ) : WithTop ℚ) : WithBot (WithTop ℚ)) < ((q : ℚ) : WithTop ℚ) ↔ p < q := by
  rw [WithBot.coe_lt_coe, WithTop.coe_lt_coe]

theorem compare_coe (p q : ℚ) :
    compare (((p : ℚ) : WithTop ℚ) : WithBot (WithTop ℚ)) ((q : ℚ) : WithTop ℚ) = compare p q :=
  compare_map (f := fun r : ℚ => ((r : WithTop ℚ) : WithBot (WithTop ℚ)))
    (fun _ _ h => coe_lt_coe.mpr h) p q

theorem swap_compare (p q : ℚ) : (compare p q).swap = compare (-p) (-q) := by
  have hanti : StrictAnti fun r : ℚ => -r := fun _ _ h => neg_lt_neg h
  rw [← cmp_eq_compare, ← cmp_eq_compare, cmp_swap, hanti.cmp_map_eq]

/-! ## Finite parts -/

section Finite

variable {s s' : Sign} {m m' : Nat} (e e' : Int) (h : 0 < m) (h' : 0 < m')

theorem valueOf_positive : valueOf (.finite .positive m e h) = m * 2 ^ e := by
  simp [valueOf, Sign.apply]

theorem valueOf_negative : valueOf (.finite .negative m e h) = -(m * 2 ^ e) := by
  simp [valueOf, Sign.apply]

theorem valueOf_positive_pos : 0 < valueOf (.finite .positive m e h) := by
  rw [valueOf_positive]
  positivity

theorem valueOf_negative_neg : valueOf (.finite .negative m e h) < 0 := by
  rw [valueOf_negative, neg_lt_zero]
  positivity

theorem compare_zero_finite :
    (zero s).compare (.finite s' m e h) =
      some (compare (valueOf (.zero s)) (valueOf (.finite s' m e h))) := by
  cases s' with
  | positive => exact congrArg some (compare_lt_iff_lt.mpr (valueOf_positive_pos e h)).symm
  | negative => exact congrArg some (compare_gt_iff_gt.mpr (valueOf_negative_neg e h)).symm

theorem compare_finite_zero :
    (finite s m e h).compare (.zero s') =
      some (compare (valueOf (.finite s m e h)) (valueOf (.zero s'))) := by
  cases s with
  | positive => exact congrArg some (compare_gt_iff_gt.mpr (valueOf_positive_pos e h)).symm
  | negative => exact congrArg some (compare_lt_iff_lt.mpr (valueOf_negative_neg e h)).symm

/-- Parts of the same sign compare by their sizes, and others by their signs. -/
theorem compare_finite (ha : Proper (.finite s m e h)) (hb : Proper (.finite s' m' e' h')) :
    (finite s m e h).compare (.finite s' m' e' h') =
      some (compare (valueOf (.finite s m e h)) (valueOf (.finite s' m' e' h'))) := by
  cases s with
  | positive =>
      cases s' with
      | positive =>
          rw [valueOf_positive, valueOf_positive]
          exact congrArg some (compare_canonical ha hb)
      | negative =>
          have hlt := (valueOf_negative_neg e' h').trans (valueOf_positive_pos e h)
          exact congrArg some (compare_gt_iff_gt.mpr hlt).symm
  | negative =>
      cases s' with
      | positive =>
          have hlt := (valueOf_negative_neg e h).trans (valueOf_positive_pos e' h')
          exact congrArg some (compare_lt_iff_lt.mpr hlt).symm
      | negative =>
          rw [valueOf_negative, valueOf_negative, ← swap_compare]
          exact congrArg (fun o => some o.swap) (compare_canonical ha hb)

end Finite

/-- Finite parts compare as their numbers. -/
theorem compare_of_isFinite {a b : UnpackedFloat} (ha : Proper a) (hb : Proper b)
    (hfa : a.isFinite = true) (hfb : b.isFinite = true) :
    a.compare b = some (compare (valueOf a) (valueOf b)) := by
  cases a with
  | notANumber => cases hfa
  | infinity s => cases hfa
  | zero s =>
      cases b with
      | notANumber => cases hfb
      | infinity s' => cases hfb
      | zero s' => exact congrArg some (compare_eq_iff_eq.mpr rfl).symm
      | finite s' m e h => exact compare_zero_finite e h
  | finite s m e h =>
      cases b with
      | notANumber => cases hfb
      | infinity s' => cases hfb
      | zero s' => exact compare_finite_zero e h
      | finite s' m' e' h' => exact compare_finite e e' h h' ha hb

/-- The infinities lie below and above all finite parts. -/
theorem compare_infinity {b : UnpackedFloat} (hb : b.isFinite = true) (s : Sign) :
    (UnpackedFloat.infinity s).compare b = some (compare (rankOf (.infinity s)) (rankOf b)) ∧
      b.compare (.infinity s) = some (compare (rankOf b) (rankOf (.infinity s))) := by
  have hbelow : rankOf (.infinity .negative) < rankOf b := by
    rw [rankOf_of_isFinite hb]
    exact WithBot.bot_lt_coe _
  have habove : rankOf b < rankOf (.infinity .positive) := by
    rw [rankOf_of_isFinite hb]
    exact WithBot.coe_lt_coe.mpr (WithTop.coe_lt_top _)
  cases s with
  | positive =>
      rw [compare_gt_iff_gt.mpr habove, compare_lt_iff_lt.mpr habove]
      cases b with
      | notANumber => cases hb
      | infinity _ => cases hb
      | _ => exact ⟨rfl, rfl⟩
  | negative =>
      rw [compare_lt_iff_lt.mpr hbelow, compare_gt_iff_gt.mpr hbelow]
      cases b with
      | notANumber => cases hb
      | infinity _ => cases hb
      | _ => exact ⟨rfl, rfl⟩

/-- Parts that are numbers compare by their places. -/
theorem compare_eq_compare_rankOf {a b : UnpackedFloat} (ha : Proper a) (hb : Proper b)
    (hna : a.isNaN = false) (hnb : b.isNaN = false) :
    a.compare b = some (compare (rankOf a) (rankOf b)) := by
  cases a with
  | notANumber => cases hna
  | infinity s =>
      cases b with
      | notANumber => cases hnb
      | infinity s' => cases s <;> cases s' <;> rfl
      | _ => exact (compare_infinity rfl s).1
  | _ =>
      cases b with
      | notANumber => cases hnb
      | infinity s => exact (compare_infinity rfl s).2
      | _ =>
          rw [compare_of_isFinite ha hb rfl rfl, rankOf_of_isFinite rfl, rankOf_of_isFinite rfl,
            compare_coe]

theorem compare_eq_none_of_isNaN {a b : UnpackedFloat} (h : a.isNaN = true ∨ b.isNaN = true) :
    a.compare b = none := by
  rcases h with h | h
  · cases a with
    | notANumber => rfl
    | _ => cases h
  · cases b with
    | notANumber => cases a <;> rfl
    | _ => cases h

/-! ## Values as they compare -/

/-- A comparison is true of two values if both are numbers and their places compare so. -/
theorem compare_iff (x y : Float) (p : Ordering → Prop) :
    (∃ o, x.toModel.unpack.compare y.toModel.unpack = some o ∧ p o) ↔
      x.isNaN = false ∧ y.isNaN = false ∧ p (compare (rank x) (rank y)) := by
  by_cases hnan : x.isNaN = true ∨ y.isNaN = true
  · rw [compare_eq_none_of_isNaN hnan]
    constructor
    · rintro ⟨o, ho, -⟩
      cases ho
    · rintro ⟨hx, hy, -⟩
      rw [hx, hy] at hnan
      exact absurd hnan (by decide)
  · rw [not_or, Bool.not_eq_true, Bool.not_eq_true] at hnan
    obtain ⟨hx, hy⟩ := hnan
    rw [compare_eq_compare_rankOf (proper_unpack x) (proper_unpack y) hx hy]
    constructor
    · rintro ⟨o, ho, hp⟩
      cases ho
      exact ⟨hx, hy, hp⟩
    · rintro ⟨-, -, hp⟩
      exact ⟨_, rfl, hp⟩

theorem lt_iff {x y : Float} : x < y ↔ x.isNaN = false ∧ y.isNaN = false ∧ rank x < rank y := by
  have hdef : x < y ↔ ∃ o, x.toModel.unpack.compare y.toModel.unpack = some o ∧ o = .lt := by
    rw [exists_eq_right]
    exact decide_eq_true_iff.trans beq_iff_eq
  rw [hdef, compare_iff, compare_lt_iff_lt]

theorem le_iff {x y : Float} : x ≤ y ↔ x.isNaN = false ∧ y.isNaN = false ∧ rank x ≤ rank y := by
  have hdef : x ≤ y ↔
      ∃ o, x.toModel.unpack.compare y.toModel.unpack = some o ∧ o.isLE = true :=
    decide_eq_true_iff.trans (Option.any_eq_true _ _)
  rw [hdef, compare_iff, Ordering.isLE_iff_ne_gt, ← ne_eq, compare_le_iff_le]

theorem beq_iff {x y : Float} :
    (x == y) = true ↔ x.isNaN = false ∧ y.isNaN = false ∧ rank x = rank y := by
  have hdef : (x == y) = true ↔
      ∃ o, x.toModel.unpack.compare y.toModel.unpack = some o ∧ o = .eq := by
    rw [exists_eq_right]
    exact beq_iff_eq (α := Option Ordering)
  rw [hdef, compare_iff, compare_eq_iff_eq]

end VoxelScout.Binary64
