import Mathlib
import VoxelScout.Proofs.Decimal.Nearest
import VoxelScout.Proofs.Scalar.Value

/-! # How far rounding goes

A result that is not too large is rounded to a finite value near to it: off by a part of its size,
and by half the least number where that is more. Rounding never passes a power of two.
-/

namespace VoxelScout.Binary64

open Decimal
open Float.Model Float.Model.UnpackedFloat

def halfLeast : ℚ :=
  2 ^ (-1075 : ℤ)

@[irreducible]
def overflowBound : ℚ :=
  2 ^ (1024 : ℤ) - 2 ^ (971 : ℤ)

/-- Parts that a number is rounded to. -/
structure Rounds (u : UnpackedFloat) (v : ℚ) : Prop where
  isFinite : u.isFinite = true
  proper : Proper u
  error : |valueOf u - v| ≤ |v| / 2 ^ 53 + halfLeast
  /-- Zero is never nearer. -/
  close : |valueOf u - v| ≤ |v|
  le_two_pow {k : ℤ} : -1074 ≤ k → |v| ≤ 2 ^ k → |valueOf u| ≤ 2 ^ k
  two_pow_le {k : ℤ} : -1074 ≤ k → 2 ^ k ≤ |v| → 2 ^ k ≤ |valueOf u|

theorem halfLeast_pos : 0 < halfLeast := by
  unfold halfLeast
  positivity

theorem two_zpow_succ (k : ℤ) : (2 : ℚ) ^ (k + 1) = 2 * 2 ^ k := by
  rw [zpow_add_one₀ (by norm_num), mul_comm]

theorem two_zpow_lt_overflowBound {k : ℤ} : (2 : ℚ) ^ k < overflowBound ↔ k < 1024 := by
  have hone : (1 : ℚ) < 2 := by norm_num
  have hlast : (2 : ℚ) ^ (971 : ℤ) < 2 ^ (1023 : ℤ) := zpow_lt_zpow_right₀ hone (by decide)
  have hpos : (0 : ℚ) < 2 ^ (971 : ℤ) := by positivity
  have hdouble : (2 : ℚ) ^ (1024 : ℤ) = 2 * 2 ^ (1023 : ℤ) := two_zpow_succ 1023
  have hhigh (hk : ¬k < 1024) : (2 : ℚ) ^ (1024 : ℤ) ≤ 2 ^ k :=
    zpow_le_zpow_right₀ hone.le (by omega)
  have hlow (hk : k < 1024) : (2 : ℚ) ^ k ≤ 2 ^ (1023 : ℤ) :=
    zpow_le_zpow_right₀ hone.le (by omega)
  unfold overflowBound
  generalize (2 : ℚ) ^ (971 : ℤ) = last, (2 : ℚ) ^ (1023 : ℤ) = half,
    (2 : ℚ) ^ (1024 : ℤ) = whole at *
  constructor
  · intro h
    by_contra hk
    have := hhigh hk
    linarith
  · intro hk
    have := hlow hk
    linarith

theorem Rounds.of_eq {u : UnpackedFloat} {v : ℚ} (hfinite : u.isFinite = true) (hproper : Proper u)
    (hvalue : valueOf u = v) : Rounds u v := by
  subst hvalue
  have hpos := halfLeast_pos
  have hzero : |valueOf u - valueOf u| = 0 := by rw [sub_self, abs_zero]
  refine ⟨hfinite, hproper, ?_, hzero.trans_le (abs_nonneg _), fun _ h => h, fun _ h => h⟩
  rw [hzero]
  positivity

/-! ## Rounding a quotient -/

theorem roundDiv_le {num den n : Nat} (hden : 0 < den) (h : num ≤ n * den) :
    roundDiv num den ≤ n := by
  have hsplit : num / den * den + num % den = num := Nat.div_add_mod' num den
  have hle : num / den ≤ n := Nat.div_le_of_le_mul (by rwa [Nat.mul_comm])
  unfold roundDiv
  dsimp only
  rcases hle.eq_or_lt with rfl | hlt
  · rw [if_pos (by omega)]
  · split
    · exact hle
    · split
      · exact hlt
      · split
        · exact hle
        · exact hlt

theorem le_roundDiv {num den n : Nat} (hden : 0 < den) (h : n * den ≤ num) :
    n ≤ roundDiv num den := by
  have hle : n ≤ num / den := (Nat.le_div_iff_mul_le hden).mpr h
  unfold roundDiv
  dsimp only
  split
  · exact hle
  · split
    · omega
    · split
      · exact hle
      · omega

def signed (s : Sign) (v : ℚ) : ℚ :=
  s.apply 1 * v

theorem abs_signed (s : Sign) (v : ℚ) : |signed s v| = |v| := by
  cases s <;> simp [signed, Sign.apply]

theorem signed_sub (s : Sign) (v w : ℚ) : signed s v - signed s w = signed s (v - w) := by
  unfold signed
  ring

theorem valueOf_finite (s : Sign) (m : Nat) (e : Int) (h : 0 < m) :
    valueOf (.finite s m e h) = signed s (m * 2 ^ e) := by
  cases s <;> simp [valueOf, signed, Sign.apply]

/-- What a quotient is rounded to: a mantissa of 53 bits, or the carry into a 54th one. -/
theorem roundWithAccuracy_of_roundDiv {num den : Nat} (hden : 0 < den) {e t : Int}
    (ht : Format.binary64.targetExponent (totalExponent (num / den) e) = t) (he : e ≤ t)
    {r : Nat} (hr : roundDiv num (den * 2 ^ (t - e).toNat) = r) (hle : r ≤ 2 ^ 53)
    (hleast : -1074 ≤ t) (s : Sign) :
    let u := roundWithAccuracy Format.binary64 s (num / den) e (accuracyOfFraction (num % den) den)
    (r = 0 ∧ u = .zero s) ∨ (∃ h : 0 < r, r < 2 ^ 53 ∧ u = .finite s r t h) ∨
      r = 2 ^ 53 ∧ u = .finite s (2 ^ 52) (t + 1) (Nat.two_pow_pos 52) := by
  dsimp only
  rcases hle.eq_or_lt with rfl | hlt
  · refine .inr (.inr ⟨rfl, ?_⟩)
    exact roundWithAccuracy_eq hden ht he ⟨2 ^ 52, false, false⟩ (by decide)
      (by rw [hr]; exact shiftToTargetExponent_carry hleast) s
  · have hshort : shiftToTargetExponent Format.binary64 (roundDiv num (den * 2 ^ (t - e).toNat)) t
        .exact = (⟨r, false, false⟩, t) := by
      rw [hr]
      exact shiftToTargetExponent_of_lt hlt hleast
    rw [roundWithAccuracy_eq_dite hden ht he hshort]
    dsimp only
    split
    · next hzero => exact .inl ⟨hzero, rfl⟩
    · next hne => exact .inr (.inl ⟨Nat.pos_of_ne_zero hne, hlt, rfl⟩)

theorem two_zpow_add (n : ℕ) (k : ℤ) : (2 : ℚ) ^ ((n : ℤ) + k) = (2 ^ n : ℕ) * 2 ^ k := by
  rw [zpow_add₀ (by norm_num), zpow_natCast]
  push_cast
  rfl

theorem le_of_two_zpow_le {k l : ℤ} (h : (2 : ℚ) ^ k ≤ 2 ^ l) : k ≤ l :=
  (zpow_le_zpow_iff_right₀ (by norm_num)).mp h

/-- The number is rounded to this many units, and to no fewer or more than a bound allows. -/
structure UnitCount (n : ℕ) (unit v : ℚ) : Prop where
  error : |n * unit - v| ≤ unit / 2
  le {b : ℕ} : v ≤ b * unit → n ≤ b
  ge {b : ℕ} : b * unit ≤ v → b ≤ n

theorem roundDiv_units (num : Nat) {den : Nat} (hden : 0 < den) {e t : Int} (he : e ≤ t) :
    UnitCount (roundDiv num (den * 2 ^ (t - e).toNat)) (2 ^ t) (num / den * 2 ^ e) := by
  have hscaled := div_mul_two_pow num den he
  have hden2 : 0 < den * 2 ^ (t - e).toNat := by positivity
  have hdenq : (0 : ℚ) < (den * 2 ^ (t - e).toNat : Nat) := by exact_mod_cast hden2
  have hunit : (0 : ℚ) < 2 ^ t := by positivity
  have herror := abs_roundDiv_sub_le num hden2
  rw [hscaled] at herror
  refine ⟨?_, fun h => ?_, fun h => ?_⟩
  · generalize (roundDiv num (den * 2 ^ (t - e).toNat) : ℚ) = r at herror ⊢
    generalize (num : ℚ) / den * 2 ^ e = v at herror ⊢
    calc |r * 2 ^ t - v| = |r - v / 2 ^ t| * 2 ^ t := by
          rw [← abs_of_pos hunit, ← abs_mul, abs_of_pos hunit, sub_mul, div_mul_cancel₀ _ hunit.ne']
      _ ≤ 1 / 2 * 2 ^ t := by gcongr
      _ = 2 ^ t / 2 := by ring
  · rw [← div_le_iff₀ hunit, ← hscaled, div_le_iff₀ hdenq] at h
    exact roundDiv_le hden2 (by exact_mod_cast h)
  · rw [← le_div_iff₀ hunit, ← hscaled, le_div_iff₀ hdenq] at h
    exact le_roundDiv hden2 (by exact_mod_cast h)

theorem two_zpow_eq_mul {k t : ℤ} (h : t ≤ k) :
    (2 : ℚ) ^ k = (2 ^ (k - t).toNat : ℕ) * 2 ^ t := by
  rw [← two_zpow_add, Int.toNat_of_nonneg (by omega), sub_add_cancel]

theorem UnitCount.le_two_zpow {n : ℕ} {t k : ℤ} {v : ℚ} (h : UnitCount n (2 ^ t) v) (htk : t ≤ k)
    (hv : v ≤ 2 ^ k) : n * 2 ^ t ≤ (2 : ℚ) ^ k := by
  rw [two_zpow_eq_mul htk] at hv ⊢
  gcongr
  exact h.le hv

theorem UnitCount.two_zpow_le {n : ℕ} {t k : ℤ} {v : ℚ} (h : UnitCount n (2 ^ t) v) (htk : t ≤ k)
    (hv : 2 ^ k ≤ v) : (2 : ℚ) ^ k ≤ n * 2 ^ t := by
  rw [two_zpow_eq_mul htk] at hv ⊢
  gcongr
  exact h.ge hv

theorem UnitCount.close {n : ℕ} {unit v : ℚ} (h : UnitCount n unit v) (hunit : 0 < unit)
    (hv : 0 ≤ v) : |n * unit - v| ≤ v := by
  rcases Nat.eq_zero_or_pos n with rfl | hn
  · rw [Nat.cast_zero, zero_mul, zero_sub, abs_neg, abs_of_nonneg hv]
  · have hle : 1 * unit ≤ n * unit := by
      gcongr
      exact_mod_cast hn
    have herror := h.error
    rw [abs_le] at herror ⊢
    constructor <;> linarith

theorem UnitCount.full {n : ℕ} {t : ℤ} {v : ℚ} (h : UnitCount n (2 ^ t) v)
    (hv : 2 ^ (52 + t) ≤ v) : 2 ^ 52 ≤ n :=
  h.ge (by rwa [← two_zpow_add])

theorem UnitCount.short {n : ℕ} {t : ℤ} {v : ℚ} (h : UnitCount n (2 ^ t) v)
    (hv : v ≤ 2 ^ (53 + t)) : n ≤ 2 ^ 53 :=
  h.le (by rwa [← two_zpow_add])

/-- The largest number has no carry. -/
theorem UnitCount.carry {n : ℕ} {t : ℤ} {v : ℚ} (h : UnitCount n (2 ^ t) v) (hv : v < overflowBound)
    (hcarry : n = 2 ^ 53) (ht : t ≤ 971) : t ≤ 970 := by
  by_contra hlast
  obtain rfl : t = 971 := by omega
  have hmax : overflowBound = ((2 ^ 53 - 1 : ℕ) : ℚ) * 2 ^ (971 : ℤ) := by
    rw [overflowBound, show (1024 : ℤ) = ((53 : ℕ) : ℤ) + 971 from rfl, two_zpow_add]
    generalize (2 : ℚ) ^ (971 : ℤ) = last
    norm_num
    ring
  have hle := h.le (hmax ▸ hv.le)
  rw [hcarry] at hle
  norm_num at hle

/-- Parts that stand for the nearest number of units are rounded, if there are no smaller units or
53 bits are in use. -/
theorem UnitCount.rounds {n : ℕ} {t : ℤ} {v : ℚ} (h : UnitCount n (2 ^ t) v) (hv : 0 ≤ v)
    (hleast : -1074 ≤ t) (hfull : -1074 < t → 2 ^ (52 + t) ≤ v) {u : UnpackedFloat} {s : Sign}
    (hfinite : u.isFinite = true) (hproper : Proper u) (hvalue : valueOf u = signed s (n * 2 ^ t)) :
    Rounds u (signed s v) := by
  have hmagnitude : |signed s v| = v := by rw [abs_signed, abs_of_nonneg hv]
  have hresult : |signed s (n * 2 ^ t)| = n * 2 ^ t := by
    rw [abs_signed, abs_of_nonneg (by positivity)]
  refine ⟨hfinite, hproper, ?_, ?_, fun {k} hk hle => ?_, fun {k} hk hle => ?_⟩
  · rw [hvalue, signed_sub, abs_signed, hmagnitude]
    refine h.error.trans ?_
    have htiny := halfLeast_pos
    by_cases hlast : -1074 < t
    · have hunit52 := hfull hlast
      rw [show (52 : ℤ) + t = ((52 : ℕ) : ℤ) + t from rfl, two_zpow_add] at hunit52
      push_cast at hunit52
      linarith
    · obtain rfl : t = -1074 := by omega
      have hhalf : (2 : ℚ) ^ (-1074 : ℤ) / 2 = halfLeast := by
        rw [halfLeast, show (-1074 : ℤ) = -1075 + 1 by norm_num, two_zpow_succ]
        ring
      have hnonneg : 0 ≤ v / 2 ^ 53 := by positivity
      linarith
  · rw [hvalue, signed_sub, abs_signed, hmagnitude]
    exact h.close (by positivity) hv
  · rw [hmagnitude] at hle
    rw [hvalue, hresult]
    refine h.le_two_zpow ?_ hle
    by_cases hlast : -1074 < t
    · have := le_of_two_zpow_le ((hfull hlast).trans hle)
      omega
    · omega
  · rw [hmagnitude] at hle
    rw [hvalue, hresult]
    rcases le_or_gt t k with htk | htk
    · exact h.two_zpow_le htk hle
    · have hone : (1 : ℚ) ≤ n := by
        exact_mod_cast (Nat.one_le_two_pow).trans (h.full (hfull (by omega)))
      calc (2 : ℚ) ^ k ≤ 1 * 2 ^ t := by
            rw [one_mul]
            exact zpow_le_zpow_right₀ (by norm_num) htk.le
        _ ≤ n * 2 ^ t := by gcongr

/-- A quotient is rounded to the nearest multiple of the last place that is left to it. -/
theorem roundWithAccuracy_rounds {num den : Nat} (hden : 0 < den) {e : Int}
    (he : e ≤ Format.binary64.targetExponent (totalExponent (num / den) e))
    (hlt : (num : ℚ) / den * 2 ^ e < overflowBound) (s : Sign) :
    Rounds (roundWithAccuracy Format.binary64 s (num / den) e
      (accuracyOfFraction (num % den) den)) (signed s (num / den * 2 ^ e)) := by
  generalize ht : Format.binary64.targetExponent (totalExponent (num / den) e) = t at he
  obtain ⟨hleast, hbelow, habove⟩ := lt_targetExponent hden ht he
  have hunits := roundDiv_units num hden he
  have hcases := roundWithAccuracy_of_roundDiv hden ht he rfl (hunits.short hbelow.le) hleast s
  have hpos : 0 ≤ (num : ℚ) / den * 2 ^ e := by positivity
  have hmost : t ≤ 971 := by
    by_cases h : -1074 < t
    · have hexponent := two_zpow_lt_overflowBound.mp ((habove h).trans_lt hlt)
      omega
    · omega
  dsimp only at hcases
  generalize (num : ℚ) / den * 2 ^ e = v at *
  generalize roundDiv num (den * 2 ^ (t - e).toNat) = r at hunits hcases
  rcases hcases with ⟨rfl, hu⟩ | ⟨h, hshort, hu⟩ | ⟨rfl, hu⟩
  · rw [hu]
    exact hunits.rounds hpos hleast habove rfl trivial (by simp [valueOf, signed])
  · rw [hu]
    exact hunits.rounds hpos hleast habove rfl
      ⟨h, hshort, hleast, hmost, fun hlast => hunits.full (habove hlast)⟩ (valueOf_finite ..)
  · have hnext : t + 1 ≤ 971 := by
      have := hunits.carry hlt rfl hmost
      omega
    have hleast' : -1074 ≤ t + 1 := by omega
    rw [hu]
    refine hunits.rounds hpos hleast habove rfl ⟨Nat.two_pow_pos 52,
      Nat.pow_lt_pow_right (by decide) (by decide), hleast', hnext, fun _ => le_rfl⟩ ?_
    rw [valueOf_finite, two_zpow_succ]
    push_cast
    congr 1
    ring

theorem roundWithAccuracy_exact_rounds {m : Nat} {e : Int}
    (he : e ≤ Format.binary64.targetExponent (totalExponent m e))
    (hlt : (m : ℚ) * 2 ^ e < overflowBound) (s : Sign) :
    Rounds (roundWithAccuracy Format.binary64 s m e .exact) (signed s (m * 2 ^ e)) := by
  have hround := @roundWithAccuracy_rounds m 1 Nat.one_pos e (by rwa [Nat.div_one])
    (by rwa [Nat.cast_one, div_one]) s
  rw [Nat.div_one, Nat.mod_one, Nat.cast_one, div_one] at hround
  exact hround

theorem isFinite_pack_of_le {s : Sign} {m : Nat} {e : Int} (h : 0 < m) (he : 972 ≤ e) :
    (Float.ofModel (.pack (.finite s m e h))).isFinite = false := by
  have hinfinity : Float.Model.pack (.finite s m e h) = .pack (.infinity s) := by
    unfold Float.Model.pack
    have hfull : 2 ^ 11 ≤ (e + 1075).toNat + 1 := by omega
    simp only [UnpackedFloat.pack, biased_eq, hfull, if_true]
  rw [hinfinity]
  cases s <;> rfl

/-- What lies beyond the largest number is rounded to no number. -/
theorem roundWithAccuracy_overflow {num den : Nat} (hden : 0 < den) {e : Int}
    (he : e ≤ Format.binary64.targetExponent (totalExponent (num / den) e))
    (hlarge : 2 ^ (1024 : ℤ) ≤ (num : ℚ) / den * 2 ^ e) (s : Sign) :
    (Float.ofModel (.pack (roundWithAccuracy Format.binary64 s (num / den) e
      (accuracyOfFraction (num % den) den)))).isFinite = false := by
  generalize ht : Format.binary64.targetExponent (totalExponent (num / den) e) = t at he
  obtain ⟨hleast, hbelow, habove⟩ := lt_targetExponent hden ht he
  have hexponent : 972 ≤ t := by
    have := (zpow_lt_zpow_iff_right₀ (by norm_num)).mp (hlarge.trans_lt hbelow)
    omega
  have hunits := roundDiv_units num hden he
  have hfull := hunits.full (habove (by omega))
  rcases roundWithAccuracy_of_roundDiv hden ht he rfl (hunits.short hbelow.le) hleast s with
    ⟨hzero, -⟩ | ⟨h, -, hu⟩ | ⟨-, hu⟩
  · omega
  · rw [hu]
    exact isFinite_pack_of_le h hexponent
  · rw [hu]
    exact isFinite_pack_of_le _ (by omega)

/-! ## Sums -/

theorem log2_shiftLeft {m : Nat} (hm : 0 < m) (k : Nat) : (m <<< k).log2 = m.log2 + k := by
  rw [Nat.shiftLeft_eq, Nat.log2_eq_iff (by positivity)]
  constructor
  · rw [Nat.pow_add]
    exact Nat.mul_le_mul_right _ (Nat.log2_self_le hm.ne')
  · calc m * 2 ^ k < 2 ^ (m.log2 + 1) * 2 ^ k :=
          Nat.mul_lt_mul_of_pos_right Nat.lt_log2_self (Nat.two_pow_pos k)
      _ = 2 ^ (m.log2 + k + 1) := by
          rw [← Nat.pow_add]
          congr 1
          omega

theorem round_rounds {m : Nat} (hm : 0 < m) {e : Int} (hlt : (m : ℚ) * 2 ^ e < overflowBound)
    (s : Sign) : Rounds (UnpackedFloat.round Format.binary64 s m e) (signed s (m * 2 ^ e)) := by
  have hsame (k : Nat) : ((m <<< k : Nat) : ℚ) * 2 ^ (e - k) = m * 2 ^ e := by
    rw [Nat.shiftLeft_eq, zpow_sub₀ (by norm_num), zpow_natCast]
    push_cast
    field_simp
  simp only [UnpackedFloat.round, decreaseExponent]
  rw [← hsame] at hlt ⊢
  refine roundWithAccuracy_exact_rounds ?_ hlt s
  rw [targetExponent_eq, targetExponent_eq, log2_shiftLeft hm]
  omega

/-- A sum is rounded as a whole number of units. -/
theorem normalize_rounds {n e : Int} (hlt : |(n : ℚ) * 2 ^ e| < overflowBound) :
    Rounds (UnpackedFloat.normalize Format.binary64 n e .positive) (n * 2 ^ e) := by
  have hunit : (0 : ℚ) < 2 ^ e := by positivity
  unfold UnpackedFloat.normalize
  rcases lt_trichotomy n 0 with hn | rfl | hn
  · have hcast : ((-n).toNat : ℚ) = -n := by exact_mod_cast Int.toNat_of_nonneg (by omega)
    rw [compare_lt_iff_lt.mpr hn]
    dsimp only
    have hround := @round_rounds (-n).toNat (by omega) e (by
      rw [hcast, neg_mul, ← abs_neg] at *
      exact lt_of_abs_lt hlt) .negative
    rw [hcast] at hround
    simpa [signed, Sign.apply] using hround
  · rw [compare_eq_iff_eq.mpr rfl]
    exact .of_eq rfl trivial (by simp [valueOf])
  · have hcast : (n.toNat : ℚ) = n := by exact_mod_cast Int.toNat_of_nonneg hn.le
    rw [compare_gt_iff_gt.mpr hn]
    dsimp only
    have hround := @round_rounds n.toNat (by omega) e (by
      rw [hcast]
      exact lt_of_abs_lt hlt) .positive
    rw [hcast] at hround
    simpa [signed, Sign.apply] using hround

/-- On a common exponent, both summands are whole numbers. -/
theorem apply_decreaseExponent (s : Sign) (m : Nat) {e e' : Int} (h : e' ≤ e) :
    ((s.apply (decreaseExponent m e e').1 : ℤ) : ℚ) * 2 ^ e' = signed s (m * 2 ^ e) := by
  have hshift : (m <<< (e - e').toNat : Nat) * (2 : ℚ) ^ e' = m * 2 ^ e := by
    have hexponent : e = ((e - e').toNat : Int) + e' := by omega
    conv_rhs => rw [hexponent, two_zpow_add]
    rw [Nat.shiftLeft_eq]
    push_cast
    ring
  cases s with
  | positive =>
      simp only [decreaseExponent, Sign.apply, signed, Int.cast_natCast, Int.cast_one]
      rw [hshift, one_mul]
  | negative =>
      simp only [decreaseExponent, Sign.apply, signed, Int.cast_natCast, Int.cast_neg, Int.cast_one]
      rw [neg_mul, hshift, neg_one_mul]

theorem add_rounds {a b : UnpackedFloat} (hfa : a.isFinite = true) (ha : Proper a)
    (hfb : b.isFinite = true) (hb : Proper b) (hlt : |valueOf a + valueOf b| < overflowBound) :
    Rounds (UnpackedFloat.add Format.binary64 a b) (valueOf a + valueOf b) := by
  cases a with
  | notANumber => cases hfa
  | infinity s => cases hfa
  | zero s =>
      cases b with
      | notANumber => cases hfb
      | infinity s' => cases hfb
      | zero s' => cases s <;> cases s' <;> exact .of_eq rfl trivial (add_zero 0).symm
      | finite s' m' e' h' => exact .of_eq rfl hb (zero_add _).symm
  | finite s m e h =>
      cases b with
      | notANumber => cases hfb
      | infinity s' => cases hfb
      | zero s' => exact .of_eq rfl ha (add_zero _).symm
      | finite s' m' e' h' =>
          have hsum : valueOf (.finite s m e h) + valueOf (.finite s' m' e' h') =
              ((s.apply (decreaseExponent m e (min e e')).1 +
                s'.apply (decreaseExponent m' e' (min e e')).1 : ℤ) : ℚ) * 2 ^ min e e' := by
            push_cast
            rw [add_mul, apply_decreaseExponent _ _ (min_le_left e e'),
              apply_decreaseExponent _ _ (min_le_right e e'), valueOf_finite, valueOf_finite]
          rw [hsum] at hlt ⊢
          exact normalize_rounds hlt

theorem isFinite_neg {a : UnpackedFloat} (h : a.isFinite = true) : a.neg.isFinite = true := by
  cases a with
  | notANumber => cases h
  | infinity s => cases h
  | _ => rfl

theorem proper_neg {a : UnpackedFloat} (h : Proper a) : Proper a.neg := by
  cases a with
  | finite s m e hpos => exact h
  | _ => trivial

theorem valueOf_neg (a : UnpackedFloat) : valueOf a.neg = -valueOf a := by
  cases a with
  | finite s m e h => cases s <;> simp [UnpackedFloat.neg, valueOf_finite, signed, Sign.apply]
  | _ => exact neg_zero.symm

theorem sub_eq_add {a b : UnpackedFloat} (hfa : a.isFinite = true) (hfb : b.isFinite = true) :
    UnpackedFloat.sub Format.binary64 a b = UnpackedFloat.add Format.binary64 a b.neg := by
  cases a with
  | notANumber => cases hfa
  | infinity s => cases hfa
  | zero s =>
      cases b with
      | notANumber => cases hfb
      | infinity s' => cases hfb
      | zero s' => cases s <;> cases s' <;> rfl
      | finite s' m' e' h' => rfl
  | finite s m e h =>
      cases b with
      | notANumber => cases hfb
      | infinity s' => cases hfb
      | zero s' => rfl
      | finite s' m' e' h' =>
          cases s' <;> simp [UnpackedFloat.sub, UnpackedFloat.add, UnpackedFloat.neg, Sign.apply,
            Int.sub_eq_add_neg]

/-! ## Products and quotients -/

theorem signed_mul (s s' : Sign) (v w : ℚ) :
    signed s v * signed s' w = signed (s * s') (v * w) := by
  have hsign : (s * s').apply 1 = s.apply 1 * s'.apply 1 := by
    cases s <;> cases s' <;> rfl
  unfold signed
  rw [hsign]
  push_cast
  ring

theorem signed_div (s s' : Sign) (v w : ℚ) :
    signed s v / signed s' w = signed (s / s') (v / w) := by
  have hsign : (s / s').apply 1 = s.apply 1 * s'.apply 1 := by
    cases s <;> cases s' <;> rfl
  unfold signed
  rw [hsign]
  cases s' with
  | positive => simp [Sign.apply, mul_div_assoc]
  | negative => simp [Sign.apply, mul_div_assoc, div_neg]

/-- A product of two numbers has 53 bits, unless its exponent is less than the least one. -/
theorem le_targetExponent_mul {a b : Exact} (ha : a.Canonical) (hb : b.Canonical) :
    a.exponent + b.exponent ≤ Format.binary64.targetExponent
      (totalExponent (a.mantissa * b.mantissa) (a.exponent + b.exponent)) := by
  have hbits {m n : Nat} (hm : 2 ^ 52 ≤ m) (hn : 0 < n) : 52 ≤ (m * n).log2 :=
    (Nat.le_log2 (by positivity)).mpr (hm.trans (Nat.le_mul_of_pos_right m hn))
  rw [targetExponent_eq]
  by_cases hfull : -1074 < a.exponent
  · have := hbits (ha.full hfull) hb.pos
    omega
  · by_cases hfull' : -1074 < b.exponent
    · have := hbits (hb.full hfull') ha.pos
      rw [Nat.mul_comm] at this
      omega
    · omega

theorem mul_rounds {a b : UnpackedFloat} (hfa : a.isFinite = true) (ha : Proper a)
    (hfb : b.isFinite = true) (hb : Proper b) (hlt : |valueOf a * valueOf b| < overflowBound) :
    Rounds (UnpackedFloat.mul Format.binary64 a b) (valueOf a * valueOf b) := by
  cases a with
  | notANumber => cases hfa
  | infinity s => cases hfa
  | zero s =>
      cases b with
      | notANumber => cases hfb
      | infinity s' => cases hfb
      | _ => exact .of_eq rfl trivial (zero_mul _).symm
  | finite s m e h =>
      cases b with
      | notANumber => cases hfb
      | infinity s' => cases hfb
      | zero s' => exact .of_eq rfl trivial (mul_zero _).symm
      | finite s' m' e' h' =>
          have hproduct : (m : ℚ) * 2 ^ e * (m' * 2 ^ e') = (m * m' : Nat) * 2 ^ (e + e') := by
            rw [zpow_add₀ (by norm_num)]
            push_cast
            ring
          rw [valueOf_finite, valueOf_finite, signed_mul, hproduct] at hlt ⊢
          rw [abs_signed, abs_of_nonneg (by positivity)] at hlt
          exact roundWithAccuracy_exact_rounds (le_targetExponent_mul ha hb) hlt _

/-- A quotient of numbers is rounded from one of whole numbers. -/
theorem exists_div_eq (s s' : Sign) {m m' : Nat} (e e' : Int) (h : 0 < m) (h' : 0 < m') :
    ∃ num last, UnpackedFloat.div Format.binary64 (.finite s m e h) (.finite s' m' e' h') =
        roundWithAccuracy Format.binary64 (s / s') (num / m') last
          (accuracyOfFraction (num % m') m') ∧
      last ≤ Format.binary64.targetExponent (totalExponent (num / m') last) ∧
      valueOf (.finite s m e h) / valueOf (.finite s' m' e' h') =
        signed (s / s') (num / m' * 2 ^ last) := by
  obtain ⟨num, last, hcore, hlast, hvalue⟩ := divCore_eq e e' h h'
  refine ⟨num, last, ?_, hlast, ?_⟩
  · simp only [UnpackedFloat.div, hcore]
  · rw [valueOf_finite, valueOf_finite, signed_div, hvalue, zpow_sub₀ (by norm_num),
      div_mul_div_comm]

theorem div_rounds {a b : UnpackedFloat} (hfa : a.isFinite = true) (hfb : b.isFinite = true)
    (hne : valueOf b ≠ 0) (hlt : |valueOf a / valueOf b| < overflowBound) :
    Rounds (UnpackedFloat.div Format.binary64 a b) (valueOf a / valueOf b) := by
  cases b with
  | notANumber => cases hfb
  | infinity s' => cases hfb
  | zero s' => exact absurd rfl hne
  | finite s' m' e' h' =>
      cases a with
      | notANumber => cases hfa
      | infinity s => cases hfa
      | zero s => exact .of_eq rfl trivial (zero_div _).symm
      | finite s m e h =>
          obtain ⟨num, last, hdiv, hlast, hvalue⟩ := exists_div_eq s s' e e' h h'
          rw [hvalue, abs_signed] at hlt
          rw [hvalue, hdiv]
          exact roundWithAccuracy_rounds h' hlast (lt_of_abs_lt hlt) _

theorem isFinite_pack_div_of_le {a b : UnpackedFloat} (hfa : a.isFinite = true)
    (hfb : b.isFinite = true) (hne : valueOf b ≠ 0)
    (hlarge : 2 ^ (1024 : ℤ) ≤ |valueOf a / valueOf b|) :
    (Float.ofModel (.pack (UnpackedFloat.div Format.binary64 a b))).isFinite = false := by
  have hpos : (0 : ℚ) < 2 ^ (1024 : ℤ) := zpow_pos (by norm_num) _
  cases b with
  | notANumber => cases hfb
  | infinity s' => cases hfb
  | zero s' => exact absurd rfl hne
  | finite s' m' e' h' =>
      cases a with
      | notANumber => cases hfa
      | infinity s => cases hfa
      | zero s =>
          rw [show valueOf (.zero s) = 0 from rfl, zero_div, abs_zero] at hlarge
          exact absurd hlarge (not_le.mpr hpos)
      | finite s m e h =>
          obtain ⟨num, last, hdiv, hlast, hvalue⟩ := exists_div_eq s s' e e' h h'
          have hnonneg : 0 ≤ (num : ℚ) / m' * 2 ^ last :=
            mul_nonneg (div_nonneg num.cast_nonneg m'.cast_nonneg) (zpow_nonneg (by norm_num) _)
          rw [hvalue, abs_signed, abs_of_nonneg hnonneg] at hlarge
          rw [hdiv]
          exact roundWithAccuracy_overflow h' hlast hlarge _

/-! ## Roots -/

/-- A whole root with two bits for the rest is off by less than the root of what is left. -/
theorem exists_quarters (n : Nat) :
    ∃ num, num / 4 = n.sqrt ∧
      accuracyOfFraction (num % 4) 4 = (if n - n.sqrt * n.sqrt = 0 then .exact
        else .inexact (if n - n.sqrt * n.sqrt ≤ n.sqrt then .lt else .gt)) ∧
      |((num : ℚ) / 4) ^ 2 - (n : ℚ)| ≤ (n.sqrt : ℚ) := by
  have hlow := Nat.sqrt_le n
  have hhigh := Nat.sqrt_le_add n
  generalize n.sqrt = root at hlow hhigh ⊢
  obtain ⟨rest, rfl⟩ := Nat.exists_eq_add_of_le hlow
  rw [Nat.add_sub_cancel_left]
  have hroot : (0 : ℚ) ≤ root := by positivity
  by_cases hzero : rest = 0
  · refine ⟨4 * root, by omega, ?_, ?_⟩
    · rw [if_pos hzero, Nat.mul_mod_right]
      rfl
    · subst hzero
      push_cast
      rw [mul_div_cancel_left₀ _ (by norm_num)]
      rw [show (root : ℚ) ^ 2 - (root * root + 0) = 0 by ring, abs_zero]
      exact hroot
  · have hone : (1 : ℚ) ≤ rest := by exact_mod_cast Nat.one_le_iff_ne_zero.mpr hzero
    rw [if_neg hzero]
    by_cases hhalf : rest ≤ root
    · refine ⟨4 * root + 1, by omega, ?_, ?_⟩
      · rw [if_pos hhalf, Nat.mul_add_mod]
        rfl
      · have hle : (rest : ℚ) ≤ root := by exact_mod_cast hhalf
        push_cast
        rw [abs_le]
        constructor <;> nlinarith
    · refine ⟨4 * root + 3, by omega, ?_, ?_⟩
      · rw [if_neg hhalf, Nat.mul_add_mod]
        rfl
      · have hlt : (root : ℚ) + 1 ≤ rest := by exact_mod_cast Nat.lt_of_not_le hhalf
        have hle : (rest : ℚ) ≤ root + root := by exact_mod_cast (by omega : rest ≤ root + root)
        push_cast
        rw [abs_le]
        constructor <;> nlinarith

/-- The leading bits of a root are those of a number whose square is near. -/
theorem sqrtCore_eq {x : Exact} (hx : x.Canonical) :
    ∃ num e, sqrtCore Format.binary64 x.mantissa x.exponent
        = (num / 4, e, accuracyOfFraction (num % 4) 4) ∧
      e ≤ Format.binary64.targetExponent (totalExponent (num / 4) e) ∧
      |((num : ℚ) / 4 * 2 ^ e) ^ 2 - x.mantissa * x.unit| ≤ x.mantissa * x.unit / 2 ^ 52 := by
  obtain ⟨hpos, hlt, hleast, hmost, -⟩ := hx
  have htarget : Format.binary64.targetExponent ((totalExponent x.mantissa x.exponent + 1).ediv 2)
      = (x.mantissa.log2 + 2 + x.exponent) / 2 - 53 := by
    change max ((x.mantissa.log2 + 1 + x.exponent + 1) / 2 - 53 : Int) (-1074) = _
    omega
  simp only [sqrtCore, htarget]
  generalize hlast : min (x.exponent.ediv 2) ((x.mantissa.log2 + 2 + x.exponent) / 2 - 53) = last
  replace hlast : min (x.exponent / 2) ((x.mantissa.log2 + 2 + x.exponent) / 2 - 53) = last := hlast
  generalize hshift : (x.exponent - 2 * last).toNat = shift
  have hexponent : x.exponent = (shift : Int) + 2 * last := by omega
  obtain ⟨num, hroot, haccuracy, hsquare⟩ := exists_quarters (x.mantissa <<< shift)
  -- the root has 53 bits
  have hbits : 2 ^ 52 ≤ (x.mantissa <<< shift).sqrt := by
    rw [Nat.le_sqrt]
    calc 2 ^ 52 * 2 ^ 52 = 2 ^ 104 := by norm_num
      _ ≤ 2 ^ (x.mantissa <<< shift).log2 := by
          rw [log2_shiftLeft hpos]
          exact Nat.pow_le_pow_right (by decide) (by omega)
      _ ≤ x.mantissa <<< shift := Nat.log2_self_le (by rw [Nat.shiftLeft_eq]; positivity)
  refine ⟨num, last, by rw [hroot, haccuracy], ?_, ?_⟩
  · have hlog : 52 ≤ (num / 4).log2 := (Nat.le_log2 (by omega)).mpr (hroot ▸ hbits)
    rw [targetExponent_eq]
    omega
  · have hvalue : (x.mantissa : ℚ) * x.unit = (x.mantissa <<< shift : Nat) * (2 ^ last) ^ 2 := by
      rw [Exact.unit, hexponent, two_zpow_add, Nat.shiftLeft_eq, two_mul,
        zpow_add₀ (by norm_num)]
      push_cast
      ring
    have hsmall : ((x.mantissa <<< shift).sqrt : ℚ) ≤ (x.mantissa <<< shift : Nat) / 2 ^ 52 := by
      rw [le_div_iff₀ (by positivity)]
      exact_mod_cast (Nat.mul_le_mul_left _ hbits).trans (Nat.sqrt_le _)
    rw [hvalue, mul_pow, ← sub_mul, abs_mul, abs_of_nonneg (sq_nonneg ((2 : ℚ) ^ last)),
      mul_div_right_comm]
    gcongr
    exact hsquare.trans hsmall

theorem lt_two_overflowBound {x : Exact} (hx : x.Canonical) :
    (x.mantissa : ℚ) * x.unit < 2 * overflowBound := by
  have hmost : (x.mantissa : ℚ) * x.unit < 2 ^ (1024 : ℤ) := x.near_self.lt_two_pow hx
  have hbound := two_zpow_lt_overflowBound.mpr (show (1023 : ℤ) < 1024 by decide)
  have hdouble : (2 : ℚ) ^ (1024 : ℤ) = 2 * 2 ^ (1023 : ℤ) := two_zpow_succ 1023
  generalize (2 : ℚ) ^ (1023 : ℤ) = half, (2 : ℚ) ^ (1024 : ℤ) = whole at *
  linarith

theorem lt_overflowBound_of_sq {w v : ℚ} (hv : v < 2 * overflowBound)
    (hsquare : |w ^ 2 - v| ≤ v / 2 ^ 52) : w < overflowBound := by
  have hfour : (4 : ℚ) < overflowBound := by
    have h := two_zpow_lt_overflowBound (k := 2)
    norm_num at h
    exact h
  rw [abs_le] at hsquare
  by_contra hlarge
  rw [not_lt] at hlarge
  have hpow : v / 2 ^ 52 ≤ v ∨ v < 0 := by
    rcases lt_or_ge v 0 with h | h
    · exact .inr h
    · exact .inl (div_le_self h (by norm_num))
  rcases hpow with h | h <;> nlinarith

/-- A root is rounded from a number whose square is near. -/
theorem sqrt_rounds {a : UnpackedFloat} (hfa : a.isFinite = true) (ha : Proper a)
    (hpos : 0 ≤ valueOf a) :
    ∃ w, 0 ≤ w ∧ |w ^ 2 - valueOf a| ≤ valueOf a / 2 ^ 52 ∧
      Rounds (UnpackedFloat.sqrt Format.binary64 a) w := by
  cases a with
  | notANumber => cases hfa
  | infinity s => cases hfa
  | zero s =>
      refine ⟨0, le_rfl, ?_, .of_eq rfl trivial rfl⟩
      simp [valueOf]
  | finite s m e h =>
      cases s with
      | negative =>
          rw [valueOf_finite] at hpos
          have hmagnitude : (0 : ℚ) < m * 2 ^ e := by positivity
          simp only [signed, Sign.apply, Int.cast_neg, Int.cast_one] at hpos
          linarith
      | positive =>
          obtain ⟨num, last, hcore, hlast, hsquare⟩ := sqrtCore_eq ha
          have hvalue : valueOf (.finite .positive m e h) = m * 2 ^ e := by
            simp [valueOf_finite, signed, Sign.apply]
          have hroot : (0 : ℚ) ≤ num / (4 : Nat) * 2 ^ last := by positivity
          have hlt := lt_overflowBound_of_sq (lt_two_overflowBound ha) hsquare
          refine ⟨num / (4 : Nat) * 2 ^ last, hroot, ?_, ?_⟩
          · rw [hvalue]
            exact hsquare
          · simp only [UnpackedFloat.sqrt, hcore]
            have hround := roundWithAccuracy_rounds (by decide) hlast hlt .positive
            simpa [signed, Sign.apply] using hround

/-! ## Values -/

theorem unpack_pack {u : UnpackedFloat} (hfinite : u.isFinite = true) (hproper : Proper u) :
    (Float.ofModel (.pack u)).toModel.unpack = u := by
  cases u with
  | notANumber => cases hfinite
  | infinity s => cases hfinite
  | zero s => cases s <;> rfl
  | finite s m e h => exact unpack_toFloat hproper s

/-- A value that a number is rounded to. -/
def Nearly (x : Float) (v : ℚ) : Prop :=
  Rounds x.toModel.unpack v

theorem Rounds.nearly {u : UnpackedFloat} {v : ℚ} (h : Rounds u v) :
    Nearly (.ofModel (.pack u)) v := by
  unfold Nearly
  rw [unpack_pack h.isFinite h.proper]
  exact h

variable {x y : Float}

theorem add_nearly (hx : x.isFinite = true) (hy : y.isFinite = true)
    (hlt : |value x + value y| < overflowBound) : Nearly (x + y) (value x + value y) :=
  (add_rounds hx (proper_unpack x) hy (proper_unpack y) hlt).nearly

theorem value_neg (hx : x.isFinite = true) :
    (-x).isFinite = true ∧ value (-x) = -value x := by
  have hparts : (-x).toModel.unpack = x.toModel.unpack.neg :=
    unpack_pack (isFinite_neg hx) (proper_neg (proper_unpack x))
  refine ⟨?_, ?_⟩
  · change (-x).toModel.unpack.isFinite = true
    rw [hparts]
    exact isFinite_neg hx
  · rw [value, hparts, valueOf_neg]
    rfl

theorem sub_nearly (hx : x.isFinite = true) (hy : y.isFinite = true)
    (hlt : |value x - value y| < overflowBound) : Nearly (x - y) (value x - value y) := by
  have hdifference := sub_eq_add hx hy
  change Nearly (.ofModel (.pack (UnpackedFloat.sub Format.binary64 _ _))) _
  rw [hdifference]
  have hvalue : value x - value y = valueOf x.toModel.unpack + valueOf y.toModel.unpack.neg := by
    rw [valueOf_neg]
    exact sub_eq_add_neg _ _
  rw [hvalue] at hlt ⊢
  exact (add_rounds hx (proper_unpack x) (isFinite_neg hy) (proper_neg (proper_unpack y))
    hlt).nearly

theorem mul_nearly (hx : x.isFinite = true) (hy : y.isFinite = true)
    (hlt : |value x * value y| < overflowBound) : Nearly (x * y) (value x * value y) :=
  (mul_rounds hx (proper_unpack x) hy (proper_unpack y) hlt).nearly

theorem div_nearly (hx : x.isFinite = true) (hy : y.isFinite = true) (hne : value y ≠ 0)
    (hlt : |value x / value y| < overflowBound) : Nearly (x / y) (value x / value y) :=
  (div_rounds hx hy hne hlt).nearly

theorem isFinite_div_of_le (hx : x.isFinite = true) (hy : y.isFinite = true) (hne : value y ≠ 0)
    (hlarge : 2 ^ (1024 : ℤ) ≤ |value x / value y|) : (x / y).isFinite = false :=
  isFinite_pack_div_of_le hx hy hne hlarge

theorem sqrt_nearly (hx : x.isFinite = true) (hpos : 0 ≤ value x) :
    ∃ w, 0 ≤ w ∧ |w ^ 2 - value x| ≤ value x / 2 ^ 52 ∧ Nearly x.sqrt w := by
  obtain ⟨w, hw, hsquare, hrounds⟩ := sqrt_rounds hx (proper_unpack x) hpos
  exact ⟨w, hw, hsquare, hrounds.nearly⟩

end VoxelScout.Binary64
