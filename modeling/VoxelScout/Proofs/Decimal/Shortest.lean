import Mathlib
import VoxelScout.Decimal.Shortest

/-! # The shortest decimal lies near its number

Seventeen digits are enough: the search for the shortest decimal of a finite number always ends
with a decimal that is nearer to this number than to any other.
-/

namespace VoxelScout.Decimal

/-! ## What numbers stand for -/

def Scientific.value (s : Scientific) : ℚ :=
  s.coefficient * 10 ^ s.exponent

namespace Exact

/-- The distance from the number to the next larger one. -/
def unit (e : Exact) : ℚ :=
  2 ^ e.exponent

def lower (e : Exact) : ℚ :=
  e.mantissa - if e.mantissa = 2 ^ 52 ∧ -1074 < e.exponent then 1 / 4 else 1 / 2

def upper (e : Exact) : ℚ :=
  e.mantissa + 1 / 2

/-- The parts as a finite number has them: all 53 bits are in use unless the exponent is the least
one. -/
structure Canonical (e : Exact) : Prop where
  pos : 0 < e.mantissa
  lt : e.mantissa < 2 ^ 53
  least : -1074 ≤ e.exponent
  most : e.exponent ≤ 971
  full : -1074 < e.exponent → 2 ^ 52 ≤ e.mantissa

/-- No other number is nearer to `v`, and if another one is as near, this one is even. -/
structure Near (e : Exact) (v : ℚ) : Prop where
  lower_le : e.lower * e.unit ≤ v
  le_upper : v ≤ e.upper * e.unit
  lower_lt : e.mantissa % 2 = 1 → e.lower * e.unit < v
  lt_upper : e.mantissa % 2 = 1 → v < e.upper * e.unit

theorem unit_pos (e : Exact) : 0 < e.unit :=
  zpow_pos (by norm_num) _

theorem lower_pos {e : Exact} (h : 0 < e.mantissa) : 0 < e.lower := by
  have hone : (1 : ℚ) ≤ e.mantissa := by exact_mod_cast h
  unfold lower
  split <;> linarith

theorem Near.pos {e : Exact} {v : ℚ} (h : e.Near v) (hpos : 0 < e.mantissa) : 0 < v :=
  (mul_pos (lower_pos hpos) e.unit_pos).trans_le h.lower_le

/-- The magnitude is a quotient, and so is the unit, over the same denominator. -/
theorem quotient_spec (e : Exact) :
    0 < e.quotient.2 ∧ (e.quotient.1 : ℚ) / e.quotient.2 = e.mantissa * e.unit := by
  unfold quotient unit
  cases e.exponent with
  | ofNat k => simp
  | negSucc k =>
      simp only [Nat.pow_eq, Nat.cast_pow, Nat.cast_ofNat, zpow_negSucc]
      exact ⟨by positivity, rfl⟩

end Exact

/-! ## Tens -/

theorem scaleTen_spec (num : Nat) {den : Nat} (hden : 0 < den) (k : Int) :
    0 < (scaleTen num den k).2 ∧
      ((scaleTen num den k).1 : ℚ) / (scaleTen num den k).2 = num / den * 10 ^ k := by
  cases k with
  | ofNat k =>
      refine ⟨hden, ?_⟩
      simp only [scaleTen, Nat.pow_eq, Nat.cast_mul, Nat.cast_pow, Nat.cast_ofNat,
        Int.ofNat_eq_natCast, zpow_natCast]
      ring
  | negSucc k =>
      simp only [scaleTen, Nat.pow_eq, Nat.cast_mul, Nat.cast_pow, Nat.cast_ofNat, zpow_negSucc]
      exact ⟨by positivity, by rw [div_mul_eq_div_div, div_eq_mul_inv (_ / _)]⟩

theorem Scientific.value_trim (fuel : Nat) (s : Scientific) : (s.trim fuel).value = s.value := by
  induction fuel generalizing s with
  | zero => rfl
  | succ fuel ih =>
      rw [Scientific.trim]
      split
      · next hten =>
        have hdvd : 10 ∣ s.coefficient := by
          simp only [Bool.and_eq_true, beq_iff_eq] at hten
          omega
        obtain ⟨c, hc⟩ := hdvd
        rw [ih]
        simp only [value, hc, Nat.mul_div_cancel_left c (by decide : 0 < 10)]
        push_cast
        rw [zpow_add_one₀ (by norm_num)]
        ring
      · rfl

theorem lt_pow_digitCount (n : Nat) : n < 10 ^ digitCount n :=
  (Nat.length_toDigits_le_iff (by decide) Nat.length_toDigits_pos).mp le_rfl

theorem pow_digitCount_le {n : Nat} (hn : 0 < n) : 10 ^ (digitCount n - 1) ≤ n := by
  by_contra hlt
  have hpos : 0 < digitCount n := Nat.length_toDigits_pos
  by_cases hone : digitCount n - 1 = 0
  · rw [hone] at hlt
    omega
  · have hle : digitCount n ≤ digitCount n - 1 :=
      (Nat.length_toDigits_le_iff (by decide) (Nat.pos_of_ne_zero hone)).mpr (by omega)
    omega

/-- The power of ten of the leading digit does not exceed the number. -/
theorem pow_leadingExponent_le {num den : Nat} (hnum : 0 < num) (hden : 0 < den) :
    (10 : ℚ) ^ leadingExponent num den ≤ num / den := by
  have hscaled := scaleTen_spec num hden (-((digitCount num : Int) - (digitCount den : Int)))
  unfold leadingExponent
  generalize hguess : (digitCount num : Int) - (digitCount den : Int) = guess at hscaled ⊢
  obtain ⟨hd, hquotient⟩ := hscaled
  dsimp only
  split
  · next hle =>
    have hone : (1 : ℚ) ≤ num / den * 10 ^ (-guess) := by
      rw [← hquotient, one_le_div (by exact_mod_cast hd)]
      exact_mod_cast hle
    have hpow : (0 : ℚ) < 10 ^ guess := by positivity
    rw [zpow_neg, ← div_eq_mul_inv, one_le_div hpow] at hone
    exact hone
  · -- one less than the digits tell is always small enough
    have hlow : ((10 : ℚ) ^ (digitCount num - 1)) ≤ num := by
      exact_mod_cast pow_digitCount_le hnum
    have hhigh : (den : ℚ) ≤ 10 ^ digitCount den := by
      exact_mod_cast (lt_pow_digitCount den).le
    have hcount : 0 < digitCount num := Nat.length_toDigits_pos
    have hexponent : guess - 1 = ((digitCount num - 1 : Nat) : Int) - (digitCount den : Int) := by
      omega
    rw [hexponent, zpow_sub₀ (by norm_num), zpow_natCast, zpow_natCast]
    have hdenq : (0 : ℚ) < den := by exact_mod_cast hden
    gcongr

/-! ## Rounding -/

theorem abs_roundDiv_sub_le (num : Nat) {den : Nat} (hden : 0 < den) :
    |(roundDiv num den : ℚ) - num / den| ≤ 1 / 2 := by
  have hsplit : ((num / den : Nat) : ℚ) * den + (num % den : Nat) = num := by
    exact_mod_cast Nat.div_add_mod' num den
  have hdenq : (0 : ℚ) < den := by exact_mod_cast hden
  have hquotient : (num : ℚ) / den = (num / den : Nat) + ((num % den : Nat) : ℚ) / den := by
    field_simp
    linarith
  have hlt : (num % den : Nat) < den := Nat.mod_lt num hden
  rw [hquotient]
  unfold roundDiv
  dsimp only
  generalize num / den = q
  generalize num % den = rest at hlt ⊢
  have hsmall : rest * 2 ≤ den → (rest : ℚ) / den ≤ 1 / 2 := by
    intro h
    rw [div_le_div_iff₀ hdenq (by norm_num)]
    exact_mod_cast (by omega : rest * 2 ≤ 1 * den)
  have hlarge : den ≤ rest * 2 → 1 / 2 ≤ (rest : ℚ) / den := by
    intro h
    rw [div_le_div_iff₀ (by norm_num) hdenq]
    exact_mod_cast (by omega : 1 * den ≤ rest * 2)
  have hnonneg : 0 ≤ (rest : ℚ) / den := by positivity
  have hle : (rest : ℚ) / den ≤ 1 := by
    rw [div_le_one hdenq]
    exact_mod_cast hlt.le
  rw [abs_le]
  split
  · have := hsmall (by omega)
    constructor <;> linarith
  · have := hlarge (by omega)
    split
    · push_cast
      constructor <;> linarith
    · have := hsmall (by omega)
      split
      · constructor <;> linarith
      · push_cast
        constructor <;> linarith

/-! ## Neighbourhoods -/

namespace Neighbourhood

theorem contains_iff {n : Neighbourhood} (hden : 0 < n.den) (s : Scientific) :
    n.contains s = true ↔
      if n.closed then (n.low : ℚ) / n.den ≤ s.value ∧ s.value ≤ n.high / n.den
      else (n.low : ℚ) / n.den < s.value ∧ s.value < n.high / n.den := by
  obtain ⟨hpos, hvalue⟩ := scaleTen_spec s.coefficient Nat.one_pos s.exponent
  rw [Nat.cast_one, div_one] at hvalue
  have hpos : (0 : ℚ) < (scaleTen s.coefficient 1 s.exponent).2 := by exact_mod_cast hpos
  have hden : (0 : ℚ) < n.den := by exact_mod_cast hden
  unfold contains Scientific.value
  rw [← hvalue]
  dsimp only
  split
  · rw [Bool.and_eq_true, decide_eq_true_eq, decide_eq_true_eq, div_le_div_iff₀ hden hpos,
      div_le_div_iff₀ hpos hden]
    norm_cast
  · rw [Bool.and_eq_true, decide_eq_true_eq, decide_eq_true_eq, div_lt_div_iff₀ hden hpos,
      div_lt_div_iff₀ hpos hden]
    norm_cast

theorem contains_of_onGrid {n : Neighbourhood} {exponent : Int} {s : Scientific}
    (h : n.onGrid exponent = some s) : n.contains s = true := by
  unfold onGrid at h
  generalize scaleTen n.value n.den (-exponent) = ratio at h
  obtain ⟨num, den⟩ := ratio
  dsimp only at h
  generalize (if roundDiv num den == num / den then num / den + 1 else num / den) = other at h
  split_ifs at h with hnearest hother
  · cases h
    exact hnearest
  · cases h
    exact hother

theorem contains_of_search {n : Neighbourhood} {leading : Int} {fuel digits : Nat}
    {s : Scientific} (h : n.search leading fuel digits = some s) : n.contains s = true := by
  induction fuel generalizing digits with
  | zero => cases h
  | succ fuel ih =>
      rw [search] at h
      split at h
      · next hgrid =>
        cases h
        exact contains_of_onGrid hgrid
      · exact ih h

theorem search_isSome {n : Neighbourhood} {leading : Int} {fuel digits : Nat} (more : Nat)
    (hmore : more < fuel)
    (h : (n.onGrid (leading + 1 - (digits + more : Nat))).isSome = true) :
    (n.search leading fuel digits).isSome = true := by
  induction fuel generalizing digits more with
  | zero => omega
  | succ fuel ih =>
      rw [search]
      split
      · rfl
      · next hnone =>
        cases more with
        | zero =>
            rw [Nat.add_zero, hnone] at h
            cases h
        | succ more =>
            rw [show digits + (more + 1) = digits + 1 + more by omega] at h
            exact ih more (by omega) h

/-- A grid that is finer than the neighbourhood is wide meets it. -/
theorem onGrid_isSome {n : Neighbourhood} (hden : 0 < n.den) {exponent : Int}
    (hlow : (n.low : ℚ) / n.den < n.value / n.den - 10 ^ exponent / 2)
    (hhigh : (n.value : ℚ) / n.den + 10 ^ exponent / 2 < n.high / n.den) :
    (n.onGrid exponent).isSome = true := by
  obtain ⟨hpos, hvalue⟩ := scaleTen_spec n.value hden (-exponent)
  have herror := abs_roundDiv_sub_le (scaleTen n.value n.den (-exponent)).1 hpos
  rw [hvalue, abs_le, zpow_neg] at herror
  unfold onGrid
  dsimp only
  generalize roundDiv _ _ = nearest at herror ⊢
  have hgrid : (0 : ℚ) < 10 ^ exponent := by positivity
  have hcancel : (n.value : ℚ) / n.den * (10 ^ exponent)⁻¹ * 10 ^ exponent = n.value / n.den := by
    field_simp
  have hbelow : n.value / n.den - 10 ^ exponent / 2 ≤ nearest * (10 : ℚ) ^ exponent := by
    have := mul_le_mul_of_nonneg_right herror.1 hgrid.le
    linarith
  have habove : nearest * (10 : ℚ) ^ exponent ≤ n.value / n.den + 10 ^ exponent / 2 := by
    have := mul_le_mul_of_nonneg_right herror.2 hgrid.le
    linarith
  have hcontains : n.contains ⟨nearest, exponent⟩ = true := by
    rw [contains_iff hden]
    unfold Scientific.value
    split
    · exact ⟨(hlow.trans_le hbelow).le, (habove.trans_lt hhigh).le⟩
    · exact ⟨hlow.trans_le hbelow, habove.trans_lt hhigh⟩
  rw [if_pos hcontains]
  rfl

/-- The number, its unit and the ends of its neighbourhood have one denominator. -/
theorem ofExact_spec {e : Exact} (hpos : 0 < e.mantissa) :
    0 < (ofExact e).den ∧ ((ofExact e).value : ℚ) / (ofExact e).den = e.mantissa * e.unit ∧
      ((ofExact e).low : ℚ) / (ofExact e).den = e.lower * e.unit ∧
      ((ofExact e).high : ℚ) / (ofExact e).den = e.upper * e.unit := by
  obtain ⟨hden, hquotient⟩ := e.quotient_spec
  -- the gap is the unit, and the magnitude is the mantissa times the gap
  have hgap : ∃ gap : Nat, (ofExact e).high = 4 * e.quotient.1 + 2 * gap ∧
      (ofExact e).low = 4 * e.quotient.1
        - (if e.mantissa = 2 ^ 52 ∧ -1074 < e.exponent then gap else 2 * gap) ∧
      e.quotient.1 = e.mantissa * gap := by
    unfold ofExact Exact.quotient
    cases e.exponent with
    | ofNat k => exact ⟨Nat.pow 2 k, by simp⟩
    | negSucc k => exact ⟨1, by simp⟩
  obtain ⟨gap, hhigh, hlow, hnum⟩ := hgap
  have hmantissa : (0 : ℚ) < e.mantissa := by exact_mod_cast hpos
  have hdenq : (0 : ℚ) < e.quotient.2 := by exact_mod_cast hden
  have hunit : (gap : ℚ) / e.quotient.2 = e.unit := by
    rw [hnum, Nat.cast_mul, mul_div_assoc] at hquotient
    exact mul_left_cancel₀ hmantissa.ne' hquotient
  have hgap : gap ≤ e.quotient.1 := by
    rw [hnum]
    exact Nat.le_mul_of_pos_left gap hpos
  have hofDen : (ofExact e).den = 4 * e.quotient.2 := rfl
  have hofValue : (ofExact e).value = 4 * e.quotient.1 := rfl
  rw [hofDen, hofValue, hhigh, hlow]
  refine ⟨by omega, ?_, ?_, ?_⟩
  · push_cast
    rw [mul_div_mul_left _ _ (by norm_num), hquotient]
  · unfold Exact.lower
    rw [sub_mul, ← hquotient, ← hunit]
    split
    · rw [Nat.cast_sub (by omega)]
      push_cast
      field_simp
    · rw [Nat.cast_sub (by omega)]
      push_cast
      field_simp
      ring
  · unfold Exact.upper
    rw [add_mul, ← hquotient, ← hunit]
    push_cast
    field_simp
    ring

theorem near_of_contains {e : Exact} (hpos : 0 < e.mantissa) {s : Scientific}
    (h : (ofExact e).contains s = true) : e.Near s.value := by
  obtain ⟨hden, -, hlow, hhigh⟩ := ofExact_spec hpos
  rw [contains_iff hden, hlow, hhigh] at h
  have hclosed : (ofExact e).closed = (e.mantissa % 2 == 0) := rfl
  split at h
  · next heven =>
    rw [hclosed, beq_iff_eq] at heven
    exact ⟨h.1, h.2, by omega, by omega⟩
  · exact ⟨h.1.le, h.2.le, fun _ => h.1, fun _ => h.2⟩

/-- Two numbers of 53 bits that follow each other differ by more than a unit of the seventeenth
decimal digit. -/
theorem search_ofExact_isSome {e : Exact} (h : e.Canonical) :
    ((ofExact e).search (leadingExponent (ofExact e).value (ofExact e).den) 17 1).isSome
      = true := by
  obtain ⟨hden, hvalue, hlow, hhigh⟩ := ofExact_spec h.pos
  have hunit := e.unit_pos
  have hvaluePos : 0 < (ofExact e).value := by
    have hquotient : (0 : ℚ) < (ofExact e).value / (ofExact e).den := by
      rw [hvalue]
      exact mul_pos (by exact_mod_cast h.pos) hunit
    have hdenq : (0 : ℚ) < (ofExact e).den := by exact_mod_cast hden
    exact_mod_cast (div_pos_iff_of_pos_right hdenq).mp hquotient
  have hleading := pow_leadingExponent_le hvaluePos hden
  rw [hvalue] at hleading
  generalize leadingExponent _ _ = leading at hleading ⊢
  -- the last digit's half unit
  have hlast : (10 : ℚ) ^ (leading - 16) / 2 ≤ e.mantissa * e.unit / (2 * 10 ^ 16) := by
    rw [zpow_sub₀ (by norm_num)]
    have : (10 : ℚ) ^ leading / 10 ^ (16 : ℤ) ≤ e.mantissa * e.unit / 10 ^ 16 := by
      norm_num
      linarith
    linarith
  have hfine : e.mantissa * e.unit / (2 * 10 ^ 16) < e.unit / 2 := by
    have hlt : (e.mantissa : ℚ) ≤ 2 ^ 53 := by exact_mod_cast h.lt.le
    nlinarith
  apply search_isSome 16 (by decide)
  rw [show leading + 1 - ((1 + 16 : Nat) : Int) = leading - 16 by omega]
  refine onGrid_isSome hden ?_ ?_
  · rw [hlow, hvalue]
    unfold Exact.lower
    rw [sub_mul]
    split
    · next hnarrow =>
      rw [hnarrow.1] at hlast ⊢
      push_cast at hlast ⊢
      linarith
    · linarith
  · rw [hhigh, hvalue]
    unfold Exact.upper
    rw [add_mul]
    linarith

end Neighbourhood

/-- The shortest decimal is read as the number it is the shortest decimal of. -/
theorem near_shortest {e : Exact} (h : e.Canonical) : e.Near (shortest e).value := by
  have hsome := Neighbourhood.search_ofExact_isSome h
  have hpos := h.pos
  unfold shortest
  rw [if_neg (by simp; omega)]
  dsimp only
  split
  · next s hsearch =>
    rw [Scientific.value_trim]
    exact Neighbourhood.near_of_contains h.pos (Neighbourhood.contains_of_search hsearch)
  · next hnone =>
    rw [hnone] at hsome
    cases hsome

theorem shortest_of_zero {e : Exact} (h : e.mantissa = 0) : shortest e = ⟨0, 0⟩ := by
  simp [shortest, h]

end VoxelScout.Decimal
