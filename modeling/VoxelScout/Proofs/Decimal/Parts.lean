import Mathlib
import VoxelScout.Proofs.Decimal.Shortest

/-! # Numbers and their parts

A finite number has a sign, a mantissa and an exponent, and these make up the number.
-/

namespace VoxelScout.Decimal

open Float.Model Float.Model.UnpackedFloat

def signOf (negative : Bool) : Sign :=
  if negative then .negative else .positive

/-- The number with these parts, and a sign of its own. -/
def Exact.toFloat (x : Exact) (hpos : 0 < x.mantissa) (s : Sign) : Float :=
  .ofModel (.pack (.finite s x.mantissa x.exponent hpos))

theorem toNat_append_one (m : BitVec 52) : (1#1 ++ m).toNat = 2 ^ 52 + m.toNat := by
  rw [BitVec.toNat_append, ← Nat.shiftLeft_add_eq_or_of_lt m.isLt]
  simp [Nat.shiftLeft_eq]

theorem ofNat_ne {n m : Nat} (hn : n < 2 ^ 11) {field : BitVec 11} (hfield : field.toNat = m)
    (hne : n ≠ m) : BitVec.ofNat 11 n ≠ field := by
  rintro rfl
  rw [BitVec.toNat_ofNat, Nat.mod_eq_of_lt hn] at hfield
  exact hne hfield

theorem biased_eq (e : Int) :
    (e + Format.binary64.exponentBias + (52 : Nat)).toNat = (e + 1075).toNat := by
  rw [show (Format.binary64.exponentBias : Int) = 1023 from rfl]
  omega

/-- The leading bit of a mantissa of 53 bits is left out and put back. -/
theorem unpack_toFloat_of_full {x : Exact} (hx : x.Canonical) (hbits : 2 ^ 52 ≤ x.mantissa)
    (s : Sign) : (x.toFloat hx.pos s).toModel.unpack = .finite s x.mantissa x.exponent hx.pos := by
  obtain ⟨hpos, hlt, hleast, hmost, -⟩ := hx
  have hlog : x.mantissa.log2 = 52 := (Nat.log2_eq_iff (by omega)).mpr ⟨hbits, hlt⟩
  have hexponent : (BitVec.ofNat 11 (x.exponent + 1075).toNat).toNat
      = (x.exponent + 1075).toNat := by
    rw [BitVec.toNat_ofNat]
    omega
  have hall : BitVec.ofNat 11 (x.exponent + 1075).toNat ≠ -1#11 :=
    ofNat_ne (by omega) (m := 2047) rfl (by omega)
  have hzero : BitVec.ofNat 11 (x.exponent + 1075).toNat ≠ 0#11 :=
    ofNat_ne (by omega) (m := 0) rfl (by omega)
  have hmantissa : (1#1 ++ BitVec.ofNat 52 x.mantissa).toNat = x.mantissa := by
    rw [toNat_append_one, BitVec.toNat_ofNat]
    omega
  have hbias : (Format.binary64.exponentBias : Int) = 1023 := rfl
  unfold Exact.toFloat Float.Model.unpack Float.Model.pack
  simp only [UnpackedFloat.pack, biased_eq]
  rw [if_neg (by omega), if_pos (by rw [hlog]; rfl)]
  simp only [UnpackedFloat.unpack, unpackMantissa_packComponents, unpackExponent_packComponents,
    unpackSign_packComponents, Sign.ofBitVec_toBitVec, hall, hzero, if_false, hexponent, hmantissa]
  congr 1
  omega

/-- A shorter mantissa is kept as it is, under the least exponent. -/
theorem unpack_toFloat_of_short {x : Exact} (hx : x.Canonical) (hbits : x.mantissa < 2 ^ 52)
    (s : Sign) : (x.toFloat hx.pos s).toModel.unpack = .finite s x.mantissa x.exponent hx.pos := by
  obtain ⟨hpos, -, hleast, hmost, hfull⟩ := hx
  have hlog : x.mantissa.log2 < 52 := (Nat.log2_lt (by omega)).mpr hbits
  have hexponent : x.exponent = -1074 := by
    by_contra hne
    exact absurd (hfull (by omega)) (not_le.mpr hbits)
  have hmantissa : (BitVec.ofNat 52 x.mantissa).toNat = x.mantissa := by
    rw [BitVec.toNat_ofNat]
    omega
  have hne : BitVec.ofNat 52 x.mantissa ≠ 0#52 := by
    intro h
    rw [h] at hmantissa
    exact hpos.ne hmantissa
  unfold Exact.toFloat Float.Model.unpack Float.Model.pack
  simp only [UnpackedFloat.pack, biased_eq]
  rw [if_neg (by omega), if_neg (by change ¬ x.mantissa.log2 + 1 = 53; omega)]
  simp only [UnpackedFloat.unpack, unpackMantissa_packComponents, unpackExponent_packComponents,
    unpackSign_packComponents, Sign.ofBitVec_toBitVec, hne, dif_neg, not_false_eq_true, hmantissa,
    hexponent]
  rfl

theorem unpack_toFloat {x : Exact} (hx : x.Canonical) (s : Sign) :
    (x.toFloat hx.pos s).toModel.unpack = .finite s x.mantissa x.exponent hx.pos := by
  by_cases hbits : 2 ^ 52 ≤ x.mantissa
  · exact unpack_toFloat_of_full hx hbits s
  · exact unpack_toFloat_of_short hx (by omega) s

theorem ofModel_pack_unpack (x : Float) : Float.ofModel (.pack x.toModel.unpack) = x :=
  Float.ofBits_toBits x

/-! ## Bits -/

def fieldOf (bits : UInt64) : Nat :=
  bits.toNat / Nat.pow 2 52 % Nat.pow 2 11

def fractionOf (bits : UInt64) : Nat :=
  bits.toNat % Nat.pow 2 52

def negativeOf (bits : UInt64) : Bool :=
  bits.toNat / Nat.pow 2 63 == 1

theorem fieldOf_lt (bits : UInt64) : fieldOf bits < 2048 :=
  Nat.mod_lt _ (by decide)

theorem fractionOf_lt (bits : UInt64) : fractionOf bits < 2 ^ 52 :=
  Nat.mod_lt _ (by decide)

theorem toNat_unpackExponent (bits : UInt64) :
    (@unpackExponent Format.binary64 bits.toBitVec).toNat = fieldOf bits := by
  simp [unpackExponent, fieldOf, Nat.shiftRight_eq_div_pow]

theorem toNat_unpackMantissa (bits : UInt64) :
    (@unpackMantissa Format.binary64 bits.toBitVec).toNat = fractionOf bits := by
  simp [unpackMantissa, fractionOf]

theorem ofBitVec_unpackSign (bits : UInt64) :
    Sign.ofBitVec (@unpackSign Format.binary64 bits.toBitVec) = signOf (negativeOf bits) := by
  have hsign : (@unpackSign Format.binary64 bits.toBitVec).toNat
      = bits.toNat / Nat.pow 2 63 := by
    have hbit : bits.toNat / 2 ^ 63 % 2 = bits.toNat / 2 ^ 63 := by
      have hlt := bits.toNat_lt
      omega
    simpa [unpackSign, Nat.shiftRight_eq_div_pow] using hbit
  rw [negativeOf, ← hsign]
  rcases BitVec.eq_zero_or_eq_one (@unpackSign Format.binary64 bits.toBitVec) with hbit | hbit
  · rw [hbit]
    rfl
  · rw [hbit]
    rfl

/-! ## Parts from bits -/

section Bits

variable {bits : UInt64}

theorem unpackExponent_eq_top_iff :
    @unpackExponent Format.binary64 bits.toBitVec = -1#11 ↔ fieldOf bits = 2047 := by
  rw [← toNat_unpackExponent, ← BitVec.toNat_inj]
  rfl

theorem unpackExponent_eq_zero_iff :
    @unpackExponent Format.binary64 bits.toBitVec = 0#11 ↔ fieldOf bits = 0 := by
  rw [← toNat_unpackExponent, ← BitVec.toNat_inj]
  rfl

theorem unpackMantissa_eq_zero_iff :
    @unpackMantissa Format.binary64 bits.toBitVec = 0#52 ↔ fractionOf bits = 0 := by
  rw [← toNat_unpackMantissa, ← BitVec.toNat_inj]
  rfl

theorem isFinite_unpack_of_top (htop : fieldOf bits = 2047) :
    (UnpackedFloat.unpack Format.binary64 bits.toBitVec).isFinite = false := by
  unfold UnpackedFloat.unpack
  dsimp only
  rw [if_pos (unpackExponent_eq_top_iff.mpr htop)]
  split <;> rfl

theorem unpack_of_zero (hfield : fieldOf bits = 0) (hfraction : fractionOf bits = 0) :
    UnpackedFloat.unpack Format.binary64 bits.toBitVec = .zero (signOf (negativeOf bits)) := by
  have htop : fieldOf bits ≠ 2047 := by omega
  unfold UnpackedFloat.unpack
  dsimp only
  rw [if_neg (mt unpackExponent_eq_top_iff.mp htop), if_pos (unpackExponent_eq_zero_iff.mpr hfield),
    dif_pos (unpackMantissa_eq_zero_iff.mpr hfraction), ofBitVec_unpackSign]

theorem unpack_of_fraction (hfield : fieldOf bits = 0) (hfraction : 0 < fractionOf bits) :
    UnpackedFloat.unpack Format.binary64 bits.toBitVec =
      .finite (signOf (negativeOf bits)) (fractionOf bits) (-1074) hfraction := by
  have htop : fieldOf bits ≠ 2047 := by omega
  unfold UnpackedFloat.unpack
  dsimp only
  rw [if_neg (mt unpackExponent_eq_top_iff.mp htop), if_pos (unpackExponent_eq_zero_iff.mpr hfield),
    dif_neg (mt unpackMantissa_eq_zero_iff.mp hfraction.ne'), finite.injEq]
  refine ⟨ofBitVec_unpackSign bits, toNat_unpackMantissa bits, ?_⟩
  rw [toNat_unpackExponent, hfield]
  rfl

theorem unpack_of_field (hfield : fieldOf bits ≠ 0) (htop : fieldOf bits ≠ 2047) :
    UnpackedFloat.unpack Format.binary64 bits.toBitVec =
      .finite (signOf (negativeOf bits)) (fractionOf bits + Nat.pow 2 52) (fieldOf bits - 1075)
        (Nat.add_pos_right _ (by decide)) := by
  unfold UnpackedFloat.unpack
  dsimp only
  rw [if_neg (mt unpackExponent_eq_top_iff.mp htop),
    if_neg (mt unpackExponent_eq_zero_iff.mp hfield), finite.injEq]
  refine ⟨ofBitVec_unpackSign bits, ?_, ?_⟩
  · refine (toNat_append_one _).trans ?_
    rw [toNat_unpackMantissa, Nat.add_comm]
    rfl
  · rw [toNat_unpackExponent]
    rfl

theorem isFinite_unpack_iff :
    (UnpackedFloat.unpack Format.binary64 bits.toBitVec).isFinite = true ↔ fieldOf bits ≠ 2047 := by
  constructor
  · intro h htop
    rw [isFinite_unpack_of_top htop] at h
    cases h
  · intro htop
    by_cases hfield : fieldOf bits = 0
    · rcases Nat.eq_zero_or_pos (fractionOf bits) with hnone | hsome
      · rw [unpack_of_zero hfield hnone]
        rfl
      · rw [unpack_of_fraction hfield hsome]
        rfl
    · rw [unpack_of_field hfield htop]
      rfl

end Bits

/-! ## Numbers from parts -/

theorem canonical_of_fraction {fraction : Nat} (hpos : 0 < fraction) (hlt : fraction < 2 ^ 52)
    (negative : Bool) : Exact.Canonical ⟨negative, fraction, -1074⟩ :=
  ⟨hpos, hlt.trans (by decide), le_rfl, by norm_num, fun h => absurd h (lt_irrefl _)⟩

theorem canonical_of_field {field fraction : Nat} (hzero : field ≠ 0) (htop : field < 2047)
    (hlt : fraction < 2 ^ 52) (negative : Bool) :
    Exact.Canonical ⟨negative, fraction + Nat.pow 2 52, field - 1075⟩ := by
  have hpow : Nat.pow 2 52 = 2 ^ 52 := rfl
  refine ⟨?_, ?_, ?_, ?_, fun _ => ?_⟩
  all_goals
    dsimp only
    omega

theorem ofFloat?_eq (x : Float) : Exact.ofFloat? x =
    if fieldOf x.toBits == 2047 then none
    else if fieldOf x.toBits == 0 then some ⟨negativeOf x.toBits, fractionOf x.toBits, -1074⟩
    else some ⟨negativeOf x.toBits, fractionOf x.toBits + Nat.pow 2 52,
      (fieldOf x.toBits : Int) - 1075⟩ :=
  rfl

/-- The parts of a finite number make up the number. -/
theorem ofFloat?_of_isFinite {x : Float} (h : x.isFinite = true) :
    ∃ e, Exact.ofFloat? x = some e ∧
      (e.mantissa = 0 ∧ x.toModel.unpack = .zero (signOf e.negative) ∨
        ∃ he : e.Canonical,
          x.toModel.unpack = .finite (signOf e.negative) e.mantissa e.exponent he.pos) := by
  have hmodel : x.toModel.unpack = UnpackedFloat.unpack Format.binary64 x.toBits.toBitVec := rfl
  have htop : fieldOf x.toBits ≠ 2047 := isFinite_unpack_iff.mp h
  have hfraction := fractionOf_lt x.toBits
  rw [ofFloat?_eq, if_neg (by simpa using htop), hmodel]
  by_cases hfield : fieldOf x.toBits = 0
  · rw [if_pos (by simpa using hfield)]
    refine ⟨_, rfl, ?_⟩
    rcases Nat.eq_zero_or_pos (fractionOf x.toBits) with hnone | hsome
    · exact .inl ⟨hnone, unpack_of_zero hfield hnone⟩
    · exact .inr ⟨canonical_of_fraction hsome hfraction _, unpack_of_fraction hfield hsome⟩
  · have hlt : fieldOf x.toBits < 2047 := by
      have hall := fieldOf_lt x.toBits
      omega
    rw [if_neg (by simpa using hfield)]
    exact ⟨_, rfl, .inr ⟨canonical_of_field hfield hlt hfraction _, unpack_of_field hfield htop⟩⟩

/-- An infinity, and what is no number, has no parts. -/
theorem ofFloat?_of_not_isFinite {x : Float} (h : x.isFinite = false) :
    Exact.ofFloat? x = none := by
  have htop : fieldOf x.toBits = 2047 := by
    by_contra htop
    have hfinite : x.isFinite = true := isFinite_unpack_iff.mpr htop
    rw [h] at hfinite
    cases hfinite
  rw [ofFloat?_eq, htop]
  rfl

end VoxelScout.Decimal
