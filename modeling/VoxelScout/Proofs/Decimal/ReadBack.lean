import VoxelScout.Json.Decode
import VoxelScout.Proofs.Decimal.Spelling

/-! # Numbers read back

The layout of a decimal gives back its digits and its exponent, and so the spelling of a finite
number is read as the number.
-/

namespace VoxelScout.Decimal

open Json

/-! ## Digits -/

theorem digitsToNat_zeros_append (k : Nat) (cs : List Char) :
    digitsToNat (List.replicate k '0' ++ cs) = digitsToNat cs := by
  induction k with
  | zero => rfl
  | succ k ih =>
      rw [List.replicate_succ, List.cons_append]
      exact ih

theorem digitsToNat_append_zeros (cs : List Char) (k : Nat) :
    digitsToNat (cs ++ List.replicate k '0') = digitsToNat cs * 10 ^ k := by
  induction k with
  | zero => simp
  | succ k ih =>
      have hzero := digitsToNat_concat (cs ++ List.replicate k '0') (d := 0) (by decide)
      rw [List.replicate_succ', ← List.append_assoc, pow_succ, ← mul_assoc, ← ih]
      exact hzero

theorem digits_take {ds : List Char} (h : Digits ds) {count : Nat} (hcount : 0 < count) :
    Digits (ds.take count) := by
  refine ⟨?_, fun c hc => h.2 c (List.mem_of_mem_take hc)⟩
  rw [Ne, List.take_eq_nil_iff]
  rintro (hzero | hnil)
  · omega
  · exact h.1 hnil

/-! ## Layouts -/

theorem readExponent?_marked (exponent : Int) (pad : Nat) :
    ∃ rest, marked exponent pad = 'e' :: rest ∧ readExponent? rest = some exponent := by
  refine ⟨_, rfl, ?_⟩
  obtain ⟨hne, hdigits⟩ := digits_zeros_append pad (digits_toDigits exponent.natAbs)
  have hvalue : digitsToNat (List.replicate pad '0' ++ Nat.toDigits 10 exponent.natAbs)
      = exponent.natAbs := by
    rw [digitsToNat_zeros_append, digitsToNat_toDigits]
  generalize List.replicate pad '0' ++ Nat.toDigits 10 exponent.natAbs = ds at *
  cases ds with
  | nil => exact absurd rfl hne
  | cons d ds =>
      have hd : isDigit d = true := hdigits d List.mem_cons_self
      have hall : (d :: ds).all (fun c => isDigit c || c == '_') = true := by
        rw [List.all_eq_true]
        intro c hc
        rw [show isDigit c = true from hdigits c hc]
        rfl
      by_cases hnegative : exponent < 0
      · rw [if_pos hnegative]
        change (if isDigit d && (d :: ds).all (fun c => isDigit c || c == '_')
          then some (-(digitsToNat (d :: ds) : Int)) else none) = _
        rw [hd, hall, hvalue]
        exact congrArg some (by omega)
      · rw [if_neg hnegative]
        change (if isDigit d && (d :: ds).all (fun c => isDigit c || c == '_')
          then some (digitsToNat (d :: ds) : Int) else none) = _
        rw [hd, hall, hvalue]
        exact congrArg some (by omega)

def Tail (rest : List Char) (exponent : Int) : Prop :=
  rest = [] ∧ exponent = 0 ∨ ∃ pad, rest = marked exponent pad

theorem takeWhile_digits {ds : List Char} (hds : ∀ c ∈ ds, isDigit c = true) (rest : List Char)
    (hrest : ∀ c ∈ rest.head?, (isDigit c || c == '_') = false) :
    (ds ++ rest).takeWhile (fun c => isDigit c || c == '_') = ds ∧
      (ds ++ rest).dropWhile (fun c => isDigit c || c == '_') = rest := by
  have hall : ∀ c ∈ ds, (isDigit c || c == '_') = true := by
    intro c hc
    rw [hds c hc]
    rfl
  rw [List.takeWhile_append_of_pos hall, List.dropWhile_append_of_pos hall]
  cases rest with
  | nil => simp
  | cons c rest =>
      have hc := hrest c rfl
      rw [List.takeWhile_cons_of_neg (by simpa using hc),
        List.dropWhile_cons_of_neg (by simpa using hc), List.append_nil]
      exact ⟨rfl, rfl⟩

theorem readDecimal?_of_split {cs whole fraction rest : List Char} {exponent : Int}
    (hsplit : splitFraction (fun c => isDigit c || c == '_') cs = (whole, fraction, rest))
    (hwhole : Digits whole) (hfraction : ∀ c ∈ fraction, isDigit c = true)
    (hrest : Tail rest exponent) (negative : Bool) :
    readDecimal? negative cs
      = nearest? negative (digitsToNat (whole ++ fraction)) (exponent - fraction.length) := by
  have hany : (whole ++ fraction).any isDigit = true := by
    obtain ⟨c, hc⟩ := List.exists_mem_of_ne_nil whole hwhole.1
    exact List.any_eq_true.mpr ⟨c, List.mem_append_left _ hc, hwhole.2 c hc⟩
  have hfilter : fraction.filter isDigit = fraction := List.filter_eq_self.mpr hfraction
  unfold readDecimal?
  rw [hsplit]
  dsimp only
  rw [hany, hfilter]
  rcases hrest with ⟨rfl, rfl⟩ | ⟨pad, rfl⟩
  · rw [zero_sub]
    rfl
  · obtain ⟨text, hmarked, hread⟩ := readExponent?_marked exponent pad
    rw [hmarked]
    simp only [hread]
    rfl

theorem head_of_tail {rest : List Char} {exponent : Int} (h : Tail rest exponent) :
    ∀ c ∈ rest.head?, c = 'e' := by
  rcases h with ⟨rfl, -⟩ | ⟨pad, rfl⟩
  · simp
  · intro c hc
    exact (Option.some.inj hc).symm

/-- Digits without a point. -/
theorem readDecimal?_whole {whole rest : List Char} {exponent : Int} (hwhole : Digits whole)
    (hrest : Tail rest exponent) (negative : Bool) :
    readDecimal? negative (whole ++ rest) = nearest? negative (digitsToNat whole) exponent := by
  have hhead := head_of_tail hrest
  obtain ⟨htake, hdrop⟩ := takeWhile_digits hwhole.2 rest fun c hc => by
    rw [hhead c hc]
    rfl
  have hsplit : splitFraction (fun c => isDigit c || c == '_') (whole ++ rest)
      = (whole, [], rest) := by
    unfold splitFraction
    rw [htake, hdrop]
    cases rest with
    | nil => rfl
    | cons c rest =>
        obtain rfl := hhead c rfl
        rfl
  rw [readDecimal?_of_split hsplit hwhole (by simp) hrest]
  simp

/-- Digits with a point. -/
theorem readDecimal?_point {whole fraction rest : List Char} {exponent : Int}
    (hwhole : Digits whole) (hfraction : ∀ c ∈ fraction, isDigit c = true)
    (hrest : Tail rest exponent) (negative : Bool) :
    readDecimal? negative (whole ++ '.' :: (fraction ++ rest))
      = nearest? negative (digitsToNat (whole ++ fraction)) (exponent - fraction.length) := by
  have hhead := head_of_tail hrest
  obtain ⟨htake, hdrop⟩ := takeWhile_digits hwhole.2 ('.' :: (fraction ++ rest)) fun c hc => by
    rw [← Option.some.inj hc]
    rfl
  obtain ⟨htake', hdrop'⟩ := takeWhile_digits hfraction rest fun c hc => by
    rw [hhead c hc]
    rfl
  apply readDecimal?_of_split _ hwhole hfraction hrest
  unfold splitFraction
  rw [htake, hdrop]
  simp only [htake', hdrop']

theorem readDecimal?_positional (s : Scientific) (negative : Bool) :
    ∃ c k, readDecimal? negative (positional s).toList = nearest? negative c k ∧
      (c : ℚ) * 10 ^ k = s.value := by
  obtain ⟨n, exponent⟩ := s
  have hdigits := digits_toDigits n
  have hvalue := digitsToNat_toDigits n
  unfold positional
  generalize Nat.toDigits 10 n = ds at *
  cases exponent with
  | ofNat k =>
      refine ⟨n * 10 ^ k, 0, ?_, by simp [Scientific.value]⟩
      have htext : (String.ofList ds ++ zeros k).toList = ds ++ List.replicate k '0' ++ [] := by
        simp [toList_zeros]
      dsimp only
      rw [htext, readDecimal?_whole (digits_append hdigits fun _ => isDigit_of_mem_replicate)
        (.inl ⟨rfl, rfl⟩), digitsToNat_append_zeros, hvalue]
  | negSucc k =>
      refine ⟨n, .negSucc k, ?_, rfl⟩
      dsimp only
      split
      · next hlt =>
        have htext : (String.ofList (ds.take (ds.length - (k + 1))) ++ "."
            ++ String.ofList (ds.drop (ds.length - (k + 1)))).toList
            = ds.take (ds.length - (k + 1)) ++ '.' :: (ds.drop (ds.length - (k + 1)) ++ []) := by
          simp
        have hexponent : (0 : Int) - (ds.length - (ds.length - (k + 1)) : Nat) = .negSucc k := by
          omega
        rw [htext, readDecimal?_point (digits_take hdigits (by omega))
          (fun c hc => hdigits.2 c (List.mem_of_mem_drop hc)) (.inl ⟨rfl, rfl⟩),
          List.take_append_drop, hvalue, List.length_drop, hexponent]
      · next hge =>
        have htext : ("0." ++ zeros (k + 1 - ds.length) ++ String.ofList ds).toList
            = ['0'] ++ '.' :: (List.replicate (k + 1 - ds.length) '0' ++ ds ++ []) := by
          simp [toList_zeros]
        have hfraction := (digits_zeros_append (k + 1 - ds.length) hdigits).2
        have hcoefficient : digitsToNat (['0'] ++ (List.replicate (k + 1 - ds.length) '0' ++ ds))
            = n := by
          rw [← hvalue, ← digitsToNat_zeros_append (k + 1 - ds.length) ds]
          exact digitsToNat_zeros_append 1 _
        have hzero : Digits ['0'] := ⟨by simp, fun c hc => isDigit_of_mem_replicate (k := 1) hc⟩
        have hexponent : (0 : Int) - (k + 1 - ds.length + ds.length : Nat) = .negSucc k := by
          omega
        rw [htext, readDecimal?_point hzero hfraction (.inl ⟨rfl, rfl⟩), hcoefficient,
          List.length_append, List.length_replicate, hexponent]

theorem readDecimal?_withExponent (width : Nat) (s : Scientific) (negative : Bool) :
    readDecimal? negative (withExponent width s).toList
      = nearest? negative s.coefficient s.exponent := by
  obtain ⟨pad, htext⟩ := toList_withExponent width s
  have hdigits := digits_toDigits s.coefficient
  have hvalue := digitsToNat_toDigits s.coefficient
  rw [htext]
  generalize Nat.toDigits 10 s.coefficient = ds at *
  have hpos := List.length_pos_of_ne_nil hdigits.1
  split
  · next hone =>
    have hexponent : s.exponent + (ds.length : Int) - 1 = s.exponent := by omega
    rw [readDecimal?_whole hdigits (.inr ⟨pad, rfl⟩), hvalue, hexponent]
  · have hexponent : s.exponent + (ds.length : Int) - 1 - (ds.length - 1 : Nat) = s.exponent := by
      omega
    rw [List.append_assoc, List.cons_append,
      readDecimal?_point (digits_take hdigits Nat.one_pos)
        (fun c hc => hdigits.2 c (List.mem_of_mem_drop hc)) (.inr ⟨pad, rfl⟩),
      List.take_append_drop, hvalue, List.length_drop, hexponent]

/-! ## Numbers -/

theorem literalFloat?_signed {text : String} {whole tail : List Char}
    (htext : text.toList = whole ++ tail) (hwhole : IsWhole whole) (negative : Bool) :
    literalFloat? (signed negative text) = readDecimal? negative text.toList := by
  have hminus : ∀ rest, text.toList ≠ '-' :: rest := by
    intro rest heq
    rw [htext] at heq
    rcases hwhole with rfl | ⟨⟨hne, hdigits⟩, -⟩
    · simp at heq
    · obtain ⟨c, cs, rfl⟩ := List.exists_cons_of_ne_nil hne
      obtain rfl : c = '-' := (List.cons.inj heq).1
      exact absurd (hdigits '-' List.mem_cons_self) (by decide)
  cases negative with
  | true => simp [literalFloat?, signed]
  | false =>
      change literalFloat? text = _
      unfold literalFloat?
      split
      · next rest heq => exact absurd heq (hminus rest)
      · rfl

/-- The spelling of a finite number is read as the number. -/
theorem literalFloat?_number {x : Float} (h : x.isFinite = true) :
    literalFloat? (number x) = some x := by
  obtain ⟨e, hparts, ⟨hzero, hunpack⟩ | ⟨hcanonical, hunpack⟩⟩ := ofFloat?_of_isFinite h
  · have hx : x = .ofModel (.pack (.zero (signOf e.negative))) := by
      rw [← hunpack, ofModel_pack_unpack]
    unfold number
    rw [hparts]
    dsimp only
    rw [shortest_of_zero hzero, hx]
    cases e.negative <;> decide
  · have hx : x = e.toFloat hcanonical.pos (signOf e.negative) := by
      rw [Exact.toFloat, ← hunpack, ofModel_pack_unpack]
    have hnear := near_shortest hcanonical
    have hcases := shortest_cases (.inr hcanonical)
    unfold number
    rw [hparts]
    dsimp only
    split
    · obtain ⟨whole, fraction, htext, hwhole, -⟩ := positional_eq hcases
      obtain ⟨c, k, hread, hvalue⟩ := readDecimal?_positional (shortest e) e.negative
      rw [← hvalue] at hnear
      rw [literalFloat?_signed htext hwhole, hread, nearest?_of_near hcanonical hnear, ← hx]
    · next hlarge =>
      have hne : (shortest e).coefficient ≠ 0 := by
        intro hzero
        simp [hzero] at hlarge
      obtain ⟨whole, fraction, exponent, htext, hwhole, -, -⟩ := withExponent_eq hne 1
      rw [List.append_assoc] at htext
      rw [literalFloat?_signed htext hwhole, readDecimal?_withExponent,
        nearest?_of_near hcanonical hnear, ← hx]

end VoxelScout.Decimal
