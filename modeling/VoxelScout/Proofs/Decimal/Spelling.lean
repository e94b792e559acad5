import VoxelScout.Decimal.Layout
import VoxelScout.Proofs.Decimal.Nearest
import VoxelScout.Proofs.Json.Fields
import VoxelScout.Proofs.Json.Scanning

/-! # The spelling of floating point numbers

A finite number is always spelled as a number of the format: its digits do not start with a
zero that does not belong there, and its fraction and exponent are never empty.
-/

namespace VoxelScout.Decimal

open Json

/-! ## Digits -/

theorem digits_toDigits (n : Nat) : Digits (Nat.toDigits 10 n) :=
  ⟨Nat.toDigits_ne_nil, all_isDigit_toDigits n⟩

theorem toList_zeros (k : Nat) : (zeros k).toList = List.replicate k '0' := by
  simp [zeros]

theorem digits_append {ds more : List Char} (h : Digits ds)
    (hmore : ∀ c ∈ more, Json.isDigit c = true) : Digits (ds ++ more) := by
  refine ⟨by simp [h.1], ?_⟩
  intro c hc
  rcases List.mem_append.mp hc with hc | hc
  · exact h.2 c hc
  · exact hmore c hc

theorem isDigit_of_mem_replicate {k : Nat} {c : Char} (h : c ∈ List.replicate k '0') :
    Json.isDigit c = true := by
  rw [List.eq_of_mem_replicate h]
  rfl

theorem digits_zeros_append (k : Nat) {ds : List Char} (h : Digits ds) :
    Digits (List.replicate k '0' ++ ds) := by
  refine ⟨by simp [h.1], ?_⟩
  intro c hc
  rcases List.mem_append.mp hc with hc | hc
  · exact isDigit_of_mem_replicate hc
  · exact h.2 c hc

/-- Digits of a number that is not zero, or some of the first of them. -/
theorem isWhole_take_toDigits {n count : Nat} (hn : n ≠ 0) (hcount : 0 < count) :
    IsWhole ((Nat.toDigits 10 n).take count) := by
  obtain ⟨c, rest, hdigits, hc⟩ := head_toDigits_ne_zero (Nat.pos_of_ne_zero hn)
  obtain ⟨count, rfl⟩ : ∃ k, count = k + 1 := ⟨count - 1, by omega⟩
  refine .inr ⟨⟨by simp [hdigits], ?_⟩, ?_⟩
  · intro d hd
    exact all_isDigit_toDigits n d (List.mem_of_mem_take hd)
  · simpa [hdigits] using hc

theorem isFraction_drop_toDigits {n count : Nat} (hcount : count < (Nat.toDigits 10 n).length) :
    IsFraction ('.' :: (Nat.toDigits 10 n).drop count) := by
  refine .inr ⟨_, rfl, ?_, ?_⟩
  · rw [Ne, List.drop_eq_nil_iff]
    omega
  · intro d hd
    exact all_isDigit_toDigits n d (List.mem_of_mem_drop hd)

/-! ## Layouts -/

theorem positional_eq {s : Scientific} (h : s = ⟨0, 0⟩ ∨ s.coefficient ≠ 0) :
    ∃ whole fraction, (positional s).toList = whole ++ fraction ∧ IsWhole whole ∧
      IsFraction fraction := by
  rcases h with rfl | hne
  · exact ⟨['0'], [], by decide, .inl rfl, .inl rfl⟩
  · obtain ⟨n, exponent⟩ := s
    unfold positional
    cases exponent with
    | ofNat k =>
        refine ⟨Nat.toDigits 10 n ++ List.replicate k '0', [], by simp [toList_zeros], ?_,
          .inl rfl⟩
        obtain ⟨c, rest, hdigits, hc⟩ := head_toDigits_ne_zero (Nat.pos_of_ne_zero hne)
        exact .inr ⟨digits_append (digits_toDigits n) fun _ => isDigit_of_mem_replicate,
          by simpa [hdigits] using hc⟩
    | negSucc k =>
        dsimp only
        split
        · next hlt =>
          exact ⟨_, _, by simp; rfl, isWhole_take_toDigits hne (by omega),
            isFraction_drop_toDigits (by omega)⟩
        · refine ⟨['0'], '.' :: (List.replicate (k + 1 - (Nat.toDigits 10 n).length) '0'
              ++ Nat.toDigits 10 n), by simp [toList_zeros], .inl rfl, .inr ⟨_, rfl, ?_⟩⟩
          exact digits_zeros_append _ (digits_toDigits n)

/-- An exponent with its mark, its sign and `pad` zeros in front. -/
def marked (leading : Int) (pad : Nat) : List Char :=
  'e' :: ((if leading < 0 then "-" else "+").toList
    ++ (List.replicate pad '0' ++ Nat.toDigits 10 leading.natAbs))

theorem isExponent_marked (leading : Int) (pad : Nat) : IsExponent (marked leading pad) := by
  refine .inr ⟨'e', _, _, rfl, .inl rfl, ?_, digits_zeros_append pad (digits_toDigits _)⟩
  split <;> simp

theorem toList_withExponent (width : Nat) (s : Scientific) :
    ∃ pad, (withExponent width s).toList =
      (if (Nat.toDigits 10 s.coefficient).length ≤ 1 then Nat.toDigits 10 s.coefficient
        else (Nat.toDigits 10 s.coefficient).take 1
          ++ '.' :: (Nat.toDigits 10 s.coefficient).drop 1)
      ++ marked (s.exponent + (Nat.toDigits 10 s.coefficient).length - 1) pad := by
  refine ⟨width - (digitString (s.exponent + (Nat.toDigits 10 s.coefficient).length
    - 1).natAbs).length, ?_⟩
  unfold withExponent
  by_cases hone : (Nat.toDigits 10 s.coefficient).length ≤ 1
  · simp [hone, marked, toList_zeros, digitString]
  · simp [hone, marked, toList_zeros, digitString]

theorem withExponent_eq {s : Scientific} (h : s.coefficient ≠ 0) (width : Nat) :
    ∃ whole fraction exponent, (withExponent width s).toList = whole ++ fraction ++ exponent ∧
      IsWhole whole ∧ IsFraction fraction ∧ IsExponent exponent := by
  have hfirst : IsWhole ((Nat.toDigits 10 s.coefficient).take 1) :=
    isWhole_take_toDigits h Nat.one_pos
  obtain ⟨pad, htext⟩ := toList_withExponent width s
  split at htext
  · next hone =>
    rw [List.take_of_length_le hone] at hfirst
    exact ⟨_, [], _, by rw [htext, List.append_nil], hfirst, .inl rfl, isExponent_marked _ pad⟩
  · next hmany =>
    exact ⟨_, _, _, htext, hfirst, isFraction_drop_toDigits (by omega), isExponent_marked _ pad⟩

theorem numeral_signed {text : String} {whole fraction exponent : List Char}
    (htext : text.toList = whole ++ fraction ++ exponent) (hwhole : IsWhole whole)
    (hfraction : IsFraction fraction) (hexponent : IsExponent exponent) (negative : Bool) :
    Numeral (signed negative text).toList := by
  cases negative with
  | false => exact ⟨[], whole, fraction, exponent, by simp [signed, htext], .inl rfl, hwhole,
      hfraction, hexponent⟩
  | true => exact ⟨['-'], whole, fraction, exponent, by simp [signed, htext], .inr rfl, hwhole,
      hfraction, hexponent⟩

/-! ## Numbers -/

theorem shortest_cases {e : Exact} (h : e.mantissa = 0 ∨ e.Canonical) :
    shortest e = ⟨0, 0⟩ ∨ (shortest e).coefficient ≠ 0 := by
  rcases h with hzero | hcanonical
  · exact .inl (shortest_of_zero hzero)
  · right
    intro hcoefficient
    have hpos := (near_shortest hcanonical).pos hcanonical.pos
    simp [Scientific.value, hcoefficient] at hpos

/-- A finite number is spelled as a number of the format. -/
theorem numeral_number {x : Float} (h : x.isFinite = true) : Numeral (number x).toList := by
  obtain ⟨e, hparts, hcases⟩ := ofFloat?_of_isFinite h
  have hshortest : shortest e = ⟨0, 0⟩ ∨ (shortest e).coefficient ≠ 0 := by
    apply shortest_cases
    rcases hcases with ⟨hzero, -⟩ | ⟨hcanonical, -⟩
    · exact .inl hzero
    · exact .inr hcanonical
  unfold number
  rw [hparts]
  dsimp only
  split
  · obtain ⟨whole, fraction, htext, hwhole, hfraction⟩ := positional_eq hshortest
    exact numeral_signed (by rw [htext, List.append_nil]) hwhole hfraction (.inl rfl) _
  · next hlarge =>
    have hne : (shortest e).coefficient ≠ 0 := by
      intro hzero
      simp [hzero] at hlarge
    obtain ⟨whole, fraction, exponent, htext, hwhole, hfraction, hexponent⟩ :=
      withExponent_eq hne 1
    exact numeral_signed htext hwhole hfraction hexponent _

end VoxelScout.Decimal
