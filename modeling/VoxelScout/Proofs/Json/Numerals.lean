import Mathlib.Data.List.TakeWhile
import VoxelScout.Wire.Payload

/-! # Integers in documents

The spelling of an integer is a number of the format, so a value whose only numbers are
integers can always be written.
-/

namespace VoxelScout.Json

/-! ## Decimal digits -/

theorem all_isDigit_toDigits (n : Nat) : ∀ c ∈ Nat.toDigits 10 n, isDigit c = true := by
  intro c hc
  exact Nat.isDigit_of_mem_toDigits (by decide) (by decide) hc

/-- Only zero is spelled with a zero in front. -/
theorem head_toDigits_ne_zero {n : Nat} (hn : 0 < n) :
    ∃ c rest, Nat.toDigits 10 n = c :: rest ∧ c ≠ '0' := by
  induction n using Nat.strongRecOn with
  | ind n ih =>
      by_cases hlt : n < 10
      · refine ⟨Nat.digitChar n, [], Nat.toDigits_of_lt_base hlt, ?_⟩
        intro hzero
        have : n = 0 := Nat.digitChar_eq_zero.mp hzero
        omega
      · obtain ⟨c, rest, hdigits, hc⟩ := ih (n / 10) (by omega) (by omega)
        refine ⟨c, rest ++ [Nat.digitChar (n % 10)], ?_, hc⟩
        rw [Nat.toDigits_of_base_le (by decide) (by omega), hdigits]
        rfl

/-! ## Scanning a spelling -/

theorem scanWhole_toDigits (n : Nat) :
    scanWhole (Nat.toDigits 10 n) = some (Nat.toDigits 10 n, []) := by
  rcases Nat.eq_zero_or_pos n with rfl | hn
  · rfl
  · have htake : (Nat.toDigits 10 n).takeWhile isDigit = Nat.toDigits 10 n :=
      List.takeWhile_eq_self_iff.mpr (all_isDigit_toDigits n)
    have hdrop : (Nat.toDigits 10 n).dropWhile isDigit = [] :=
      List.dropWhile_eq_nil_iff.mpr (all_isDigit_toDigits n)
    obtain ⟨c, rest, hdigits, hc⟩ := head_toDigits_ne_zero hn
    rw [hdigits] at htake hdrop ⊢
    unfold scanWhole
    split
    · next heq => exact absurd (List.cons.inj heq).1 hc
    · rw [htake, hdrop]

theorem scanNumber_neg_toDigits (n : Nat) :
    scanNumber ('-' :: Nat.toDigits 10 n) = some ('-' :: Nat.toDigits 10 n, []) := by
  simp [scanNumber, scanWhole_toDigits, scanFraction, scanExponent]

theorem scanNumber_toDigits (n : Nat) :
    scanNumber (Nat.toDigits 10 n) = some (Nat.toDigits 10 n, []) := by
  have hwhole := scanWhole_toDigits n
  have hdigit := all_isDigit_toDigits n
  cases hcs : Nat.toDigits 10 n with
  | nil => exact absurd hcs Nat.toDigits_ne_nil
  | cons c rest =>
      rw [hcs] at hwhole hdigit
      -- a minus sign is no digit, so the spelling is scanned as it stands
      have hminus : c ≠ '-' := by
        rintro rfl
        exact absurd (hdigit '-' List.mem_cons_self) (by decide)
      simp [scanNumber, hminus, hwhole, scanFraction, scanExponent]

theorem isNumber_digitString (n : Nat) : isNumber (Decimal.digitString n) = true := by
  simp [isNumber, Decimal.digitString, scanNumber_toDigits]

theorem isNumber_neg_digitString (n : Nat) :
    isNumber ("-" ++ Decimal.digitString n) = true := by
  simp [isNumber, Decimal.digitString, scanNumber_neg_toDigits]

/-! ## Values that can be written -/

/-- The token can be written: it is no number, or the spelling of one. -/
def Lexeme.proper : Lexeme → Bool
  | .number text => isNumber (String.ofList text)
  | _ => true

def Writable (value : Json) : Prop :=
  ∀ t ∈ value.lexemes, t.proper = true

theorem Writable.write?_eq {value : Json} (h : Writable value) :
    value.write? = some value.bytes := by
  have hall : value.lexemes.all Lexeme.proper = true := List.all_eq_true.mpr h
  unfold write?
  exact if_pos hall

theorem writable_string (text : String) : Writable (.string text) := by
  intro t ht
  rw [lexemes, List.mem_singleton] at ht
  rw [ht]
  rfl

theorem writable_int (i : Int) : Writable (int i) := by
  intro t ht
  rw [int, lexemes, List.mem_singleton] at ht
  rw [ht]
  simp only [Lexeme.proper, String.ofList_toList]
  split
  · exact isNumber_neg_digitString i.natAbs
  · exact isNumber_digitString i.natAbs

theorem proper_of_mem_memberLexemes {members : List (String × Json)}
    (h : ∀ m ∈ members, Writable m.2) {t : Lexeme} (ht : t ∈ memberLexemes members) :
    t.proper = true := by
  induction members with
  | nil => cases ht
  | cons m rest ih =>
      have hhead : Writable m.2 := h m List.mem_cons_self
      have hrest : t ∈ memberLexemes rest → t.proper = true :=
        ih fun other hother => h other (List.mem_cons_of_mem m hother)
      -- the last member is not followed by a comma, so it is a case of its own
      cases rest with
      | nil =>
          simp only [memberLexemes, List.mem_cons] at ht
          rcases ht with rfl | rfl | hvalue
          · rfl
          · rfl
          · exact hhead t hvalue
      | cons next more =>
          simp only [memberLexemes, List.mem_cons, List.mem_append] at ht
          rcases ht with rfl | rfl | hvalue | rfl | hmore
          · rfl
          · rfl
          · exact hhead t hvalue
          · rfl
          · exact hrest hmore

theorem writable_object {members : List (String × Json)} (h : ∀ m ∈ members, Writable m.2) :
    Writable (.object members) := by
  intro t ht
  simp only [lexemes, List.mem_cons, List.mem_append, List.not_mem_nil, or_false] at ht
  rcases ht with rfl | hmember | rfl
  · rfl
  · exact proper_of_mem_memberLexemes h hmember
  · rfl

end VoxelScout.Json

namespace VoxelScout.Wire

open Json

/-! ## Replies -/

theorem Pong.writable (p : Pong) : Writable p.toJson := by
  apply writable_object
  simp [writable_string, writable_int]

theorem Refusal.writable (r : Refusal) : Writable r.toJson := by
  apply writable_object
  intro m hm
  rcases List.mem_append.mp hm with hkind | hmessage
  · unfold memberIf at hkind
    split at hkind
    · rw [List.mem_singleton.mp hkind]
      exact writable_string r.kind
    · cases hkind
  · rw [List.mem_singleton.mp hmessage]
    exact writable_string r.message

theorem Message.ofPayload?_of_writable (p : Payload) (h : Writable p.toJson) (time : Int) :
    Message.ofPayload? p time = some ⟨p.kind, time, some p.toJson.bytes⟩ := by
  rw [Message.ofPayload?, h.write?_eq]
  rfl

end VoxelScout.Wire
