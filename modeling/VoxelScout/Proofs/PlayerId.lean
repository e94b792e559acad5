import Mathlib.Algebra.Group.Nat.Defs
import Mathlib.Data.List.Basic
import VoxelScout.PlayerId
import VoxelScout.Proofs.Json.Quoting

/-! # Player identifiers read back

The written form of an identifier is one of those that are read, and it is read as the
identifier.
-/

namespace VoxelScout.PlayerId

theorem length_hexDigits (width n : Nat) : (hexDigits width n).length = width := by
  induction width generalizing n with
  | zero => rfl
  | succ width ih => simp [hexDigits, ih]

theorem ofHexDigits?_append {acc n : Nat} {cs : List Char} (h : ofHexDigits? acc cs = some n)
    {d : Nat} (hd : d < 16) :
    ofHexDigits? acc (cs ++ [Text.hexDigit d]) = some (n * 16 + d) := by
  induction cs generalizing acc with
  | nil =>
      cases h
      simp [ofHexDigits?, Json.hexValue?_hexDigit hd]
  | cons c rest ih =>
      rw [ofHexDigits?] at h
      rw [List.cons_append, ofHexDigits?]
      split at h
      · exact ih h
      · cases h

theorem ofHexDigits?_hexDigits (width n : Nat) :
    ofHexDigits? 0 (hexDigits width n) = some (n % 16 ^ width) := by
  induction width generalizing n with
  | zero => simp [hexDigits, ofHexDigits?, Nat.mod_one]
  | succ width ih =>
      rw [hexDigits, ofHexDigits?_append (ih (n / 16)) (Nat.mod_lt n (by decide)), Nat.pow_succ,
        Nat.mul_comm (16 ^ width) 16, Nat.mod_mul]
      congr 1
      omega

theorem ofDigits?_hexDigits (id : PlayerId) : ofDigits? (hexDigits 32 id.bits.toNat) = some id := by
  have hlt : id.bits.toNat < 16 ^ 32 := id.bits.isLt
  rw [ofDigits?, length_hexDigits, ofHexDigits?_hexDigits, Nat.mod_eq_of_lt hlt]
  simp

/-! ## Dashes -/

theorem exists_groups {digits : List Char} (h : digits.length = 32) :
    ∃ a b c d e : List Char, digits = a ++ (b ++ (c ++ (d ++ e))) ∧ a.length = 8 ∧ b.length = 4 ∧
      c.length = 4 ∧ d.length = 4 ∧ e.length = 12 := by
  refine ⟨digits.take 8, (digits.drop 8).take 4, (digits.drop 12).take 4, (digits.drop 16).take 4,
    digits.drop 20, ?_, ?_⟩
  · have hsplit : ∀ m n, digits.drop m = (digits.drop m).take n ++ digits.drop (m + n) := by
      intro m n
      rw [← List.drop_drop, List.take_append_drop]
    rw [← hsplit 16 4, ← hsplit 12 4, ← hsplit 8 4, List.take_append_drop]
  · simp [h]

theorem ungroup?_group {digits : List Char} (h : digits.length = 32) :
    ungroup? (group digits) = some digits := by
  obtain ⟨a, b, c, d, e, rfl, ha, hb, hc, hd, he⟩ := exists_groups h
  have hgroup : group (a ++ (b ++ (c ++ (d ++ e)))) =
      a ++ '-' :: (b ++ '-' :: (c ++ '-' :: (d ++ '-' :: e))) := by
    simp [group, ha, hb, hc, hd, List.drop_append, List.drop_eq_nil_of_le]
  rw [hgroup]
  simp [ungroup?, ha, hb, hc, hd, he, List.drop_append, List.drop_eq_nil_of_le]

/-! ## The written form -/

theorem exists_of_mem_hexDigits {width n : Nat} {c : Char} (h : c ∈ hexDigits width n) :
    ∃ d < 16, c = Text.hexDigit d := by
  induction width generalizing n with
  | zero => cases h
  | succ width ih =>
      rw [hexDigits, List.mem_append, List.mem_singleton] at h
      rcases h with h | rfl
      · exact ih h
      · exact ⟨n % 16, Nat.mod_lt n (by decide), rfl⟩

theorem mem_hexDigits {width n : Nat} {c : Char} (h : c ∈ hexDigits width n) :
    c.toNat ≤ 127 := by
  obtain ⟨d, hd, rfl⟩ := exists_of_mem_hexDigits h
  have hdigit : ∀ d < 16, (Text.hexDigit d).toNat ≤ 127 := by decide
  exact hdigit d hd

theorem mem_group {digits : List Char} {c : Char} (h : c ∈ group digits) :
    c = '-' ∨ c ∈ digits := by
  simp only [group, List.mem_append, List.mem_cons] at h
  grind [List.mem_of_mem_take, List.mem_of_mem_drop]

theorem length_group {digits : List Char} (h : digits.length = 32) :
    (group digits).length = 36 := by
  simp [group, h]

theorem return_notMem_render (id : PlayerId) : '\r' ∉ id.render.toList := by
  rw [render, String.toList_ofList]
  intro h
  rcases mem_group h with heq | hmem
  · exact absurd heq (by decide)
  · obtain ⟨d, hd, heq⟩ := exists_of_mem_hexDigits hmem
    have hdigit : ∀ d < 16, Text.hexDigit d ≠ '\r' := by decide
    exact hdigit d hd heq.symm

/-- An identifier is read back from its written form. -/
theorem parse?_render (id : PlayerId) : parse? id.render = some id := by
  have hlength := length_hexDigits 32 id.bits.toNat
  have hascii : (group (hexDigits 32 id.bits.toNat)).any (fun c => 127 < c.toNat) = false := by
    rw [List.any_eq_false]
    intro c hc
    rcases mem_group hc with rfl | hc
    · decide
    · have hle := mem_hexDigits hc
      simpa using hle
  rw [parse?, render, String.toList_ofList]
  simp [hascii, length_group hlength, ofDashed?, ungroup?_group hlength, ofDigits?_hexDigits]

@[simp]
theorem decode_toJson (base id : PlayerId) : decode base id.toJson = some id :=
  parse?_render id

end VoxelScout.PlayerId
