import VoxelScout.Proofs.Csv.RoundTrip
import VoxelScout.Proofs.Decimal.Reading
import VoxelScout.Proofs.PlayerId
import VoxelScout.Trace.Row

/-! # Cells read back

Whole numbers, truth values and floating point numbers are read back from their cells, and so a row
is read back from its record.
-/

namespace VoxelScout.Trace

open Csv (fieldRead_eq_self)
open Json

/-! ## Cells -/

theorem isBlank_of_isDigit {c : Char} (h : isDigit c = true) : Text.isBlank c = false := by
  simp only [isDigit, Bool.and_eq_true, decide_eq_true_eq, Char.le_def, UInt32.le_iff_toNat_le] at h
  have hleast : 48 ≤ c.toNat := h.1
  have hmost : c.toNat ≤ 57 := h.2
  simp [Text.isBlank]
  omega

theorem trimChars_eq_self {cs : List Char} (h : ∀ c ∈ cs, Text.isBlank c = false) :
    Text.trimChars cs = cs := by
  have hdrop : ∀ ds : List Char, (∀ c ∈ ds, Text.isBlank c = false) →
      ds.dropWhile Text.isBlank = ds := by
    intro ds hds
    cases ds with
    | nil => rfl
    | cons d ds => exact List.dropWhile_cons_of_neg (by simp [hds d List.mem_cons_self])
  rw [Text.trimChars, hdrop cs h, hdrop cs.reverse fun c hc => h c (List.mem_reverse.mp hc),
    List.reverse_reverse]

theorem readCell?_eq {α : Type} (zero : α) (read : List Char → Option α) {cell : String}
    (hne : cell.toList ≠ []) (h : ∀ c ∈ cell.toList, Text.isBlank c = false) :
    readCell? zero read cell = read cell.toList := by
  obtain ⟨c, rest, htext⟩ := List.exists_cons_of_ne_nil hne
  rw [readCell?, trimChars_eq_self h, htext]

theorem readBool_boolCell (b : Bool) : readCell? false readBool? (boolCell b) = some b := by
  cases b <;> decide

theorem readCell?_digits {α : Type} (zero : α) (read : List Char → Option α) (n : Nat) :
    readCell? zero read (Decimal.digitString n) = read (Nat.toDigits 10 n) := by
  have htext : (Decimal.digitString n).toList = Nat.toDigits 10 n := String.toList_ofList
  rw [← htext]
  apply readCell?_eq
  · rw [htext]
    exact Nat.toDigits_ne_nil
  · rw [htext]
    exact fun c hc => isBlank_of_isDigit (all_isDigit_toDigits n c hc)

theorem readWord_digitString (w : UInt64) :
    readCell? 0 readWord? (Decimal.digitString w.toNat) = some w := by
  have hpoint := Decimal.not_contains_of_digits (all_isDigit_toDigits w.toNat) '.' (by decide)
  have hfits : Decimal.fitsWord w.toNat = true := decide_eq_true w.toNat_lt
  rw [readCell?_digits, readWord?, hpoint, Decimal.readNat?_toDigits, Option.filter_some, hfits]
  exact congrArg some UInt64.ofNat_toNat

theorem readInt_intCell {i : Int} (h : Decimal.fitsInt64 i = true) :
    readCell? 0 readInt? (intCell i) = some i := by
  have hdigits := all_isDigit_toDigits i.natAbs
  have hpoint : ∀ c ∈ Nat.toDigits 10 i.natAbs, (c != '.') = true := fun c hc =>
    bne_iff_ne.mpr (ne_of_isDigit (hdigits c hc) (by decide))
  unfold intCell Decimal.signed
  by_cases hnegative : i < 0
  · have hvalue : -(i.natAbs : Int) = i := by omega
    have htext : ("-" ++ Decimal.digitString i.natAbs).toList
        = '-' :: Nat.toDigits 10 i.natAbs := by simp [Decimal.digitString]
    rw [if_pos (decide_eq_true hnegative), readCell?_eq, htext, readInt?,
      List.takeWhile_cons_of_pos (by decide), List.takeWhile_eq_self_iff.mpr hpoint,
      Decimal.readInt?_neg_toDigits, hvalue, Option.filter_some, h]
    · rfl
    · rw [htext]
      exact List.cons_ne_nil _ _
    · rw [htext, List.forall_mem_cons]
      exact ⟨by decide, fun c hc => isBlank_of_isDigit (hdigits c hc)⟩
  · have hvalue : (i.natAbs : Int) = i := by omega
    rw [if_neg (by simpa using hnegative), readCell?_digits, readInt?,
      List.takeWhile_eq_self_iff.mpr hpoint, Decimal.readInt?_toDigits, hvalue, Option.filter_some,
      h]
    rfl

theorem readFloat_plain (x : Float) : readCell? 0 readFloat? (Decimal.plain x) = some x := by
  have hread := Decimal.readFloat?_plain x
  have hcomma : (Decimal.plain x).toList.map (fun c => if c == ',' then '.' else c)
      = (Decimal.plain x).toList := by
    refine (List.map_congr_left fun c hc => ?_).trans (List.map_id _)
    have hne : c ≠ ',' := by
      rintro rfl
      exact absurd (Decimal.mem_plain hc) (by decide)
    simp [hne]
  have hmarks : ['.', '+', '-', 'N', 'a', 'I', 'n', 'f'].all (fun c => !Text.isBlank c) = true := by
    decide
  rw [readCell?_eq, readFloat?, hcomma, hread]
  · intro hempty
    rw [hempty] at hread
    cases hread
  · intro c hc
    rcases Decimal.mem_plain hc with hdigit | hmark
    · exact isBlank_of_isDigit hdigit
    · simpa using List.all_eq_true.mp hmarks c hmark

/-! ## Rows -/

/-- A row as it is read back: the texts that come from players may hold line breaks. -/
def Row.softened (r : Row) : Row :=
  { r with name := Csv.fieldRead r.name, heldItem := Csv.fieldRead r.heldItem }

/-- The numbers fit their columns, and the texts of fixed shape hold no carriage return. -/
structure Row.Regular (r : Row) : Prop where
  time : Decimal.fitsInt64 r.time = true
  lastSeen : Decimal.fitsInt64 r.lastSeen = true
  playerId : '\r' ∉ r.playerId.toList
  visibility : '\r' ∉ r.visibility.toList
  health : '\r' ∉ r.health.toList
  crouching : '\r' ∉ r.crouching.toList

theorem header_columns : header.map column? = header.map some := by
  decide

theorem return_notMem_digitString (n : Nat) : '\r' ∉ (Decimal.digitString n).toList := by
  rw [Decimal.digitString, String.toList_ofList]
  exact fun hmem => absurd (all_isDigit_toDigits n '\r' hmem) (by decide)

theorem return_notMem_intCell (i : Int) : '\r' ∉ (intCell i).toList := by
  have hdigits := return_notMem_digitString i.natAbs
  unfold intCell Decimal.signed
  split
  · rw [String.toList_append, List.mem_append, not_or]
    exact ⟨by decide, hdigits⟩
  · exact hdigits

theorem return_notMem_plain (x : Float) : '\r' ∉ (Decimal.plain x).toList :=
  fun hmem => absurd (Decimal.mem_plain hmem) (by decide)

theorem fieldRead_boolCell (b : Bool) : Csv.fieldRead (boolCell b) = boolCell b := by
  cases b <;> rfl

theorem map_fieldRead_cells {r : Row} (h : r.Regular) :
    r.cells.map Csv.fieldRead = r.softened.cells := by
  simp only [Row.cells, Row.softened, List.map_cons, List.map_nil, fieldRead_boolCell,
    fieldRead_eq_self (return_notMem_digitString _), fieldRead_eq_self (return_notMem_intCell _),
    fieldRead_eq_self (return_notMem_plain _), fieldRead_eq_self h.playerId,
    fieldRead_eq_self h.visibility, fieldRead_eq_self h.health, fieldRead_eq_self h.crouching]

theorem readRow?_cells {r : Row} (htime : Decimal.fitsInt64 r.time = true)
    (hlastSeen : Decimal.fitsInt64 r.lastSeen = true) :
    readRow? (header.map column?) r.cells = some r := by
  rw [header_columns]
  simp only [readRow?, header, Row.cells, List.map_cons, List.map_nil, List.zip_cons_cons,
    List.zip_nil_left, List.foldlM_cons, List.foldlM_nil, Row.set?, readWord_digitString,
    readInt_intCell htime, readInt_intCell hlastSeen, readBool_boolCell, readFloat_plain,
    Option.map_some]
  rfl

end VoxelScout.Trace
