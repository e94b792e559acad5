import Mathlib.Data.List.Nodup
import VoxelScout.Proofs.Json.Numerals

/-! # Fields read back

A whole number is read back from its digits, and a field from an object whose keys differ
in more than case: it is read from its own member, if that is there, and otherwise it stays
as it was.
-/

namespace VoxelScout.Json

/-! ## Whole numbers -/

theorem digitsToNat_concat (cs : List Char) {d : Nat} (hd : d < 10) :
    Decimal.digitsToNat (cs ++ [Nat.digitChar d]) = Decimal.digitsToNat cs * 10 + d := by
  have hdigit : ∀ d < 10, Decimal.isDigit (Nat.digitChar d) = true ∧
      (Nat.digitChar d).toNat - 48 = d := by decide
  obtain ⟨his, hvalue⟩ := hdigit d hd
  simp [Decimal.digitsToNat, his, hvalue]

theorem digitsToNat_toDigits (n : Nat) : Decimal.digitsToNat (Nat.toDigits 10 n) = n := by
  induction n using Nat.strongRecOn with
  | ind n ih =>
      by_cases hlt : n < 10
      · have hone := digitsToNat_concat [] hlt
        rw [Nat.toDigits_of_lt_base hlt]
        simpa [Decimal.digitsToNat] using hone
      · rw [Nat.toDigits_of_base_le (by decide) (by omega), digitsToNat_concat _ (by omega),
          ih (n / 10) (by omega)]
        omega

theorem literalInt?_digitString (n : Nat) :
    literalInt? (Decimal.digitString n) = some (n : Int) := by
  have hall : (Nat.toDigits 10 n).all isDigit = true :=
    List.all_eq_true.mpr (all_isDigit_toDigits n)
  rw [literalInt?, Decimal.digitString, String.toList_ofList]
  split
  · next rest heq =>
    exact absurd (all_isDigit_toDigits n '-' (by rw [heq]; exact List.mem_cons_self)) (by decide)
  · rw [if_pos hall, digitsToNat_toDigits]

theorem literalInt?_neg_digitString (n : Nat) :
    literalInt? ("-" ++ Decimal.digitString n) = some (-(n : Int)) := by
  have hall : (Nat.toDigits 10 n).all isDigit = true :=
    List.all_eq_true.mpr (all_isDigit_toDigits n)
  have hlist : ("-" ++ Decimal.digitString n).toList = '-' :: Nat.toDigits 10 n := by
    simp [Decimal.digitString]
  simp only [literalInt?, hlist]
  rw [if_pos hall, digitsToNat_toDigits]

@[simp]
theorem asInt_int {i : Int} (h : Decimal.fitsInt64 i = true) (base : Int) :
    asInt base (.int i) = some i := by
  have hliteral : literalInt? (if i < 0 then "-" ++ Decimal.digitString i.natAbs
      else Decimal.digitString i.natAbs) = some i := by
    split
    · rw [literalInt?_neg_digitString]
      congr 1
      omega
    · rw [literalInt?_digitString]
      congr 1
      omega
  simp [asInt, int, hliteral, h]

theorem fitsInt64_of_asInt {base i : Int} {v : Json} (hbase : Decimal.fitsInt64 base = true)
    (h : asInt base v = some i) : Decimal.fitsInt64 i = true := by
  cases v with
  | null =>
      cases h
      exact hbase
  | number literal =>
      rw [asInt, Option.filter_eq_some_iff] at h
      exact h.2
  | _ => cases h

@[simp]
theorem asByte_nat (b base : UInt8) : asByte base (.nat b.toNat) = some b := by
  have hall : (Nat.toDigits 10 b.toNat).all isDigit = true :=
    List.all_eq_true.mpr (all_isDigit_toDigits b.toNat)
  have hlt : b.toNat < 256 := b.toNat_lt
  simp [asByte, nat, Decimal.digitString, hall, digitsToNat_toDigits, hlt]

/-! ## Members and fields -/

/-- What a property of the field holds at first and every member keeps, it holds at last. -/
theorem field_invariant {α : Type} {P : α → Prop} {read : Decoder α}
    (hread : ∀ base v a, P base → read base v = some a → P a)
    {members : List (String × Json)} {name : String} {base a : α} (hbase : P base)
    (h : field members name read base = some a) : P a := by
  unfold field at h
  generalize members.filter (fun m => Text.sameFold m.1 name) = named at h
  induction named generalizing base with
  | nil =>
      cases h
      exact hbase
  | cons m rest ih =>
      rw [List.foldlM_cons, Option.bind_eq_bind, Option.bind_eq_some_iff] at h
      obtain ⟨next, hnext, hrest⟩ := h
      exact ih (hread base m.2 next hbase hnext) hrest

theorem field_cons_of_same {α : Type} {key name : String} (h : Text.sameFold key name = true)
    (value : Json) (rest : List (String × Json)) (read : Decoder α) (base : α) :
    field ((key, value) :: rest) name read base =
      (read base value).bind (field rest name read) := by
  have hfilter : ((key, value) :: rest).filter (fun m => Text.sameFold m.1 name) =
      (key, value) :: rest.filter fun m => Text.sameFold m.1 name :=
    List.filter_cons_of_pos h
  rw [field, hfilter]
  rfl

theorem field_cons_of_not {α : Type} {key name : String} (h : Text.sameFold key name = false)
    (value : Json) (rest : List (String × Json)) (read : Decoder α) (base : α) :
    field ((key, value) :: rest) name read base = field rest name read base := by
  simp [field, h]

/-- A name up to case. -/
def foldName (name : String) : List Char :=
  name.toList.map Text.foldChar

theorem sameFold_iff {s t : String} : Text.sameFold s t = true ↔ foldName s = foldName t :=
  beq_iff_eq

def present (fields : List (String × Option Json)) : List (String × Json) :=
  fields.filterMap fun f => f.2.map (f.1, ·)

theorem field_present_of_not_mem {α : Type} {fields : List (String × Option Json)} {name : String}
    (h : foldName name ∉ fields.map fun f => foldName f.1) (read : Decoder α) (base : α) :
    field (present fields) name read base = some base := by
  have hnone : (present fields).filter (fun m => Text.sameFold m.1 name) = [] := by
    rw [List.filter_eq_nil_iff]
    intro m hm hsame
    obtain ⟨f, hf, hmember⟩ := List.mem_filterMap.mp hm
    obtain ⟨v, -, rfl⟩ := Option.map_eq_some_iff.mp hmember
    exact h (List.mem_map.mpr ⟨f, hf, sameFold_iff.mp hsame⟩)
  rw [field, hnone]
  rfl

/-- A field is read from its own member, if that is there. -/
theorem field_present {α : Type} {fields : List (String × Option Json)}
    (hkeys : (fields.map fun f => foldName f.1).Nodup) {name : String} {value : Option Json}
    (hmem : (name, value) ∈ fields) (read : Decoder α) (base : α) :
    field (present fields) name read base = value.elim (some base) (read base) := by
  induction fields with
  | nil => cases hmem
  | cons f rest ih =>
      obtain ⟨key, own⟩ := f
      rw [List.map_cons, List.nodup_cons] at hkeys
      rcases List.mem_cons.mp hmem with heq | hrest
      · cases heq
        have hothers := fun a => field_present_of_not_mem hkeys.1 read a
        cases value with
        | none => exact hothers base
        | some v =>
            have hcons : present ((name, some v) :: rest) = (name, v) :: present rest := rfl
            rw [hcons, field_cons_of_same (sameFold_iff.mpr rfl), funext hothers]
            exact Option.bind_fun_some _
      · have hother : Text.sameFold key name = false := by
          rw [Bool.eq_false_iff, Ne, sameFold_iff]
          intro hsame
          exact hkeys.1 (List.mem_map.mpr ⟨_, hrest, hsame.symm⟩)
        cases own with
        | none => exact ih hkeys.2 hrest
        | some v =>
            have hcons : present ((key, some v) :: rest) = (key, v) :: present rest := rfl
            rw [hcons, field_cons_of_not hother]
            exact ih hkeys.2 hrest

/-- Fields of an object, some of them left out, whose names differ in more than case. -/
structure Sheet where
  fields : List (String × Option Json)
  distinct : (fields.map fun f => foldName f.1).Nodup := by
    simp only [List.map_cons, List.map_nil]
    decide

namespace Sheet

def toJson (s : Sheet) : Json :=
  .object (present s.fields)

theorem field_at {α : Type} (s : Sheet) (i : Nat) {name : String} {value : Option Json}
    (h : s.fields[i]? = some (name, value)) (read : Decoder α) (base : α) :
    field (present s.fields) name read base = value.elim (some base) (read base) :=
  field_present s.distinct (List.mem_of_getElem? h) read base

end Sheet

@[simp]
theorem present_nil : present [] = [] :=
  rfl

@[simp]
theorem present_some (name : String) (v : Json) (rest : List (String × Option Json)) :
    present ((name, some v) :: rest) = (name, v) :: present rest :=
  rfl

@[simp]
theorem present_optional {α : Type} (name : String) (f : α → Json) (o : Option α)
    (rest : List (String × Option Json)) :
    present ((name, o.map f) :: rest) = optionalMember name f o ++ present rest := by
  cases o <;> rfl

@[simp]
theorem present_if (name : String) (keep : Bool) (v : Json) (rest : List (String × Option Json)) :
    present ((name, if keep then some v else none) :: rest) =
      memberIf keep name v ++ present rest := by
  cases keep <;> rfl

/-! ## Lists -/

theorem readSlots_map {α β : Type} {read : Decoder β} {fresh : β} {f : α → Json} {g : α → β}
    {items : List α} (h : ∀ a ∈ items, read fresh (f a) = some (g a)) :
    readSlots read fresh [] (items.map f) = some (items.map g, []) := by
  induction items with
  | nil => rfl
  | cons a rest ih =>
      have hrest := ih fun b hb => h b (List.mem_cons_of_mem a hb)
      simp [readSlots, h a List.mem_cons_self, hrest]

theorem slots_array {α β : Type} {read : Decoder β} {fresh : β} {f : α → Json} {g : α → β}
    {items : List α} (h : ∀ a ∈ items, read fresh (f a) = some (g a)) {base : Slots β}
    (hitems : base.items.getD [] = []) (hspare : base.spare = []) :
    slots read fresh base (.array (items.map f)) = some ⟨some (items.map g), []⟩ := by
  cases items with
  | nil => rfl
  | cons a rest =>
      have hread := readSlots_map h
      rw [List.map_cons] at hread
      simp [slots, hitems, hspare, hread]

end VoxelScout.Json
