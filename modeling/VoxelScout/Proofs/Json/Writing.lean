import VoxelScout.Proofs.Snapshot.Codec

/-! # What can be written

A document can be written if and only if all its parts can, and a floating point number if and
only if it is finite.
-/

namespace VoxelScout.Json

theorem isSome_write?_iff {v : Json} : v.write?.isSome = true ↔ Writable v := by
  constructor
  · intro h
    by_contra hnot
    have hall : ¬v.lexemes.all Lexeme.proper = true := fun hall => hnot (List.all_eq_true.mp hall)
    have hnone : v.write? = none := if_neg hall
    rw [hnone] at h
    cases h
  · intro h
    rw [h.write?_eq]
    rfl

theorem mem_itemLexemes {items : List Json} {v : Json} (hv : v ∈ items) {l : Lexeme}
    (hl : l ∈ v.lexemes) : l ∈ itemLexemes items := by
  induction items with
  | nil => cases hv
  | cons item others ih =>
      cases others with
      | nil =>
          obtain rfl := List.mem_singleton.mp hv
          exact hl
      | cons next more =>
          rw [itemLexemes_cons_cons, List.mem_append, List.mem_cons]
          rcases List.mem_cons.mp hv with rfl | hmore
          · exact .inl hl
          · exact .inr (.inr (ih hmore))

theorem mem_memberLexemes {members : List (String × Json)} {m : String × Json} (hm : m ∈ members)
    {l : Lexeme} (hl : l ∈ m.2.lexemes) : l ∈ memberLexemes members := by
  induction members with
  | nil => cases hm
  | cons first others ih =>
      cases others with
      | nil =>
          obtain rfl := List.mem_singleton.mp hm
          simp only [memberLexemes, List.mem_cons]
          exact .inr (.inr hl)
      | cons next more =>
          simp only [memberLexemes, List.mem_cons, List.mem_append]
          rcases List.mem_cons.mp hm with rfl | hmore
          · exact .inr (.inr (.inl hl))
          · exact .inr (.inr (.inr (.inr (ih hmore))))

theorem writable_array_iff {items : List Json} :
    Writable (.array items) ↔ ∀ v ∈ items, Writable v := by
  constructor
  · intro h v hv l hl
    apply h
    rw [lexemes, List.mem_cons, List.mem_append]
    exact .inr (.inl (mem_itemLexemes hv hl))
  · intro h l hl
    rw [lexemes, List.mem_cons, List.mem_append, List.mem_singleton] at hl
    rcases hl with rfl | hl | rfl
    · rfl
    · exact proper_of_mem_itemLexemes h hl
    · rfl

theorem writable_object_iff {members : List (String × Json)} :
    Writable (.object members) ↔ ∀ m ∈ members, Writable m.2 := by
  refine ⟨fun h m hm l hl => h l ?_, writable_object⟩
  rw [lexemes, List.mem_cons, List.mem_append]
  exact .inr (.inl (mem_memberLexemes hm hl))

/-- Infinities and what is no number have names that are no numbers. -/
theorem isNumber_special (x : Float) : isNumber (Decimal.special x) = false := by
  unfold Decimal.special
  split
  · decide
  · split <;> decide

theorem writable_float_iff {x : Float} : Writable (.float x) ↔ x.isFinite = true := by
  constructor
  · intro h
    by_contra hnot
    have hspecial : Decimal.number x = Decimal.special x := by
      rw [Decimal.number, Decimal.ofFloat?_of_not_isFinite (Bool.eq_false_iff.mpr hnot)]
    have hproper := h (.number (Decimal.number x).toList) List.mem_cons_self
    rw [Lexeme.proper, String.ofList_toList, hspecial, isNumber_special] at hproper
    cases hproper
  · exact fun h => (shallow_float h 0).writable

end VoxelScout.Json
