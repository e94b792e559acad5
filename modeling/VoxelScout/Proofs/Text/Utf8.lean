import Mathlib.Data.List.Basic
import VoxelScout.Text.Utf8

/-! # Bytes of text

Reading bytes as letters loses nothing: the letters spell the bytes they were read from. The
other way about, letters are read back from what they spell unless stray bytes among them
would join to a character; characters are, and so is what stands on either side of one.
-/

namespace VoxelScout.Text

variable {c : Char} {b : UInt8} {bs : List UInt8} {ls a d : List Letter}

/-! ## The first character -/

theorem first?_append (c : Char) (rest : List UInt8) :
    first? (String.utf8EncodeChar c ++ rest) = some c := by
  have hlength : (String.utf8EncodeChar c).length ≤ 4 := by
    rw [String.length_utf8EncodeChar]
    exact c.utf8Size_le_four
  rw [first?, List.take_append, List.take_of_length_le hlength, List.toByteArray_append]
  exact ByteArray.utf8DecodeChar?_utf8EncodeChar_append

theorem exists_of_first? (h : first? bs = some c) :
    ∃ rest, bs = String.utf8EncodeChar c ++ rest := by
  have hbytes := String.toByteArray_utf8EncodeChar_of_utf8DecodeChar?_eq_some h
  have hfront : String.utf8EncodeChar c = (bs.take 4).take c.utf8Size := by
    have hlists := congrArg (fun bytes : ByteArray => bytes.data.toList) hbytes
    simpa [ByteArray.data_extract, List.extract] using hlists
  refine ⟨bs.drop (min c.utf8Size 4), ?_⟩
  rw [hfront, List.take_take, List.take_append_drop]

theorem exists_encode_eq_cons (c : Char) :
    ∃ first more, String.utf8EncodeChar c = first :: more ∧ first.IsUTF8FirstByte ∧
      ∀ b ∈ more, ¬b.IsUTF8FirstByte := by
  have hfirst {i : Nat} (hi : i < (String.utf8EncodeChar c).length) :
      (String.utf8EncodeChar c)[i].IsUTF8FirstByte ↔ i = 0 :=
    UInt8.isUTF8FirstByte_getElem_utf8EncodeChar
  cases hencode : String.utf8EncodeChar c with
  | nil =>
      have hlength := String.length_utf8EncodeChar c
      rw [hencode] at hlength
      exact absurd hlength.symm (Nat.ne_of_gt c.utf8Size_pos)
  | cons first more =>
      simp only [hencode, List.length_cons] at hfirst
      refine ⟨first, more, rfl, (hfirst (Nat.zero_lt_succ _)).mpr rfl, ?_⟩
      intro b hb
      obtain ⟨i, hi, rfl⟩ := List.getElem_of_mem hb
      exact fun h => absurd ((hfirst (Nat.succ_lt_succ hi)).mp h) (Nat.succ_ne_zero i)

/-! ## Reading -/

theorem lettersFrom_eq (passed : Nat) (bs : List UInt8) :
    lettersFrom passed bs = letters (bs.drop passed) := by
  induction passed generalizing bs with
  | zero => rfl
  | succ passed ih =>
      cases bs with
      | nil => rfl
      | cons b rest => exact ih rest

theorem letters_append_char (c : Char) (rest : List UInt8) :
    letters (String.utf8EncodeChar c ++ rest) = .char c :: letters rest := by
  have hfirst := first?_append c rest
  obtain ⟨lead, more, hencode, -⟩ := exists_encode_eq_cons c
  have hlength : more.length = c.utf8Size - 1 := by
    rw [← String.length_utf8EncodeChar, hencode]
    rfl
  rw [hencode, List.cons_append] at hfirst ⊢
  rw [letters, lettersFrom, hfirst]
  simp only [lettersFrom_eq, ← hlength, List.drop_left]

theorem letters_stray (h : first? (b :: bs) = none) :
    letters (b :: bs) = .stray b :: letters bs := by
  rw [letters, lettersFrom, h]
  rfl

/-- Induction along the letters that bytes are read as. -/
theorem letters_induction {motive : List UInt8 → Prop} (nil : motive [])
    (char : ∀ c rest, motive rest → motive (String.utf8EncodeChar c ++ rest))
    (stray : ∀ b rest, first? (b :: rest) = none → motive rest → motive (b :: rest))
    (bs : List UInt8) : motive bs := by
  induction hn : bs.length using Nat.strongRecOn generalizing bs with
  | ind n ih =>
      cases bs with
      | nil => exact nil
      | cons b rest =>
          cases hfirst : first? (b :: rest) with
          | none => exact stray b rest hfirst (ih _ (by simp [← hn]) rest rfl)
          | some c =>
              obtain ⟨after, hafter⟩ := exists_of_first? hfirst
              rw [hafter]
              refine char c after (ih _ ?_ after rfl)
              rw [← hn, hafter, List.length_append, String.length_utf8EncodeChar]
              have := c.utf8Size_pos
              omega

/-- Nothing is lost in reading. -/
theorem spell_letters (bs : List UInt8) : spell (letters bs) = bs := by
  induction bs using letters_induction with
  | nil => rfl
  | char c rest ih =>
      rw [letters_append_char]
      exact congrArg (String.utf8EncodeChar c ++ ·) ih
  | stray b rest hfirst ih =>
      rw [letters_stray hfirst]
      exact congrArg (b :: ·) ih

/-- Reading begins anew where a character begins. -/
theorem letters_append (bs : List UInt8) {more : List UInt8}
    (h : ∀ b ∈ more.head?, b.IsUTF8FirstByte) :
    letters (bs ++ more) = letters bs ++ letters more := by
  induction bs using letters_induction with
  | nil => rfl
  | char c rest ih => rw [List.append_assoc, letters_append_char, letters_append_char, ih]; rfl
  | stray b rest hfirst ih =>
      have hstill : first? (b :: (rest ++ more)) = none := by
        rw [Option.eq_none_iff_forall_ne_some]
        intro c hc
        obtain ⟨after, hafter⟩ := exists_of_first? hc
        rw [← List.cons_append, List.append_eq_append_iff] at hafter
        rcases hafter with ⟨tail, hencode, hmore⟩ | ⟨tail, hrest, -⟩
        · -- a character that goes on into `more` has one of its later bytes there
          cases tail with
          | nil =>
              rw [List.append_nil] at hencode
              rw [← List.append_nil (b :: rest), ← hencode, first?_append] at hfirst
              cases hfirst
          | cons t tail =>
              obtain ⟨lead, later, hlead, -, hlater⟩ := exists_encode_eq_cons c
              rw [hlead, List.cons_append, List.cons.injEq] at hencode
              refine hlater t (by simp [hencode.2]) (h t ?_)
              simp [hmore]
        · rw [hrest, first?_append] at hfirst
          cases hfirst
      rw [List.cons_append, letters_stray hstill, letters_stray hfirst, ih]
      rfl

/-! ## Letters that are read back -/

/-- The letters are read back from what they spell. -/
def Settled (ls : List Letter) : Prop :=
  letters (spell ls) = ls

theorem settled_letters (bs : List UInt8) : Settled (letters bs) := by
  rw [Settled, spell_letters]

theorem settled_nil : Settled [] :=
  rfl

theorem spell_append (a d : List Letter) : spell (a ++ d) = spell a ++ spell d :=
  List.flatMap_append

theorem Settled.tail {l : Letter} (h : Settled (l :: ls)) : Settled ls := by
  obtain ⟨bs, hbs⟩ : ∃ bs, letters bs = l :: ls := ⟨_, h⟩
  induction bs using letters_induction with
  | nil => cases hbs
  | char c rest _ =>
      rw [letters_append_char] at hbs
      cases hbs
      exact settled_letters rest
  | stray b rest hfirst _ =>
      rw [letters_stray hfirst] at hbs
      cases hbs
      exact settled_letters rest

theorem Settled.of_append_right (h : Settled (a ++ d)) : Settled d := by
  induction a with
  | nil => exact h
  | cons l a ih => exact ih h.tail

theorem letters_spell_append_char (a : List Letter) (c : Char) (d : List Letter) :
    letters (spell (a ++ .char c :: d)) = letters (spell a) ++ .char c :: letters (spell d) := by
  obtain ⟨lead, more, hencode, hlead, -⟩ := exists_encode_eq_cons c
  have hspell : spell (.char c :: d) = String.utf8EncodeChar c ++ spell d := rfl
  rw [spell_append, hspell, letters_append, letters_append_char]
  rw [hencode]
  rintro _ ⟨⟩
  exact hlead

/-- A character keeps what stands before it apart from what stands behind it. -/
theorem settled_append_char : Settled (a ++ .char c :: d) ↔ Settled a ∧ Settled d := by
  constructor
  · intro h
    have hd : Settled d := h.of_append_right.tail
    have hsame := h
    rw [Settled, letters_spell_append_char, hd] at hsame
    exact ⟨List.append_cancel_right hsame, hd⟩
  · rintro ⟨ha, hd⟩
    rw [Settled, letters_spell_append_char, ha, hd]

theorem settled_cons_char : Settled (.char c :: d) ↔ Settled d :=
  (settled_append_char (a := [])).trans (and_iff_right settled_nil)

theorem settled_chars_append (cs : List Char) : Settled (chars cs ++ d) ↔ Settled d := by
  induction cs with
  | nil => rfl
  | cons c cs ih => exact settled_cons_char.trans ih

theorem settled_chars (cs : List Char) : Settled (chars cs) := by
  rw [← List.append_nil (chars cs), settled_chars_append]
  exact settled_nil

/-! ## Bytes of characters -/

theorem spell_chars (cs : List Char) : spell (chars cs) = bytes (String.ofList cs) := by
  rw [bytes, String.toByteArray_ofList, List.utf8Encode, List.data_toByteArray, spell, chars,
    List.flatMap_map]
  rfl

theorem letters_bytes (s : String) : letters (bytes s) = chars s.toList := by
  rw [← String.ofList_toList (s := s), ← spell_chars, settled_chars, String.toList_ofList]

theorem read_chars (cs : List Char) : (chars cs).map Letter.read = cs := by
  rw [chars, List.map_map]
  exact List.map_id cs

/-- Text is read back from its bytes. -/
theorem ofBytes_bytes (s : String) : ofBytes (bytes s) = s := by
  rw [ofBytes, letters_bytes, ofLetters, read_chars, String.ofList_toList]

end VoxelScout.Text
