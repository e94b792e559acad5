import VoxelScout.Proofs.Json.Grammar
import VoxelScout.Proofs.Json.Numerals

/-! # Documents and their texts

A document is sound when its tokens are spelled as the format asks and spell its value.
Reading gives sound documents, and a sound document is what its text is read as. Values that
are written, and tokens whose hazards have been escaped, make sound documents.
-/

namespace VoxelScout.Json

/-! ## Numbers end before what follows them -/

theorem Lexeme.isNumeric_canon (l : Lexeme) : l.canon.isNumeric = l.isNumeric := by
  cases l <;> rfl

theorem Lexeme.delimits_canon (l : Lexeme) : l.canon.delimits = l.delimits := by
  cases l <;> rfl

theorem isChain_cons_of_not_numeric {l : Lexeme} (hl : l.isNumeric = false) {row : List Lexeme}
    (h : row.IsChain Lexeme.Apart) : (l :: row).IsChain Lexeme.Apart := by
  refine List.isChain_cons.mpr ⟨?_, h⟩
  intro m _ hnumeric
  rw [hl] at hnumeric
  cases hnumeric

theorem isChain_append_delimiter {d : Lexeme} (hd : d.delimits = true) {row rest : List Lexeme}
    (hrow : row.IsChain Lexeme.Apart) (hrest : rest.IsChain Lexeme.Apart) :
    (row ++ d :: rest).IsChain Lexeme.Apart := by
  have hnumeric : d.isNumeric = false := by
    cases d with
    | number text => cases hd
    | _ => rfl
  refine List.isChain_append.mpr ⟨hrow, isChain_cons_of_not_numeric hnumeric hrest, ?_⟩
  rintro l _ m ⟨⟩ -
  exact hd

theorem isChain_itemLexemes {items : List Json}
    (h : ∀ v ∈ items, v.lexemes.IsChain Lexeme.Apart) :
    (itemLexemes items).IsChain Lexeme.Apart := by
  induction items with
  | nil => exact .nil
  | cons item others ih =>
      have hitem := h item List.mem_cons_self
      have hothers := ih fun v hv => h v (List.mem_cons_of_mem item hv)
      cases others with
      | nil => exact hitem
      | cons next more =>
          rw [itemLexemes_cons_cons]
          exact isChain_append_delimiter rfl hitem hothers

theorem isChain_memberLexemes {members : List (String × Json)}
    (h : ∀ m ∈ members, m.2.lexemes.IsChain Lexeme.Apart) :
    (memberLexemes members).IsChain Lexeme.Apart := by
  induction members with
  | nil => exact .nil
  | cons m others ih =>
      have hmember : (memberLexemes [m]).IsChain Lexeme.Apart :=
        isChain_cons_of_not_numeric rfl
          (isChain_cons_of_not_numeric rfl (h m List.mem_cons_self))
      have hothers := ih fun m' hm' => h m' (List.mem_cons_of_mem m hm')
      cases others with
      | nil => exact hmember
      | cons next more =>
          rw [memberLexemes_cons_cons]
          exact isChain_append_delimiter rfl hmember hothers

theorem isChain_lexemes (v : Json) : v.lexemes.IsChain Lexeme.Apart := by
  induction v using inductionOn with
  | null | bool | number | string => exact .singleton _
  | array items ih =>
      exact isChain_cons_of_not_numeric rfl
        (isChain_append_delimiter rfl (isChain_itemLexemes ih) .nil)
  | object members ih =>
      exact isChain_cons_of_not_numeric rfl
        (isChain_append_delimiter rfl (isChain_memberLexemes ih) .nil)

theorem Spells.isChain {row : List Lexeme} {v : Json} (h : Spells row v) :
    row.IsChain Lexeme.Apart := by
  have hchain := isChain_lexemes v
  rw [← h, List.isChain_map] at hchain
  refine hchain.imp ?_
  intro l m hapart
  rwa [Lexeme.Apart, Lexeme.isNumeric_canon, Lexeme.delimits_canon] at hapart

/-! ## Sound documents -/

structure Document.Sound (doc : Document) : Prop where
  tokens : ∀ t ∈ doc.tokens, t.Sound
  spells : Spells (doc.tokens.map (·.lexeme)) doc.value
  height : doc.value.height ≤ nestingLimit

theorem sound_of_read? {bytes : List UInt8} {doc : Document} (h : read? bytes = some doc) :
    doc.Sound := by
  unfold read? at h
  simp only [Option.bind_eq_bind, Option.bind_eq_some_iff, Option.pure_def] at h
  obtain ⟨tokens, hscan, value, hvalue, heq⟩ := h
  cases heq
  obtain ⟨hspells, hheight⟩ := ofLexemes?_eq_some_iff.mp hvalue
  exact ⟨sound_of_scanTokens (Text.settled_letters bytes) hscan, hspells, hheight⟩

theorem Token.length_le_length_source {tokens : List Token} (h : ∀ t ∈ tokens, t.Sound) :
    tokens.length ≤ (Token.source tokens).length := by
  induction tokens with
  | nil => simp
  | cons t rest ih =>
      obtain ⟨c, more, htext, -⟩ := (h t List.mem_cons_self).2.exists_cons
      have hrest := ih fun u hu => h u (List.mem_cons_of_mem t hu)
      rw [Token.source_cons, htext]
      simp only [List.length_append, List.length_cons]
      omega

/-- A sound document is what its text is read as. -/
theorem Document.Sound.read?_source {doc : Document} (h : doc.Sound) :
    read? (Text.spell (Token.source doc.tokens)) = some doc := by
  have hletters : Text.letters (Text.spell (Token.source doc.tokens)) = Token.source doc.tokens :=
    Token.settled_source h.tokens
  have hscan : scan (Token.source doc.tokens) = some doc.tokens :=
    scanTokens_source h.tokens h.spells.isChain (Token.length_le_length_source h.tokens)
  have hvalue : ofLexemes? (doc.tokens.map (·.lexeme)) = some doc.value :=
    ofLexemes?_eq_some_iff.mpr ⟨h.spells, h.height⟩
  simp [read?, hletters, hscan, hvalue]

/-! ## Rows without blanks -/

/-- The document of a row of tokens with no blanks between them. -/
def Document.bare (row : List Lexeme) (v : Json) : Document :=
  ⟨row.map fun l => ⟨[], l⟩, v⟩

theorem Document.map_lexeme_bare (row : List Lexeme) (v : Json) :
    (Document.bare row v).tokens.map (·.lexeme) = row := by
  simp [Document.bare, Function.comp_def]

theorem Document.source_bare (row : List Lexeme) (v : Json) :
    Token.source (Document.bare row v).tokens = row.flatMap (·.text) := by
  simp [Document.bare, Token.source, Text.chars, List.flatMap_map]

theorem Document.sound_bare {row : List Lexeme} {v : Json} (hsound : ∀ l ∈ row, l.Sound)
    (hspells : Spells row v) (hheight : v.height ≤ nestingLimit) :
    (Document.bare row v).Sound := by
  refine ⟨?_, ?_, hheight⟩
  · intro t ht
    obtain ⟨l, hl, rfl⟩ := List.mem_map.mp ht
    exact ⟨by simp, hsound l hl⟩
  · rw [Document.map_lexeme_bare]
    exact hspells

theorem read?_row {row : List Lexeme} {v : Json} (hsound : ∀ l ∈ row, l.Sound)
    (hspells : Spells row v) (hheight : v.height ≤ nestingLimit) :
    read? (Text.spell (row.flatMap (·.text))) = some (Document.bare row v) := by
  rw [← Document.source_bare row v]
  exact (Document.sound_bare hsound hspells hheight).read?_source

/-! ## Hazards escaped -/

theorem Lexeme.Sound.harden {l : Lexeme} (h : l.Sound) : l.harden.Sound := by
  cases l with
  | string source => exact ⟨h.1.harden, settled_append_harden (a := []) h.2⟩
  | _ => exact h

theorem Lexeme.Sound.canon_harden {l : Lexeme} (h : l.Sound) : l.harden.canon = l.canon := by
  cases l with
  | string source =>
      have hsource : unescape (Json.harden source) = unescape source := unescape_harden h.1
      simp [Lexeme.harden, Lexeme.canon, hsource]
  | _ => rfl

theorem Lexeme.harden_harden (l : Lexeme) : l.harden.harden = l.harden := by
  cases l with
  | string source => simp [Lexeme.harden, (harmless_harden source).harden_eq]
  | _ => rfl

theorem Spells.map_harden {row : List Lexeme} {v : Json} (h : Spells row v)
    (hsound : ∀ l ∈ row, l.Sound) : Spells (row.map Lexeme.harden) v := by
  rw [Spells, List.map_map]
  rw [Spells] at h
  rw [← h]
  exact List.map_congr_left fun l hl => (hsound l hl).canon_harden

/-! ## Values written -/

theorem map_canon_itemLexemes {items : List Json} (h : ∀ v ∈ items, Spells v.lexemes v) :
    (itemLexemes items).map Lexeme.canon = itemLexemes items := by
  induction items with
  | nil => rfl
  | cons item others ih =>
      have hitem := map_canon_eq_item_iff.mpr (h item List.mem_cons_self)
      have hothers := ih fun v hv => h v (List.mem_cons_of_mem item hv)
      cases others with
      | nil => exact hitem
      | cons next more =>
          rw [itemLexemes_cons_cons, map_canon_eq_append_comma]
          exact ⟨_, _, rfl, hitem, hothers⟩

theorem map_canon_memberLexemes {members : List (String × Json)}
    (h : ∀ m ∈ members, Spells m.2.lexemes m.2) :
    (memberLexemes members).map Lexeme.canon = memberLexemes members := by
  induction members with
  | nil => rfl
  | cons m others ih =>
      have hm : (memberLexemes [m]).map Lexeme.canon = memberLexemes [m] :=
        map_canon_eq_member_iff.mpr ⟨_, _, rfl, by rw [unescape_escape, String.ofList_toList],
          h m List.mem_cons_self⟩
      have hothers := ih fun m' hm' => h m' (List.mem_cons_of_mem m hm')
      cases others with
      | nil => exact hm
      | cons next more =>
          rw [memberLexemes_cons_cons, map_canon_eq_append_comma]
          exact ⟨_, _, rfl, hm, hothers⟩

theorem spells_lexemes (v : Json) : Spells v.lexemes v := by
  induction v using inductionOn with
  | null | bool | number => rfl
  | string text => exact congrArg ([·]) (Lexeme.canon_ofString text)
  | array items ih => exact spells_array_iff.mpr ⟨_, rfl, map_canon_itemLexemes ih⟩
  | object members ih => exact spells_object_iff.mpr ⟨_, rfl, map_canon_memberLexemes ih⟩

theorem Writable.sound {v : Json} (h : Writable v) {l : Lexeme} (hl : l ∈ v.lexemes) :
    l.Sound := by
  cases l with
  | number text =>
      have hnumber := isNumber_iff.mp (h _ hl)
      rwa [String.toList_ofList] at hnumber
  | string source =>
      -- a written token is its own canonical spelling
      have hspells : v.lexemes.map Lexeme.canon = v.lexemes.map id := by
        rw [List.map_id]
        exact spells_lexemes v
      have hcanon := List.map_inj_left.mp hspells _ hl
      rw [Lexeme.canon, Lexeme.ofString, id, Lexeme.string.injEq] at hcanon
      rw [Lexeme.Sound, ← hcanon]
      exact ⟨quotable_escape _, Text.settled_chars _⟩
  | _ => trivial

/-- The value can be written, and nothing in it lies deeper than `n`. -/
structure Shallow (n : Nat) (v : Json) : Prop where
  writable : Writable v
  height : v.height ≤ n

theorem shallow_null (n : Nat) : Shallow n .null :=
  ⟨by simp [Writable, lexemes, Lexeme.proper], by simp [height]⟩

theorem shallow_bool (n : Nat) (b : Bool) : Shallow n (.bool b) :=
  ⟨by simp [Writable, lexemes, Lexeme.proper], by simp [height]⟩

theorem shallow_string (n : Nat) (text : String) : Shallow n (.string text) :=
  ⟨writable_string text, by simp [height]⟩

theorem shallow_number (n : Nat) {literal : String} (h : isNumber literal = true) :
    Shallow n (.number literal) :=
  ⟨by simpa [Writable, lexemes, Lexeme.proper] using h, by simp [height]⟩

theorem shallow_int (n : Nat) (i : Int) : Shallow n (.int i) :=
  ⟨writable_int i, by simp [int, height]⟩

theorem proper_of_mem_itemLexemes {items : List Json} (h : ∀ v ∈ items, Writable v) {l : Lexeme}
    (hl : l ∈ itemLexemes items) : l.proper = true := by
  induction items with
  | nil => cases hl
  | cons item others ih =>
      have hitem : Writable item := h item List.mem_cons_self
      cases others with
      | nil => exact hitem l hl
      | cons next more =>
          rw [itemLexemes_cons_cons, List.mem_append, List.mem_cons] at hl
          rcases hl with hl | rfl | hl
          · exact hitem l hl
          · rfl
          · exact ih (fun v hv => h v (List.mem_cons_of_mem item hv)) hl

theorem shallow_array {n : Nat} {items : List Json} (h : ∀ v ∈ items, Shallow n v) :
    Shallow (n + 1) (.array items) := by
  refine ⟨?_, height_array_le fun v hv => (h v hv).height⟩
  intro l hl
  rw [lexemes, List.mem_cons, List.mem_append, List.mem_singleton] at hl
  rcases hl with rfl | hl | rfl
  · rfl
  · exact proper_of_mem_itemLexemes (fun v hv => (h v hv).writable) hl
  · rfl

theorem shallow_object {n : Nat} {members : List (String × Json)}
    (h : ∀ m ∈ members, Shallow n m.2) : Shallow (n + 1) (.object members) :=
  ⟨writable_object fun m hm => (h m hm).writable, height_object_le fun m hm => (h m hm).height⟩

/-- What is written is read back. -/
theorem Writable.read?_bytes {v : Json} (h : Writable v) (hheight : v.height ≤ nestingLimit) :
    read? v.bytes = some (Document.bare v.lexemes v) :=
  read?_row (fun _ => h.sound) (spells_lexemes v) hheight

end VoxelScout.Json
