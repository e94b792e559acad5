import VoxelScout.Proofs.Json.Documents

/-! # The texts of members

The tokens of an object are split at the commas between its members and nowhere else. So the
members as they are written have the keys of the members that were read, in the same order,
and the text beside a key is read as the value of that key.
-/

namespace VoxelScout.Json

theorem splitMembers_cons (depth : Nat) (current : List Token) (t : Token) (rest : List Token) :
    splitMembers depth current (t :: rest) =
      match t.lexeme with
      | .openObject | .openArray => splitMembers (depth + 1) (t :: current) rest
      | .closeArray => splitMembers (depth - 1) (t :: current) rest
      | .closeObject =>
        if depth = 0 then (if current.isEmpty then [] else [current.reverse])
        else splitMembers (depth - 1) (t :: current) rest
      | .comma =>
        if depth = 0 then current.reverse :: splitMembers 0 [] rest
        else splitMembers depth (t :: current) rest
      | _ => splitMembers depth (t :: current) rest := by
  obtain ⟨blank, l⟩ := t
  cases l with
  | closeObject | comma => cases depth <;> rfl
  | _ => rfl

/-! ## Passing over a value -/

/-- No comma or brace of the row is taken for one of the object, at depths from `least` on. -/
def Passes (least : Nat) (row : List Lexeme) : Prop :=
  ∀ depth tokens current rest, least ≤ depth → tokens.map Token.lexeme = row →
    splitMembers depth current (tokens ++ rest) =
      splitMembers depth (tokens.reverse ++ current) rest

theorem Passes.mono {least least' : Nat} {row : List Lexeme} (h : Passes least row)
    (hle : least ≤ least') : Passes least' row :=
  fun depth tokens current rest hdepth => h depth tokens current rest (hle.trans hdepth)

theorem Passes.nil (least : Nat) : Passes least [] := by
  intro depth tokens current rest _ hrow
  rw [List.map_eq_nil_iff.mp hrow]
  rfl

theorem Passes.append {least : Nat} {row row' : List Lexeme} (h : Passes least row)
    (h' : Passes least row') : Passes least (row ++ row') := by
  intro depth tokens current rest hdepth hrow
  obtain ⟨first, second, rfl, hfirst, hsecond⟩ := List.map_eq_append_iff.mp hrow
  rw [List.append_assoc, h depth first current _ hdepth hfirst,
    h' depth second _ rest hdepth hsecond, List.reverse_append, List.append_assoc]

theorem passes_singleton {least : Nat} {l : Lexeme}
    (h : ∀ depth t current rest, least ≤ depth → t.lexeme = l →
      splitMembers depth current (t :: rest) = splitMembers depth (t :: current) rest) :
    Passes least [l] := by
  intro depth tokens current rest hdepth hrow
  obtain ⟨t, rfl, ht⟩ := List.map_eq_singleton_iff.mp hrow
  exact h depth t current rest hdepth ht

theorem passes_bracketed {left right : Lexeme} {row : List Lexeme} (hrow : Passes 1 row)
    (hleft : ∀ depth t current rest, t.lexeme = left →
      splitMembers depth current (t :: rest) = splitMembers (depth + 1) (t :: current) rest)
    (hright : ∀ depth t current rest, t.lexeme = right →
      splitMembers (depth + 1) current (t :: rest) = splitMembers depth (t :: current) rest) :
    Passes 0 (left :: (row ++ [right])) := by
  intro depth tokens current rest _ h
  obtain ⟨t, more, rfl, ht, hmore⟩ := List.map_eq_cons_iff.mp h
  obtain ⟨inner, last, rfl, hinner, hlast⟩ := List.map_eq_append_iff.mp hmore
  obtain ⟨u, rfl, hu⟩ := List.map_eq_singleton_iff.mp hlast
  rw [List.cons_append, hleft depth t _ _ ht, List.append_assoc,
    hrow (depth + 1) inner _ _ (by omega) hinner, List.singleton_append,
    hright depth u _ _ hu]
  simp

theorem passes_comma : Passes 1 [.comma] :=
  passes_singleton fun depth t current rest hdepth ht => by
    have hpos : depth ≠ 0 := by omega
    simp [splitMembers_cons, ht, hpos]

/-- A comma between two rows stays inside of brackets. -/
theorem Passes.append_comma {row row' : List Lexeme} (h : Passes 0 row) (h' : Passes 1 row') :
    Passes 1 (row ++ .comma :: row') :=
  (h.mono (by omega)).append (Passes.append passes_comma h')

theorem passes_items {items : List Json} {row : List Lexeme}
    (h : ∀ v ∈ items, ∀ row, Spells row v → Passes 0 row)
    (hrow : row.map Lexeme.canon = itemLexemes items) : Passes 1 row := by
  induction items generalizing row with
  | nil =>
      rw [List.map_eq_nil_iff.mp hrow]
      exact Passes.nil 1
  | cons item others ih =>
      have hitem := h item List.mem_cons_self
      cases others with
      | nil => exact (hitem row (map_canon_eq_item_iff.mp hrow)).mono (by omega)
      | cons next more =>
          rw [itemLexemes_cons_cons, map_canon_eq_append_comma] at hrow
          obtain ⟨first, others, rfl, hfirst, hothers⟩ := hrow
          have hpasses := hitem first (map_canon_eq_item_iff.mp hfirst)
          exact hpasses.append_comma (ih (fun v hv => h v (List.mem_cons_of_mem item hv)) hothers)

theorem passes_member {m : String × Json} {row : List Lexeme}
    (h : ∀ row, Spells row m.2 → Passes 0 row)
    (hrow : row.map Lexeme.canon = memberLexemes [m]) : Passes 0 row := by
  obtain ⟨source, value, rfl, -, hvalue⟩ := map_canon_eq_member_iff.mp hrow
  have hkey : Passes 0 [.string source] :=
    passes_singleton fun _ _ _ _ _ ht => by simp [splitMembers_cons, ht]
  have hcolon : Passes 0 [.colon] :=
    passes_singleton fun _ _ _ _ _ ht => by simp [splitMembers_cons, ht]
  exact hkey.append (hcolon.append (h value hvalue))

theorem passes_members {members : List (String × Json)} {row : List Lexeme}
    (h : ∀ m ∈ members, ∀ row, Spells row m.2 → Passes 0 row)
    (hrow : row.map Lexeme.canon = memberLexemes members) : Passes 1 row := by
  induction members generalizing row with
  | nil =>
      rw [List.map_eq_nil_iff.mp hrow]
      exact Passes.nil 1
  | cons m others ih =>
      have hm := h m List.mem_cons_self
      cases others with
      | nil => exact (passes_member hm hrow).mono (by omega)
      | cons next more =>
          rw [memberLexemes_cons_cons, map_canon_eq_append_comma] at hrow
          obtain ⟨first, others, rfl, hfirst, hothers⟩ := hrow
          have hpasses := passes_member hm hfirst
          exact hpasses.append_comma (ih (fun m' hm' => h m' (List.mem_cons_of_mem m hm')) hothers)

theorem Spells.passes {row : List Lexeme} {v : Json} (h : Spells row v) : Passes 0 row := by
  induction v using inductionOn generalizing row with
  | null | bool | number =>
      obtain ⟨l, rfl, hl⟩ := List.map_eq_singleton_iff.mp h
      rw [Lexeme.canon_eq_iff (by simp)] at hl
      exact passes_singleton fun _ _ _ _ _ ht => by simp [splitMembers_cons, ht, hl]
  | string text =>
      obtain ⟨l, rfl, hl⟩ := List.map_eq_singleton_iff.mp h
      obtain ⟨source, rfl, -⟩ := Lexeme.canon_eq_ofString.mp hl
      exact passes_singleton fun _ _ _ _ _ ht => by simp [splitMembers_cons, ht]
  | array items ih =>
      obtain ⟨inner, rfl, hinner⟩ := spells_array_iff.mp h
      refine passes_bracketed (passes_items (fun v hv row => ih v hv) hinner) ?_ ?_
      · intro depth t current rest ht
        simp [splitMembers_cons, ht]
      · intro depth t current rest ht
        simp [splitMembers_cons, ht]
  | object members ih =>
      obtain ⟨inner, rfl, hinner⟩ := spells_object_iff.mp h
      refine passes_bracketed (passes_members (fun m hm row => ih m hm) hinner) ?_ ?_
      · intro depth t current rest ht
        simp [splitMembers_cons, ht]
      · intro depth t current rest ht
        simp [splitMembers_cons, ht]

/-! ## One member after the other -/

def SpellsMember (piece : List Token) (m : String × Json) : Prop :=
  (piece.map Token.lexeme).map Lexeme.canon = memberLexemes [m]

theorem SpellsMember.passes {piece : List Token} {m : String × Json} (h : SpellsMember piece m) :
    Passes 0 (piece.map Token.lexeme) :=
  passes_member (fun _ => Spells.passes) h

theorem SpellsMember.exists_eq {piece : List Token} {m : String × Json}
    (h : SpellsMember piece m) :
    ∃ blank source colon value, piece = ⟨blank, .string source⟩ :: colon :: value ∧
      String.ofList (unescape source) = m.1 ∧ Spells (value.map Token.lexeme) m.2 := by
  obtain ⟨source, row, hrow, hkey, hspells⟩ := map_canon_eq_member_iff.mp h
  obtain ⟨⟨blank, l⟩, rest, rfl, rfl, hrest⟩ := List.map_eq_cons_iff.mp hrow
  obtain ⟨colon, value, rfl, -, rfl⟩ := List.map_eq_cons_iff.mp hrest
  exact ⟨blank, source, colon, value, rfl, hkey, hspells⟩

theorem splitMembers_comma {piece : List Token} {m : String × Json} (h : SpellsMember piece m)
    {comma : Token} (hcomma : comma.lexeme = .comma) (rest : List Token) :
    splitMembers 0 [] (piece ++ comma :: rest) = piece :: splitMembers 0 [] rest := by
  rw [h.passes 0 piece [] _ le_rfl rfl]
  simp [splitMembers_cons, hcomma]

theorem splitMembers_close {piece : List Token} {m : String × Json} (h : SpellsMember piece m)
    {close : Token} (hclose : close.lexeme = .closeObject) (rest : List Token) :
    splitMembers 0 [] (piece ++ close :: rest) = [piece] := by
  obtain ⟨blank, source, colon, value, rfl, -⟩ := h.exists_eq
  rw [h.passes 0 _ [] _ le_rfl rfl]
  simp [splitMembers_cons, hclose]

theorem splitMembers_members {members : List (String × Json)} {tokens : List Token}
    (h : (tokens.map Token.lexeme).map Lexeme.canon = memberLexemes members) {close : Token}
    (hclose : close.lexeme = .closeObject) (rest : List Token) :
    List.Forall₂ (fun m piece => SpellsMember piece m ∧ piece ⊆ tokens) members
      (splitMembers 0 [] (tokens ++ close :: rest)) := by
  induction members generalizing tokens with
  | nil =>
      have htokens : tokens = [] := List.map_eq_nil_iff.mp (List.map_eq_nil_iff.mp h)
      rw [htokens]
      simp [splitMembers_cons, hclose]
  | cons m others ih =>
      cases others with
      | nil =>
          rw [splitMembers_close h hclose]
          exact .cons ⟨h, List.Subset.refl _⟩ .nil
      | cons next more =>
          rw [memberLexemes_cons_cons, map_canon_eq_append_comma] at h
          obtain ⟨row₁, row₂, htokens, hfirst, hothers⟩ := h
          obtain ⟨piece, tail, rfl, rfl, htail⟩ := List.map_eq_append_iff.mp htokens
          obtain ⟨comma, others, rfl, hcomma, rfl⟩ := List.map_eq_cons_iff.mp htail
          rw [List.append_assoc, List.cons_append, splitMembers_comma hfirst hcomma]
          refine .cons ⟨hfirst, List.subset_append_left _ _⟩ ((ih hothers).imp ?_)
          rintro m' piece' ⟨hm', hsubset⟩
          exact ⟨hm', fun t ht => List.mem_append_right _ (List.mem_cons_of_mem _ (hsubset ht))⟩

/-! ## Members with their texts -/

def rawMember? : List Token → Option (String × List UInt8)
  | ⟨_, .string source⟩ :: _ :: value => some (String.ofList (unescape source), verbatim value)
  | _ => none

theorem Document.rawMembers_eq {doc : Document} {t : Token} {rest : List Token}
    (htokens : doc.tokens = t :: rest) (ht : t.lexeme = .openObject) :
    doc.rawMembers = (splitMembers 0 [] rest).filterMap rawMember? := by
  rw [Document.rawMembers, htokens]
  exact if_pos (beq_iff_eq.mpr ht)

/-- The member as it was written: its key, and the bytes of tokens that spell its value. -/
def WrittenAs (m : String × Json) (raw : String × List UInt8) : Prop :=
  raw.1 = m.1 ∧ ∃ tokens : List Token, (∀ t ∈ tokens, t.Sound) ∧
    Spells (tokens.map Token.lexeme) m.2 ∧ raw.2 = Text.spell (Token.source tokens)

theorem SpellsMember.rawMember? {piece : List Token} {m : String × Json}
    (h : SpellsMember piece m) (hsound : ∀ t ∈ piece, t.Sound) :
    ∃ raw, rawMember? piece = some raw ∧ WrittenAs m raw := by
  obtain ⟨blank, source, colon, value, rfl, hkey, hspells⟩ := h.exists_eq
  refine ⟨_, rfl, hkey, ?_⟩
  cases value with
  | nil => exact absurd hspells.length_pos (by simp)
  | cons t rest =>
      have hvalue : ∀ u ∈ t :: rest, u.Sound := fun u hu =>
        hsound u (List.mem_cons_of_mem _ (List.mem_cons_of_mem _ hu))
      -- the blanks in front of the value are not part of its text
      refine ⟨⟨[], t.lexeme⟩ :: rest, ?_, hspells, ?_⟩
      · intro u hu
        rcases List.mem_cons.mp hu with rfl | hu
        · exact ⟨by simp, (hvalue t List.mem_cons_self).2⟩
        · exact hvalue u (List.mem_cons_of_mem _ hu)
      · rw [verbatim, Token.source_cons]
        rfl

/-- The members as they are written are those that were read. -/
theorem Document.Sound.rawMembers {doc : Document} (h : doc.Sound)
    {members : List (String × Json)} (hvalue : doc.value = .object members) :
    List.Forall₂ WrittenAs members doc.rawMembers := by
  have hspells := h.spells
  rw [hvalue] at hspells
  obtain ⟨inner, htokens, hinner⟩ := spells_object_iff.mp hspells
  obtain ⟨t, rest, hdoc, ht, hrest⟩ := List.map_eq_cons_iff.mp htokens
  obtain ⟨body, last, rfl, rfl, hlast⟩ := List.map_eq_append_iff.mp hrest
  obtain ⟨close, rfl, hclose⟩ := List.map_eq_singleton_iff.mp hlast
  have hsound : ∀ u ∈ body, u.Sound := fun u hu => h.tokens u (by simp [hdoc, hu])
  rw [Document.rawMembers_eq hdoc ht]
  generalize hpieces : splitMembers 0 [] (body ++ [close]) = pieces
  have hsplit := splitMembers_members hinner hclose []
  rw [hpieces] at hsplit
  clear hpieces hinner hspells hvalue
  induction hsplit with
  | nil => exact .nil
  | cons hpiece _ ih =>
      obtain ⟨raw, hraw, hwritten⟩ := hpiece.1.rawMember? fun u hu => hsound u (hpiece.2 hu)
      rw [List.filterMap_cons_some hraw]
      exact .cons hwritten ih

theorem exists_of_forall₂_writtenAs {members : List (String × Json)}
    {raws : List (String × List UInt8)} (h : List.Forall₂ WrittenAs members raws)
    {raw : String × List UInt8} (hraw : raw ∈ raws) : ∃ m ∈ members, WrittenAs m raw := by
  induction h with
  | nil => cases hraw
  | cons hwritten _ ih =>
      rcases List.mem_cons.mp hraw with rfl | hraw
      · exact ⟨_, List.mem_cons_self, hwritten⟩
      · obtain ⟨m, hm, hwritten⟩ := ih hraw
        exact ⟨m, List.mem_cons_of_mem _ hm, hwritten⟩

/-- The text beside a key is read as the value of a member. -/
theorem Document.Sound.read?_rawMember {doc : Document} (h : doc.Sound)
    {members : List (String × Json)} (hvalue : doc.value = .object members)
    {raw : String × List UInt8} (hraw : raw ∈ doc.rawMembers) :
    ∃ inner, read? raw.2 = some inner ∧ inner.value.height < nestingLimit := by
  obtain ⟨m, hm, -, tokens, hsound, hspells, htext⟩ :=
    exists_of_forall₂_writtenAs (h.rawMembers hvalue) hraw
  have hheight := h.height
  rw [hvalue, Json.height] at hheight
  have hlt : m.2.height < nestingLimit :=
    lt_of_lt_of_le (Nat.lt_succ_of_le (height_le_membersHeight hm)) hheight
  have hinner : (⟨tokens, m.2⟩ : Document).Sound := ⟨hsound, hspells, hlt.le⟩
  exact ⟨⟨tokens, m.2⟩, by rw [htext, hinner.read?_source], hlt⟩

/-! ## Objects put together -/

/-- A key with tokens that spell its value. -/
structure Part where
  key : String
  value : Json
  row : List Lexeme
  spells : Spells row value
  sound : ∀ l ∈ row, l.Sound

namespace Part

def member (p : Part) : String × Json :=
  (p.key, p.value)

def lexemes (p : Part) : List Lexeme :=
  .ofString p.key :: .colon :: p.row

def raw (p : Part) : String × List UInt8 :=
  (p.key, Text.spell (p.row.flatMap (·.text)))

theorem map_canon_lexemes (p : Part) :
    p.lexemes.map Lexeme.canon = memberLexemes [p.member] :=
  map_canon_eq_member_iff.mpr
    ⟨_, p.row, rfl, by rw [unescape_escape, String.ofList_toList]; rfl, p.spells⟩

theorem sound_lexemes (p : Part) : ∀ l ∈ p.lexemes, l.Sound := by
  intro l hl
  rcases List.mem_cons.mp hl with rfl | hl
  · exact ⟨quotable_escape _, Text.settled_chars _⟩
  · rcases List.mem_cons.mp hl with rfl | hl
    · trivial
    · exact p.sound l hl

def object (first : Part) (others : List Part) : List Lexeme :=
  .openObject :: (first.lexemes ++ others.flatMap (fun p => .comma :: p.lexemes)
    ++ [.closeObject])

theorem sound_object (first : Part) (others : List Part) :
    ∀ l ∈ object first others, l.Sound := by
  intro l hl
  simp only [object, List.mem_cons, List.mem_append, List.mem_flatMap, List.not_mem_nil,
    or_false] at hl
  rcases hl with rfl | (hfirst | ⟨p, -, rfl | hp⟩) | rfl
  · trivial
  · exact first.sound_lexemes l hfirst
  · trivial
  · exact p.sound_lexemes l hp
  · trivial

theorem map_canon_members (first : Part) (others : List Part) :
    (first.lexemes ++ others.flatMap (fun p => .comma :: p.lexemes)).map Lexeme.canon =
      memberLexemes (first.member :: others.map member) := by
  induction others generalizing first with
  | nil => simpa using first.map_canon_lexemes
  | cons next more ih =>
      rw [List.map_cons, memberLexemes_cons_cons, map_canon_eq_append_comma]
      exact ⟨first.lexemes, _, rfl, first.map_canon_lexemes, ih next⟩

theorem spells_object (first : Part) (others : List Part) :
    Spells (object first others) (.object (first.member :: others.map member)) :=
  spells_object_iff.mpr ⟨_, rfl, map_canon_members first others⟩

def tokens (p : Part) : List Token :=
  p.lexemes.map fun l => ⟨[], l⟩

theorem spellsMember_tokens (p : Part) : SpellsMember p.tokens p.member := by
  have hlexemes : p.tokens.map Token.lexeme = p.lexemes := by
    simp [tokens, Function.comp_def]
  rw [SpellsMember, hlexemes]
  exact p.map_canon_lexemes

theorem splitMembers_object (first : Part) (others : List Part) (close : Token)
    (hclose : close.lexeme = .closeObject) :
    splitMembers 0 [] (first.tokens ++ (others.flatMap (fun p => ⟨[], .comma⟩ :: p.tokens)
      ++ [close])) = (first :: others).map tokens := by
  induction others generalizing first with
  | nil => exact splitMembers_close first.spellsMember_tokens hclose []
  | cons next more ih =>
      rw [List.flatMap_cons, List.append_assoc, List.cons_append,
        splitMembers_comma first.spellsMember_tokens rfl, ih next]
      rfl

theorem rawMember?_tokens (p : Part) : rawMember? p.tokens = some p.raw := by
  obtain ⟨l, more, hrow⟩ := List.exists_cons_of_length_pos p.spells.length_pos
  have hsource : Token.source ((more.map fun l => (⟨[], l⟩ : Token))) = more.flatMap (·.text) := by
    simp [Token.source, Text.chars, List.flatMap_map]
  simp [tokens, lexemes, Lexeme.ofString, raw, rawMember?, hrow, verbatim, hsource,
    unescape_escape]

/-- The members of such an object are written as they were put in. -/
theorem rawMembers_object (first : Part) (others : List Part) (v : Json) :
    (Document.bare (object first others) v).rawMembers = (first :: others).map raw := by
  have htokens : (Document.bare (object first others) v).tokens =
      ⟨[], .openObject⟩ :: (first.tokens ++ (others.flatMap (fun p => ⟨[], .comma⟩ :: p.tokens)
        ++ [⟨[], .closeObject⟩])) := by
    simp [Document.bare, object, tokens, List.map_flatMap]
  have hraw : rawMember? ∘ tokens = some ∘ raw := funext fun p => p.rawMember?_tokens
  rw [Document.rawMembers_eq htokens rfl, splitMembers_object first others _ rfl,
    List.filterMap_map, hraw, List.filterMap_eq_map]

end Part

end VoxelScout.Json
