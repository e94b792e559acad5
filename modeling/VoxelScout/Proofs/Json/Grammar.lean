import VoxelScout.Proofs.Json.Scanning

/-! # What rows of tokens stand for

A row of tokens spells a value when it differs from the tokens that the value is written
with in the spelling of strings only. The reader takes exactly these rows, up to a limit
of nesting, and text that was read once is read in the same way from its tokens.
-/

namespace VoxelScout.Json

/-! ## Induction on values -/

theorem inductionOn {motive : Json → Prop} (null : motive .null) (bool : ∀ b, motive (.bool b))
    (number : ∀ literal, motive (.number literal)) (string : ∀ text, motive (.string text))
    (array : ∀ items, (∀ v ∈ items, motive v) → motive (.array items))
    (object : ∀ members, (∀ m ∈ members, motive m.2) → motive (.object members)) (v : Json) :
    motive v :=
  @Json.rec motive (fun items => ∀ v ∈ items, motive v) (fun ms => ∀ m ∈ ms, motive m.2)
    (fun m => motive m.2) null bool number string array object (by simp)
    (fun _ _ hv hrest => List.forall_mem_cons.mpr ⟨hv, hrest⟩) (by simp)
    (fun _ _ hm hrest => List.forall_mem_cons.mpr ⟨hm, hrest⟩) (fun _ _ hv => hv) v

/-! ## Rows and values -/

/-- The token with its string, if it is one, spelled as it would be written. -/
def Lexeme.canon : Lexeme → Lexeme
  | .string source => .ofString (String.ofList (unescape source))
  | other => other

/-- The row of tokens spells the value. -/
def Spells (row : List Lexeme) (v : Json) : Prop :=
  row.map Lexeme.canon = v.lexemes

theorem Lexeme.canon_eq_iff {l m : Lexeme} (hm : ∀ source, m ≠ .string source) :
    l.canon = m ↔ l = m := by
  cases l with
  | string source =>
      constructor
      · exact fun h => absurd h.symm (hm _)
      · exact fun h => absurd h.symm (hm _)
  | _ => rfl

theorem Lexeme.ofString_inj {s t : String} : Lexeme.ofString s = .ofString t ↔ s = t := by
  constructor
  · intro h
    have htexts := congrArg unescape (Lexeme.string.inj h)
    rw [unescape_escape, unescape_escape] at htexts
    exact String.toList_inj.mp htexts
  · exact congrArg Lexeme.ofString

theorem Lexeme.canon_eq_ofString {l : Lexeme} {text : String} :
    l.canon = .ofString text ↔
      ∃ source, l = .string source ∧ String.ofList (unescape source) = text := by
  cases l with
  | string source => simp [canon, ofString_inj]
  | _ => simp [canon, ofString]

theorem Lexeme.canon_ofString (text : String) :
    (Lexeme.ofString text).canon = .ofString text :=
  canon_eq_ofString.mpr ⟨_, rfl, by rw [unescape_escape, String.ofList_toList]⟩

/-- Brackets around a row are spelled in one way only. -/
theorem map_canon_eq_bracketed {row inner : List Lexeme} {left right : Lexeme}
    (hleft : ∀ source, left ≠ .string source) (hright : ∀ source, right ≠ .string source) :
    row.map Lexeme.canon = left :: (inner ++ [right]) ↔
      ∃ row', row = left :: (row' ++ [right]) ∧ row'.map Lexeme.canon = inner := by
  constructor
  · intro h
    obtain ⟨l, rest, rfl, hl, hrest⟩ := List.map_eq_cons_iff.mp h
    obtain ⟨row', last, rfl, hinner, hlast⟩ := List.map_eq_append_iff.mp hrest
    obtain ⟨r, rfl, hr⟩ := List.map_eq_singleton_iff.mp hlast
    rw [Lexeme.canon_eq_iff hleft] at hl
    rw [Lexeme.canon_eq_iff hright] at hr
    exact ⟨row', by rw [hl, hr], hinner⟩
  · rintro ⟨row', rfl, rfl⟩
    simp [(Lexeme.canon_eq_iff hleft).mpr, (Lexeme.canon_eq_iff hright).mpr]

/-- So are commas. -/
theorem map_canon_eq_append_comma {row first rest : List Lexeme} :
    row.map Lexeme.canon = first ++ .comma :: rest ↔
      ∃ row₁ row₂, row = row₁ ++ .comma :: row₂ ∧ row₁.map Lexeme.canon = first ∧
        row₂.map Lexeme.canon = rest := by
  constructor
  · intro h
    obtain ⟨row₁, tail, rfl, hfirst, htail⟩ := List.map_eq_append_iff.mp h
    obtain ⟨l, row₂, rfl, hl, hrest⟩ := List.map_eq_cons_iff.mp htail
    rw [Lexeme.canon_eq_iff (by simp)] at hl
    exact ⟨row₁, row₂, by rw [hl], hfirst, hrest⟩
  · rintro ⟨row₁, row₂, rfl, rfl, rfl⟩
    simp [Lexeme.canon]

theorem itemLexemes_cons_cons (item next : Json) (more : List Json) :
    itemLexemes (item :: next :: more) =
      itemLexemes [item] ++ .comma :: itemLexemes (next :: more) := by
  simp [itemLexemes]

theorem memberLexemes_cons_cons (m next : String × Json) (more : List (String × Json)) :
    memberLexemes (m :: next :: more) =
      memberLexemes [m] ++ .comma :: memberLexemes (next :: more) := by
  simp [memberLexemes]

theorem spells_array_iff {row : List Lexeme} {items : List Json} :
    Spells row (.array items) ↔
      ∃ inner, row = .openArray :: (inner ++ [.closeArray]) ∧
        inner.map Lexeme.canon = itemLexemes items := by
  rw [Spells, lexemes, map_canon_eq_bracketed (by simp) (by simp)]

theorem spells_object_iff {row : List Lexeme} {members : List (String × Json)} :
    Spells row (.object members) ↔
      ∃ inner, row = .openObject :: (inner ++ [.closeObject]) ∧
        inner.map Lexeme.canon = memberLexemes members := by
  rw [Spells, lexemes, map_canon_eq_bracketed (by simp) (by simp)]

theorem map_canon_eq_item_iff {row : List Lexeme} {item : Json} :
    row.map Lexeme.canon = itemLexemes [item] ↔ Spells row item :=
  Iff.rfl

theorem map_canon_eq_member_iff {row : List Lexeme} {m : String × Json} :
    row.map Lexeme.canon = memberLexemes [m] ↔
      ∃ source value, row = .string source :: .colon :: value ∧
        String.ofList (unescape source) = m.1 ∧ Spells value m.2 := by
  rw [memberLexemes]
  constructor
  · intro h
    obtain ⟨k, rest, rfl, hk, hrest⟩ := List.map_eq_cons_iff.mp h
    obtain ⟨c, value, rfl, hc, hvalue⟩ := List.map_eq_cons_iff.mp hrest
    rw [Lexeme.canon_eq_iff (by simp)] at hc
    obtain ⟨source, rfl, hsource⟩ := Lexeme.canon_eq_ofString.mp hk
    exact ⟨source, value, by rw [hc], hsource, hvalue⟩
  · rintro ⟨source, value, rfl, hkey, hvalue⟩
    rw [← hkey, ← hvalue]
    simp [Lexeme.canon]

/-! ## Reading a row -/

theorem exists_cons_lexemes (v : Json) :
    ∃ l more, v.lexemes = l :: more ∧ l.delimits = false := by
  cases v <;> exact ⟨_, _, rfl, rfl⟩

theorem readValue_openArray {fuel : Nat} {tokens : List Lexeme}
    (h : tokens.head? ≠ some .closeArray) :
    readValue (fuel + 1) (.openArray :: tokens) =
      (readItems fuel tokens).map fun (items, rest) => (.array items, rest) := by
  rw [readValue]
  rintro rest rfl
  exact h rfl

theorem readValue_openObject {fuel : Nat} {tokens : List Lexeme}
    (h : tokens.head? ≠ some .closeObject) :
    readValue (fuel + 1) (.openObject :: tokens) =
      (readMembers fuel tokens).map fun (members, rest) => (.object members, rest) := by
  rw [readValue]
  rintro rest rfl
  exact h rfl

theorem Spells.length_pos {row : List Lexeme} {v : Json} (h : Spells row v) : 0 < row.length := by
  obtain ⟨l, more, hlexemes, -⟩ := exists_cons_lexemes v
  rw [Spells, hlexemes] at h
  have hlength := congrArg List.length h
  simp only [List.length_map, List.length_cons] at hlength
  omega

/-- No value starts with a bracket that ends one. -/
theorem Spells.head?_ne {row : List Lexeme} {v : Json} (h : Spells row v) (rest : List Lexeme)
    {close : Lexeme} (hclose : close.delimits = true) : (row ++ rest).head? ≠ some close := by
  obtain ⟨l, more, hlexemes, hl⟩ := exists_cons_lexemes v
  rw [Spells, hlexemes] at h
  obtain ⟨l', row', rfl, hcanon, -⟩ := List.map_eq_cons_iff.mp h
  rintro ⟨⟩
  cases close with
  | comma | closeArray | closeObject =>
      rw [← hcanon] at hl
      cases hl
  | _ => cases hclose

theorem head?_items_ne {row : List Lexeme} {item : Json} {others : List Json}
    (h : row.map Lexeme.canon = itemLexemes (item :: others)) (rest : List Lexeme) :
    (row ++ rest).head? ≠ some .closeArray := by
  cases others with
  | nil => exact (map_canon_eq_item_iff.mp h).head?_ne rest rfl
  | cons next more =>
      rw [itemLexemes_cons_cons, map_canon_eq_append_comma] at h
      obtain ⟨first, others, rfl, hfirst, -⟩ := h
      rw [List.append_assoc]
      exact (map_canon_eq_item_iff.mp hfirst).head?_ne _ rfl

theorem head?_members_ne {row : List Lexeme} {m : String × Json} {others : List (String × Json)}
    (h : row.map Lexeme.canon = memberLexemes (m :: others)) (rest : List Lexeme) :
    (row ++ rest).head? ≠ some .closeObject := by
  have hkey : (memberLexemes (m :: others)).head? = some (.ofString m.1) := by
    cases others <;> simp [memberLexemes]
  cases row with
  | nil =>
      rw [← h] at hkey
      cases hkey
  | cons l more =>
      rw [← h, List.map_cons, List.head?_cons, Option.some.injEq] at hkey
      obtain ⟨source, rfl, -⟩ := Lexeme.canon_eq_ofString.mp hkey
      simp

/-- However the value is spelled, and whatever follows it, it is read from two units of fuel
for each of its tokens. -/
def Legible (v : Json) : Prop :=
  ∀ row fuel rest, Spells row v → 2 * row.length ≤ fuel + 1 →
    readValue fuel (row ++ rest) = some (v, rest)

theorem readItems_append {items : List Json} (hitems : ∀ v ∈ items, Legible v) (hne : items ≠ [])
    {row : List Lexeme} (h : row.map Lexeme.canon = itemLexemes items) {fuel : Nat}
    (hfuel : 2 * row.length ≤ fuel) (rest : List Lexeme) :
    readItems fuel (row ++ .closeArray :: rest) = some (items, rest) := by
  induction items generalizing row fuel with
  | nil => exact absurd rfl hne
  | cons item others ih =>
      have hitem : Legible item := hitems item List.mem_cons_self
      cases others with
      | nil =>
          have hspells : Spells row item := map_canon_eq_item_iff.mp h
          have hpos := hspells.length_pos
          obtain ⟨fuel, rfl⟩ : ∃ n, fuel = n + 1 := ⟨fuel - 1, by omega⟩
          rw [readItems, hitem row fuel _ hspells hfuel]
      | cons next more =>
          rw [itemLexemes_cons_cons, map_canon_eq_append_comma] at h
          obtain ⟨first, others, rfl, hfirst, hothers⟩ := h
          have hspells : Spells first item := map_canon_eq_item_iff.mp hfirst
          rw [List.length_append, List.length_cons] at hfuel
          obtain ⟨fuel, rfl⟩ : ∃ n, fuel = n + 1 := ⟨fuel - 1, by omega⟩
          have hmore := ih (fun v hv => hitems v (List.mem_cons_of_mem item hv)) (by simp)
            hothers (show 2 * others.length ≤ fuel by omega)
          rw [List.append_assoc, List.cons_append, readItems,
            hitem first fuel _ hspells (by omega)]
          simp [hmore]

theorem readMembers_append {members : List (String × Json)}
    (hmembers : ∀ m ∈ members, Legible m.2) (hne : members ≠ []) {row : List Lexeme}
    (h : row.map Lexeme.canon = memberLexemes members) {fuel : Nat}
    (hfuel : 2 * row.length ≤ fuel) (rest : List Lexeme) :
    readMembers fuel (row ++ .closeObject :: rest) = some (members, rest) := by
  induction members generalizing row fuel with
  | nil => exact absurd rfl hne
  | cons m others ih =>
      have hm : Legible m.2 := hmembers m List.mem_cons_self
      cases others with
      | nil =>
          obtain ⟨source, value, rfl, hkey, hspells⟩ := map_canon_eq_member_iff.mp h
          simp only [List.length_cons] at hfuel
          obtain ⟨fuel, rfl⟩ : ∃ n, fuel = n + 1 := ⟨fuel - 1, by omega⟩
          rw [List.cons_append, List.cons_append, readMembers,
            hm value fuel _ hspells (by omega)]
          simp [hkey]
      | cons next more =>
          rw [memberLexemes_cons_cons, map_canon_eq_append_comma] at h
          obtain ⟨first, others, rfl, hfirst, hothers⟩ := h
          obtain ⟨source, value, rfl, hkey, hspells⟩ := map_canon_eq_member_iff.mp hfirst
          simp only [List.length_append, List.length_cons] at hfuel
          obtain ⟨fuel, rfl⟩ : ∃ n, fuel = n + 1 := ⟨fuel - 1, by omega⟩
          have hmore := ih (fun m' hm' => hmembers m' (List.mem_cons_of_mem m hm')) (by simp)
            hothers (show 2 * others.length ≤ fuel by omega)
          simp only [List.cons_append, List.append_assoc]
          rw [readMembers, hm value fuel _ hspells (by omega)]
          simp [hmore, hkey]

/-- Every value is read back from each of its spellings. -/
theorem legible (v : Json) : Legible v := by
  induction v using inductionOn
  all_goals
    intro row fuel rest h hfuel
    have hpos := h.length_pos
    obtain ⟨fuel, rfl⟩ : ∃ n, fuel = n + 1 := ⟨fuel - 1, by omega⟩
  case null | bool | number =>
    obtain ⟨l, rfl, hl⟩ := List.map_eq_singleton_iff.mp h
    rw [Lexeme.canon_eq_iff (by simp)] at hl
    simp [hl, readValue]
  case string =>
    obtain ⟨l, rfl, hl⟩ := List.map_eq_singleton_iff.mp h
    obtain ⟨source, rfl, hsource⟩ := Lexeme.canon_eq_ofString.mp hl
    simp [readValue, hsource]
  case array items ih =>
    obtain ⟨inner, rfl, hinner⟩ := spells_array_iff.mp h
    cases items with
    | nil =>
        rw [itemLexemes, List.map_eq_nil_iff] at hinner
        simp [hinner, readValue]
    | cons item others =>
        simp only [List.length_cons, List.length_append] at hfuel
        have hitems := readItems_append ih (by simp) hinner
          (show 2 * inner.length ≤ fuel by omega) rest
        have hhead := head?_items_ne hinner (.closeArray :: rest)
        simp only [List.cons_append, List.append_assoc, List.nil_append]
        rw [readValue_openArray hhead, hitems]
        rfl
  case object members ih =>
    obtain ⟨inner, rfl, hinner⟩ := spells_object_iff.mp h
    cases members with
    | nil =>
        rw [memberLexemes, List.map_eq_nil_iff] at hinner
        simp [hinner, readValue]
    | cons m others =>
        simp only [List.length_cons, List.length_append] at hfuel
        have hmembers := readMembers_append ih (by simp) hinner
          (show 2 * inner.length ≤ fuel by omega) rest
        have hhead := head?_members_ne hinner (.closeObject :: rest)
        simp only [List.cons_append, List.append_assoc, List.nil_append]
        rw [readValue_openObject hhead, hmembers]
        rfl

/-! ## What was read -/

/-- What the reader takes for a value, for items and for members, with the given fuel. -/
structure ReadsRows (fuel : Nat) : Prop where
  value : ∀ {tokens rest v}, readValue fuel tokens = some (v, rest) →
    ∃ row, tokens = row ++ rest ∧ Spells row v
  items : ∀ {tokens rest items}, readItems fuel tokens = some (items, rest) →
    items ≠ [] ∧ ∃ row, tokens = row ++ .closeArray :: rest ∧
      row.map Lexeme.canon = itemLexemes items
  members : ∀ {tokens rest members}, readMembers fuel tokens = some (members, rest) →
    members ≠ [] ∧ ∃ row, tokens = row ++ .closeObject :: rest ∧
      row.map Lexeme.canon = memberLexemes members

theorem ReadsRows.readValue {fuel : Nat} (ih : ReadsRows fuel) {tokens rest : List Lexeme}
    {v : Json} (h : readValue (fuel + 1) tokens = some (v, rest)) :
    ∃ row, tokens = row ++ rest ∧ Spells row v := by
  rw [Json.readValue.eq_def] at h
  split at h
  · cases h
  · next fuel' hfuel =>
    cases hfuel
    split at h
    case h_1 | h_2 =>
      cases h
      exact ⟨[_], rfl, rfl⟩
    case h_3 =>
      cases h
      exact ⟨[_], rfl, by simp [Spells, lexemes, Lexeme.canon]⟩
    case h_4 =>
      cases h
      exact ⟨[_], rfl, by simp [Spells, lexemes, Lexeme.canon]⟩
    case h_5 | h_7 =>
      cases h
      exact ⟨[_, _], rfl, rfl⟩
    case h_6 =>
      obtain ⟨⟨items, after⟩, hitems, heq⟩ := Option.map_eq_some_iff.mp h
      cases heq
      obtain ⟨-, row, rfl, hrow⟩ := ih.items hitems
      exact ⟨.openArray :: (row ++ [.closeArray]), by simp, spells_array_iff.mpr ⟨row, rfl, hrow⟩⟩
    case h_8 =>
      obtain ⟨⟨members, after⟩, hmembers, heq⟩ := Option.map_eq_some_iff.mp h
      cases heq
      obtain ⟨-, row, rfl, hrow⟩ := ih.members hmembers
      exact ⟨.openObject :: (row ++ [.closeObject]), by simp,
        spells_object_iff.mpr ⟨row, rfl, hrow⟩⟩
    case h_9 => cases h

theorem ReadsRows.readItems {fuel : Nat} (ih : ReadsRows fuel) {tokens rest : List Lexeme}
    {items : List Json} (h : readItems (fuel + 1) tokens = some (items, rest)) :
    items ≠ [] ∧ ∃ row, tokens = row ++ .closeArray :: rest ∧
      row.map Lexeme.canon = itemLexemes items := by
  rw [Json.readItems] at h
  split at h
  · next item more hvalue =>
    obtain ⟨⟨others, after⟩, hothers, heq⟩ := Option.map_eq_some_iff.mp h
    cases heq
    obtain ⟨first, rfl, hfirst⟩ := ih.value hvalue
    obtain ⟨hne, row, rfl, hrow⟩ := ih.items hothers
    obtain ⟨next, more, rfl⟩ := List.exists_cons_of_ne_nil hne
    refine ⟨by simp, first ++ .comma :: row, by simp, ?_⟩
    rw [itemLexemes_cons_cons, map_canon_eq_append_comma]
    exact ⟨first, row, rfl, map_canon_eq_item_iff.mpr hfirst, hrow⟩
  · next item more hvalue =>
    cases h
    obtain ⟨row, rfl, hrow⟩ := ih.value hvalue
    exact ⟨by simp, row, rfl, map_canon_eq_item_iff.mpr hrow⟩
  · cases h

theorem ReadsRows.readMembers {fuel : Nat} (ih : ReadsRows fuel) {tokens rest : List Lexeme}
    {members : List (String × Json)} (h : readMembers (fuel + 1) tokens = some (members, rest)) :
    members ≠ [] ∧ ∃ row, tokens = row ++ .closeObject :: rest ∧
      row.map Lexeme.canon = memberLexemes members := by
  rw [Json.readMembers.eq_def] at h
  dsimp only at h
  split at h
  · next source body =>
    split at h
    · next value more hvalue =>
      obtain ⟨⟨others, after⟩, hothers, heq⟩ := Option.map_eq_some_iff.mp h
      cases heq
      obtain ⟨first, rfl, hfirst⟩ := ih.value hvalue
      obtain ⟨hne, row, rfl, hrow⟩ := ih.members hothers
      obtain ⟨next, more, rfl⟩ := List.exists_cons_of_ne_nil hne
      refine ⟨by simp, .string source :: .colon :: first ++ .comma :: row, by simp, ?_⟩
      rw [memberLexemes_cons_cons, map_canon_eq_append_comma]
      exact ⟨_, row, rfl, map_canon_eq_member_iff.mpr ⟨source, first, rfl, rfl, hfirst⟩, hrow⟩
    · next value more hvalue =>
      cases h
      obtain ⟨row, rfl, hrow⟩ := ih.value hvalue
      exact ⟨by simp, .string source :: .colon :: row, rfl,
        map_canon_eq_member_iff.mpr ⟨source, row, rfl, rfl, hrow⟩⟩
    · cases h
  · cases h

theorem readsRows (fuel : Nat) : ReadsRows fuel := by
  induction fuel with
  | zero =>
      constructor
      · intro tokens rest v h
        simp [readValue] at h
      · intro tokens rest items h
        simp [readItems] at h
      · intro tokens rest members h
        simp [readMembers] at h
  | succ fuel ih => exact ⟨ih.readValue, ih.readItems, ih.readMembers⟩

/-! ## Nesting -/

mutual

def height : Json → Nat
  | .array items => itemsHeight items + 1
  | .object members => membersHeight members + 1
  | _ => 0

def itemsHeight : List Json → Nat
  | [] => 0
  | item :: rest => max item.height (itemsHeight rest)

def membersHeight : List (String × Json) → Nat
  | [] => 0
  | (_, value) :: rest => max value.height (membersHeight rest)

end

theorem height_le_membersHeight {members : List (String × Json)} {m : String × Json}
    (h : m ∈ members) : m.2.height ≤ membersHeight members := by
  induction members with
  | nil => cases h
  | cons first rest ih =>
      rw [membersHeight]
      rcases List.mem_cons.mp h with rfl | h
      · exact Nat.le_max_left _ _
      · exact (ih h).trans (Nat.le_max_right _ _)

theorem height_array_le {items : List Json} {n : Nat} (h : ∀ v ∈ items, v.height ≤ n) :
    (Json.array items).height ≤ n + 1 := by
  rw [height]
  induction items with
  | nil => simp [itemsHeight]
  | cons item rest ih =>
      have hitem := h item List.mem_cons_self
      have hrest := ih fun v hv => h v (List.mem_cons_of_mem item hv)
      rw [itemsHeight]
      omega

theorem height_object_le {members : List (String × Json)} {n : Nat}
    (h : ∀ m ∈ members, m.2.height ≤ n) : (Json.object members).height ≤ n + 1 := by
  rw [height]
  induction members with
  | nil => simp [membersHeight]
  | cons m rest ih =>
      have hm := h m List.mem_cons_self
      have hrest := ih fun m' hm' => h m' (List.mem_cons_of_mem m hm')
      rw [membersHeight]
      omega

/-- Behind the value, the nesting is again what it was, and the value has been seen. -/
def Nests (row : List Lexeme) (height : Nat) : Prop :=
  ∀ depth deepest rest, depth ≤ deepest →
    nesting depth deepest (row ++ rest) = nesting depth (max deepest (depth + height)) rest

theorem Nests.append {row row' : List Lexeme} {n n' : Nat} (h : Nests row n) (h' : Nests row' n') :
    Nests (row ++ row') (max n n') := by
  intro depth deepest rest hdepth
  rw [List.append_assoc, h depth deepest _ hdepth, h' depth _ rest (by omega)]
  congr 1
  omega

theorem nests_of_flat {l : Lexeme}
    (h : ∀ depth deepest rest, nesting depth deepest (l :: rest) = nesting depth deepest rest) :
    Nests [l] 0 := by
  intro depth deepest rest hdepth
  rw [List.singleton_append, h, Nat.add_zero, Nat.max_eq_left hdepth]

theorem nests_itemLexemes {items : List Json} (h : ∀ v ∈ items, Nests v.lexemes v.height) :
    Nests (itemLexemes items) (itemsHeight items) := by
  induction items with
  | nil =>
      intro depth deepest rest hdepth
      simp [itemLexemes, itemsHeight, hdepth]
  | cons item others ih =>
      have hitem := h item List.mem_cons_self
      have hothers := ih fun v hv => h v (List.mem_cons_of_mem item hv)
      cases others with
      | nil => simpa [itemLexemes, itemsHeight] using hitem
      | cons next more =>
          have hcomma : Nests [.comma] 0 := nests_of_flat fun _ _ _ => rfl
          rw [itemLexemes_cons_cons, itemsHeight]
          simpa [itemLexemes] using hitem.append (hcomma.append hothers)

theorem nests_memberLexemes {members : List (String × Json)}
    (h : ∀ m ∈ members, Nests m.2.lexemes m.2.height) :
    Nests (memberLexemes members) (membersHeight members) := by
  induction members with
  | nil =>
      intro depth deepest rest hdepth
      simp [memberLexemes, membersHeight, hdepth]
  | cons m others ih =>
      have hm := h m List.mem_cons_self
      have hothers := ih fun m' hm' => h m' (List.mem_cons_of_mem m hm')
      have hkey : Nests [.ofString m.1] 0 := nests_of_flat fun _ _ _ => rfl
      have hcolon : Nests [.colon] 0 := nests_of_flat fun _ _ _ => rfl
      have hmember := hkey.append (hcolon.append hm)
      cases others with
      | nil => simpa [memberLexemes, membersHeight] using hmember
      | cons next more =>
          have hcomma : Nests [.comma] 0 := nests_of_flat fun _ _ _ => rfl
          rw [memberLexemes_cons_cons, membersHeight]
          simpa [memberLexemes] using hmember.append (hcomma.append hothers)

theorem nests_lexemes (v : Json) : Nests v.lexemes v.height := by
  induction v using inductionOn with
  | null | bool | number | string => exact nests_of_flat fun _ _ _ => rfl
  | array items ih =>
      intro depth deepest rest hdepth
      simp only [lexemes, height, List.cons_append, List.append_assoc, List.nil_append, nesting]
      rw [nests_itemLexemes ih (depth + 1) _ _ (by omega), nesting, Nat.add_sub_cancel]
      congr 1
      omega
  | object members ih =>
      intro depth deepest rest hdepth
      simp only [lexemes, height, List.cons_append, List.append_assoc, List.nil_append, nesting]
      rw [nests_memberLexemes ih (depth + 1) _ _ (by omega), nesting, Nat.add_sub_cancel]
      congr 1
      omega

theorem nesting_map_canon (row : List Lexeme) (depth deepest : Nat) :
    nesting depth deepest (row.map Lexeme.canon) = nesting depth deepest row := by
  induction row generalizing depth deepest with
  | nil => rfl
  | cons l rest ih => cases l <;> simp [Lexeme.canon, Lexeme.ofString, nesting, ih]

theorem Spells.nesting_eq {row : List Lexeme} {v : Json} (h : Spells row v) :
    nesting 0 0 row = v.height := by
  have hnests := nests_lexemes v 0 0 [] le_rfl
  rw [List.append_nil] at hnests
  rw [← nesting_map_canon, h, hnests, nesting]
  omega

/-- A row of tokens is read as the value that it spells, unless that is nested too deep. -/
theorem ofLexemes?_eq_some_iff {row : List Lexeme} {v : Json} :
    ofLexemes? row = some v ↔ Spells row v ∧ v.height ≤ nestingLimit := by
  unfold ofLexemes?
  constructor
  · intro h
    split at h
    · cases h
    · next hlimit =>
      split at h
      · next value hvalue =>
        cases h
        obtain ⟨row', rfl, hrow⟩ := (readsRows _).value hvalue
        rw [List.append_nil] at hlimit ⊢
        exact ⟨hrow, by rw [← hrow.nesting_eq]; omega⟩
      · cases h
  · rintro ⟨h, hheight⟩
    have hread := legible v row (2 * row.length) [] h (by omega)
    rw [List.append_nil] at hread
    rw [h.nesting_eq, if_neg (by omega), hread]

end VoxelScout.Json
