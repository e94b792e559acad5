import VoxelScout.Proofs.Json.Fields
import VoxelScout.Proofs.Json.Members

/-! # The form of messages

A message is written as an object of its type, its time and its data, and whatever tokens
the data is written in, that object is read as the message.
-/

namespace VoxelScout.Wire.Message

open Json

/-- Data of a message, as a row of tokens with the value it spells. -/
structure Content where
  row : List Lexeme
  value : Json
  spells : Spells row value
  sound : ∀ l ∈ row, l.Sound
  shallow : value.height < nestingLimit

def Content.bytes (c : Content) : List UInt8 :=
  Text.spell (c.row.flatMap (·.text))

theorem Content.read?_bytes (c : Content) : read? c.bytes = some (Document.bare c.row c.value) :=
  read?_row c.sound c.spells c.shallow.le

/-! ## The parts of a message -/

def kindPart (kind : String) : Part :=
  ⟨"type", .string kind, _, spells_lexemes _, fun _ => (writable_string kind).sound⟩

def timePart (time : Int) : Part :=
  ⟨"ts", .int time, _, spells_lexemes _, fun _ => (writable_int time).sound⟩

def Content.part (c : Content) : Part :=
  ⟨"data", c.value, c.row, c.spells, c.sound⟩

def parts (time : Int) (data : Option Content) : List Part :=
  (if time == 0 then [] else [timePart time]) ++ (data.map Content.part).toList

def envelope (kind : String) (time : Int) (data : Option Content) : List UInt8 :=
  Text.spell ((Part.object (kindPart kind) (parts time data)).flatMap (·.text))

theorem write?_eq_envelope (m : Message) (data : Option Content)
    (h : m.dataLexemes? =
      some (data.elim [] fun c => .comma :: member "data" c.row)) :
    m.write? = some (envelope m.kind m.time data) := by
  have hrow : Part.object (kindPart m.kind) (parts m.time data) =
      .openObject :: (member "type" (Json.string m.kind).lexemes
        ++ (if m.time == 0 then [] else .comma :: member "ts" (Json.int m.time).lexemes)
        ++ data.elim [] (fun c => .comma :: member "data" c.row) ++ [.closeObject]) := by
    unfold parts
    split <;> cases data <;>
      simp [Part.object, Part.lexemes, kindPart, timePart, Content.part, member]
  rw [write?, h, envelope, hrow]
  rfl

/-! ## Reading the parts -/

/-- The members of a message, of which all but the first may be left out. -/
def sheet (kind : String) (time : Int) (data : Option Content) : Sheet where
  fields := [("type", some (.string kind)), ("ts", if time == 0 then none else some (.int time)),
    ("data", data.map (·.value))]

theorem members_eq_present (kind : String) (time : Int) (data : Option Content) :
    (kindPart kind).member :: (parts time data).map Part.member =
      present (sheet kind time data).fields := by
  unfold parts sheet
  split <;> cases data <;> rfl

theorem read?_envelope (kind : String) (time : Int) (data : Option Content) :
    read? (envelope kind time data) =
      some (Document.bare (Part.object (kindPart kind) (parts time data))
        (sheet kind time data).toJson) := by
  have hspells := Part.spells_object (kindPart kind) (parts time data)
  rw [members_eq_present] at hspells
  refine read?_row (Part.sound_object _ _) hspells (height_object_le ?_)
  intro m hm
  simp only [present, sheet, List.mem_filterMap, List.mem_cons, List.not_mem_nil,
    or_false] at hm
  obtain ⟨f, rfl | rfl | rfl, hf⟩ := hm
  · cases hf
    exact Nat.zero_le _
  · obtain ⟨v, hv, rfl⟩ := Option.map_eq_some_iff.mp hf
    split at hv
    · cases hv
    · cases hv
      exact Nat.zero_le _
  · obtain ⟨v, hv, rfl⟩ := Option.map_eq_some_iff.mp hf
    obtain ⟨c, -, rfl⟩ := Option.map_eq_some_iff.mp hv
    exact Nat.le_of_lt_succ c.shallow

theorem rawField?_data (kind : String) (time : Int) (data : Option Content) :
    rawField? ((kindPart kind :: parts time data).map Part.raw) "data" =
      data.map Content.bytes := by
  have hkind : Text.sameFold "type" "data" = false := by decide
  have htime : Text.sameFold "ts" "data" = false := by decide
  have hdata : Text.sameFold "data" "data" = true := by decide
  unfold parts
  split <;> cases data <;>
    simp [rawField?, Part.raw, kindPart, timePart, Content.part, Content.bytes, hkind, htime, hdata]

/-- A message is read back from its bytes. -/
theorem parse_envelope {kind : String} (hkind : kind ≠ "") {time : Int}
    (htime : Decimal.fitsInt64 time = true) (data : Option Content) :
    parse (envelope kind time data) = .ok ⟨kind, time, data.map Content.bytes⟩ := by
  have htype : field (present (sheet kind time data).fields) "type" asString "" = some kind :=
    (sheet kind time data).field_at 0 rfl asString ""
  have hts : field (present (sheet kind time data).fields) "ts" asInt 0 = some time := by
    rw [(sheet kind time data).field_at 1 rfl]
    split
    · next hzero => rw [beq_iff_eq.mp hzero]; rfl
    · exact asInt_int htime 0
  have hraw := rawField?_data kind time data
  rw [← Part.rawMembers_object _ _ (sheet kind time data).toJson] at hraw
  rw [parse, read?_envelope, Option.bind_some]
  simp only [ofDocument?, Document.bare, Sheet.toJson] at hraw ⊢
  simp [htype, hts, hraw, hkind]

/-! ## Data that was read -/

def Content.ofDocument (doc : Document) (hdoc : doc.Sound)
    (hshallow : doc.value.height < nestingLimit) : Content where
  row := doc.tokens.map fun t => t.lexeme.harden
  value := doc.value
  spells := by
    have hspells := hdoc.spells.map_harden fun l hl => by
      obtain ⟨t, ht, rfl⟩ := List.mem_map.mp hl
      exact (hdoc.tokens t ht).2
    rwa [List.map_map] at hspells
  sound := by
    intro l hl
    obtain ⟨t, ht, rfl⟩ := List.mem_map.mp hl
    exact (hdoc.tokens t ht).2.harden
  shallow := hshallow

theorem dataLexemes?_of_read? {m : Message} {bytes : List UInt8} (hdata : m.data = some bytes)
    {doc : Document} (hread : read? bytes = some doc) :
    m.dataLexemes? =
      some (.comma :: member "data" (doc.tokens.map fun t => t.lexeme.harden)) := by
  unfold dataLexemes?
  split
  · next hnone =>
    rw [hdata] at hnone
    cases hnone
  · next hempty =>
    rw [hdata] at hempty
    cases hempty
    cases hread
  · next bytes' _ hsome =>
    rw [hdata] at hsome
    cases hsome
    rw [hread]
    rfl

/-- A message with data that can be read is written with these data. -/
theorem write?_of_read? {m : Message} {bytes : List UInt8} (hdata : m.data = some bytes)
    {doc : Document} (hread : read? bytes = some doc) (hshallow : doc.value.height < nestingLimit) :
    m.write? = some (envelope m.kind m.time
      (some (Content.ofDocument doc (sound_of_read? hread) hshallow))) :=
  write?_eq_envelope m _ (dataLexemes?_of_read? hdata hread)

theorem decode?_of_read? {m : Message} {bytes : List UInt8} (hdata : m.data = some bytes)
    {doc : Document} (hread : read? bytes = some doc) {α : Type} (read : Decoder α) (fresh : α) :
    m.decode? read fresh = read fresh doc.value := by
  simp [decode?, hdata, parse?, hread]

end VoxelScout.Wire.Message
