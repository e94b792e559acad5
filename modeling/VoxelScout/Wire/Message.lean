import VoxelScout.Json.Decode

/-! # Messages on the wire

A message has a type, a time stamp in milliseconds, and data whose meaning depends on the
type. The data is kept as the bytes it was written in; it is read when it is needed, and
written again without blanks.
-/

namespace VoxelScout.Wire

open Json

structure Message where
  kind : String
  time : Int
  /-- The bytes of the data, if there is any. -/
  data : Option (List UInt8)
  deriving DecidableEq, Repr

inductive ParseError where
  /-- Not JSON, or not of the form of a message. -/
  | malformed
  /-- A message without a type. -/
  | missingType
  deriving DecidableEq, Repr

def ParseError.message (explanation : String) : ParseError → String
  | .malformed => "failed to parse message: " ++ explanation
  | .missingType => "failed to parse message: missing type"

namespace Message

/-- The last value among the members of a name. -/
def rawField? (members : List (String × List UInt8)) (name : String) : Option (List UInt8) :=
  ((members.filter fun m => Text.sameFold m.1 name).getLast?).map (·.2)

def ofDocument? (doc : Document) : Option Message :=
  match doc.value with
  | .null => some ⟨"", 0, none⟩
  | .object members => do
    let kind ← field members "type" asString ""
    let time ← field members "ts" asInt 0
    pure ⟨kind, time, rawField? doc.rawMembers "data"⟩
  | _ => none

def parse (bytes : List UInt8) : Except ParseError Message :=
  match (Json.read? bytes).bind ofDocument? with
  | none => .error .malformed
  | some m => if m.kind == "" then .error .missingType else .ok m

def member (key : String) (value : List Lexeme) : List Lexeme :=
  .ofString key :: .colon :: value

def dataLexemes? (m : Message) : Option (List Lexeme) :=
  match m.data with
  | none => some []
  | some [] => some []
  | some bytes =>
    (Json.read? bytes).map fun doc =>
      .comma :: member "data" (doc.tokens.map fun t => t.lexeme.harden)

/-- The bytes of a message; a zero time stamp is left out, and data that is not JSON
cannot be written. -/
def write? (m : Message) : Option (List UInt8) := do
  let data ← m.dataLexemes?
  let time := if m.time == 0 then [] else .comma :: member "ts" (Json.int m.time).lexemes
  let tokens := .openObject :: (member "type" (Json.string m.kind).lexemes ++ time ++ data
    ++ [.closeObject])
  pure (Text.spell (tokens.flatMap (·.text)))

/-- The data read over a fresh value; without data the value stays fresh. -/
def decode? {α : Type} (m : Message) (read : Decoder α) (fresh : α) : Option α :=
  match m.data with
  | none => some fresh
  | some bytes => (Json.parse? bytes).bind (read fresh)

end Message

end VoxelScout.Wire
