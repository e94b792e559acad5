import VoxelScout.Json.Token
import VoxelScout.Decimal.Layout
import VoxelScout.Decimal.Reader

/-! # JSON values

A value keeps the members of an object in the order of the text, repeated keys
included, and the spelling of its numbers. `parse?` reads the bytes of a text, and
`write?` writes a value without blanks.
-/

namespace VoxelScout

inductive Json where
  | null
  | bool (value : Bool)
  | number (literal : String)
  | string (text : String)
  | array (items : List Json)
  | object (members : List (String × Json))
  deriving Inhabited

namespace Json

/-! ## Reading -/

mutual

def readValue : Nat → List Lexeme → Option (Json × List Lexeme)
  | 0, _ => none
  | fuel + 1, tokens =>
    match tokens with
    | .null :: rest => some (.null, rest)
    | .bool b :: rest => some (.bool b, rest)
    | .number text :: rest => some (.number (String.ofList text), rest)
    | .string source :: rest => some (.string (String.ofList (unescape source)), rest)
    | .openArray :: .closeArray :: rest => some (.array [], rest)
    | .openArray :: rest => (readItems fuel rest).map fun (items, rest) => (.array items, rest)
    | .openObject :: .closeObject :: rest => some (.object [], rest)
    | .openObject :: rest =>
      (readMembers fuel rest).map fun (members, rest) => (.object members, rest)
    | _ => none

def readItems : Nat → List Lexeme → Option (List Json × List Lexeme)
  | 0, _ => none
  | fuel + 1, tokens =>
    match readValue fuel tokens with
    | some (item, .comma :: rest) =>
      (readItems fuel rest).map fun (items, rest) => (item :: items, rest)
    | some (item, .closeArray :: rest) => some ([item], rest)
    | _ => none

def readMembers : Nat → List Lexeme → Option (List (String × Json) × List Lexeme)
  | 0, _ => none
  | fuel + 1, tokens =>
    match tokens with
    | .string source :: .colon :: rest =>
      let key := String.ofList (unescape source)
      match readValue fuel rest with
      | some (value, .comma :: rest) =>
        (readMembers fuel rest).map fun (members, rest) => ((key, value) :: members, rest)
      | some (value, .closeObject :: rest) => some ([(key, value)], rest)
      | _ => none
    | _ => none

end

/-- How deep arrays and objects lie inside each other at most, from a given depth. -/
def nesting : Nat → Nat → List Lexeme → Nat
  | _, deepest, [] => deepest
  | depth, deepest, .openObject :: rest => nesting (depth + 1) (max deepest (depth + 1)) rest
  | depth, deepest, .openArray :: rest => nesting (depth + 1) (max deepest (depth + 1)) rest
  | depth, deepest, .closeObject :: rest => nesting (depth - 1) deepest rest
  | depth, deepest, .closeArray :: rest => nesting (depth - 1) deepest rest
  | depth, deepest, _ :: rest => nesting depth deepest rest

def nestingLimit : Nat :=
  10000

/-- The value that tokens stand for, all of them used. Two units of fuel for each token
are enough. -/
def ofLexemes? (tokens : List Lexeme) : Option Json :=
  if nestingLimit < nesting 0 0 tokens then none
  else match readValue (2 * tokens.length) tokens with
    | some (value, []) => some value
    | _ => none

structure Document where
  tokens : List Token
  value : Json

def read? (bytes : List UInt8) : Option Document := do
  let tokens ← scan (Text.letters bytes)
  let value ← ofLexemes? (tokens.map (·.lexeme))
  pure ⟨tokens, value⟩

def parse? (bytes : List UInt8) : Option Json :=
  (read? bytes).map (·.value)

/-! ## Writing -/

def Lexeme.ofString (text : String) : Lexeme :=
  .string (Text.chars (escape text.toList))

mutual

def lexemes : Json → List Lexeme
  | .null => [.null]
  | .bool b => [.bool b]
  | .number literal => [.number literal.toList]
  | .string text => [Lexeme.ofString text]
  | .array items => .openArray :: (itemLexemes items ++ [.closeArray])
  | .object members => .openObject :: (memberLexemes members ++ [.closeObject])

def itemLexemes : List Json → List Lexeme
  | [] => []
  | [item] => item.lexemes
  | item :: rest => item.lexemes ++ .comma :: itemLexemes rest

def memberLexemes : List (String × Json) → List Lexeme
  | [] => []
  | [(key, value)] => .ofString key :: .colon :: value.lexemes
  | (key, value) :: rest =>
    .ofString key :: .colon :: (value.lexemes ++ .comma :: memberLexemes rest)

end

def bytes (value : Json) : List UInt8 :=
  Text.spell (value.lexemes.flatMap (·.text))

def render (value : Json) : String :=
  Text.ofBytes value.bytes

def isNumber (literal : String) : Bool :=
  match scanNumber literal.toList with
  | some (_, []) => true
  | _ => false

def write? (value : Json) : Option (List UInt8) :=
  let tokens := value.lexemes
  let fine := tokens.all fun
    | .number text => isNumber (String.ofList text)
    | _ => true
  if fine then some value.bytes else none

/-- What is said of JSON that cannot be read or written. -/
class Diagnostics where
  /-- Said of bytes that are not read as a value of the form of that name. -/
  unreadable : (form : String) → List UInt8 → String
  unwritable : Json → String

/-! ## Members as they are written -/

/-- The tokens of each member of an object, given those after the opening brace.
`depth` counts the arrays and objects that are open, and `current` holds the tokens of
the present member, last first. -/
def splitMembers : Nat → List Token → List Token → List (List Token)
  | _, _, [] => []
  | depth, current, t :: rest =>
    match t.lexeme with
    | .openObject => splitMembers (depth + 1) (t :: current) rest
    | .openArray => splitMembers (depth + 1) (t :: current) rest
    | .closeArray => splitMembers (depth - 1) (t :: current) rest
    | .closeObject =>
      if depth == 0 then (if current.isEmpty then [] else [current.reverse])
      else splitMembers (depth - 1) (t :: current) rest
    | .comma =>
      if depth == 0 then current.reverse :: splitMembers 0 [] rest
      else splitMembers depth (t :: current) rest
    | _ => splitMembers depth (t :: current) rest

/-- The bytes of a value as it was written, without the blanks around it. -/
def verbatim : List Token → List UInt8
  | [] => []
  | t :: rest => Text.spell (t.lexeme.text ++ Token.source rest)

def Document.rawMembers (doc : Document) : List (String × List UInt8) :=
  match doc.tokens with
  | t :: rest =>
    if t.lexeme == .openObject then
      (splitMembers 0 [] rest).filterMap fun
        | ⟨_, .string source⟩ :: _ :: value =>
          some (String.ofList (unescape source), verbatim value)
        | _ => none
    else []
  | [] => []

/-! ## Numbers -/

def int (i : Int) : Json :=
  .number (if i < 0 then "-" ++ Decimal.digitString i.natAbs else Decimal.digitString i.natAbs)

def nat (n : Nat) : Json :=
  .number (Decimal.digitString n)

def float (x : Float) : Json :=
  .number (Decimal.number x)

def orNull {α : Type} (f : α → Json) : Option α → Json
  | none => .null
  | some a => f a

end Json

end VoxelScout
