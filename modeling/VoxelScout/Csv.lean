import VoxelScout.Text.Blank

/-! # Tables as text

Records of fields, one record a line. A field that holds a comma, a quote or a line
break, or starts with a blank, stands in quotes, and its quotes are doubled. Reading is
strict about quotes; empty lines are skipped, and a carriage return before a line break
is dropped wherever it stands.
-/

namespace VoxelScout.Csv

/-! ## Writing -/

def isDelicate (c : Char) : Bool :=
  c == ',' || c == '"' || c == '\r' || c == '\n'

def needsQuotes (cs : List Char) : Bool :=
  cs == ['\\', '.'] || cs.any isDelicate || (cs.head?).any Text.isBlank

def doubleQuotes (cs : List Char) : List Char :=
  cs.flatMap fun c => if c == '"' then ['"', '"'] else [c]

def writeField (cs : List Char) : List Char :=
  if needsQuotes cs then '"' :: (doubleQuotes cs ++ ['"']) else cs

def joinFields : List (List Char) → List Char
  | [] => []
  | [f] => writeField f
  | f :: rest => writeField f ++ ',' :: joinFields rest

def writeRecord (fields : List String) : List Char :=
  joinFields (fields.map String.toList) ++ ['\n']

def write (records : List (List String)) : String :=
  String.ofList (records.flatMap writeRecord)

/-! ## Reading -/

/-- The text with line breaks in one form: a carriage return is dropped before a line
break and at the very end. -/
def unifyBreaks : List Char → List Char
  | [] => []
  | ['\r'] => []
  | '\r' :: '\n' :: rest => '\n' :: unifyBreaks rest
  | c :: rest => c :: unifyBreaks rest

inductive State where
  /-- Before a record. -/
  | start
  /-- Before a field that follows a comma. -/
  | field
  /-- In a field without quotes. -/
  | bare
  /-- In a field in quotes. -/
  | quoted
  /-- Behind a quote inside a field in quotes, which may end it. -/
  | closing
  deriving DecidableEq, Repr

/-- The fields of the present record: those that are complete, last first, and the
characters of the present one, last first. -/
structure Partial where
  fields : List String
  chars : List Char

def Partial.finishField (p : Partial) : Partial :=
  ⟨String.ofList p.chars.reverse :: p.fields, []⟩

def Partial.record (p : Partial) : List String :=
  p.finishField.fields.reverse

def Partial.push (p : Partial) (c : Char) : Partial :=
  { p with chars := c :: p.chars }

def readFrom : State → Partial → List Char → Option (List (List String))
  | .start, _, [] => some []
  | .quoted, _, [] => none
  | _, p, [] => some [p.record]
  | state, p, c :: rest =>
    match state with
    | .quoted => if c == '"' then readFrom .closing p rest else readFrom .quoted (p.push c) rest
    | .start =>
      if c == '\n' then readFrom .start p rest
      else if c == ',' then readFrom .field p.finishField rest
      else if c == '"' then readFrom .quoted p rest
      else readFrom .bare (p.push c) rest
    | .field =>
      if c == '\n' then (readFrom .start ⟨[], []⟩ rest).map (p.record :: ·)
      else if c == ',' then readFrom .field p.finishField rest
      else if c == '"' then readFrom .quoted p rest
      else readFrom .bare (p.push c) rest
    | .bare =>
      if c == '\n' then (readFrom .start ⟨[], []⟩ rest).map (p.record :: ·)
      else if c == ',' then readFrom .field p.finishField rest
      else if c == '"' then none
      else readFrom .bare (p.push c) rest
    | .closing =>
      if c == '\n' then (readFrom .start ⟨[], []⟩ rest).map (p.record :: ·)
      else if c == ',' then readFrom .field p.finishField rest
      else if c == '"' then readFrom .quoted (p.push c) rest
      else none

def isRectangular : List (List String) → Bool
  | [] => true
  | first :: rest => rest.all fun r => r.length == first.length

def read? (text : String) : Option (List (List String)) :=
  (readFrom .start ⟨[], []⟩ (unifyBreaks text.toList)).filter isRectangular

end VoxelScout.Csv
