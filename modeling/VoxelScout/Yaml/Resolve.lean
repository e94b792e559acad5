import VoxelScout.Clock.DateText
import VoxelScout.Decimal.Reader
import VoxelScout.Scalar.Binary64
import VoxelScout.Text.Base64
import VoxelScout.Text.Utf8
import VoxelScout.Yaml

/-! # What a scalar means

Plain text may be the spelling of nothing, of a truth value or of a number; all other
text stands for itself, and so does all quoted text. A tag may ask for another reading.
Values are read over others that are already there: what a text leaves out stays as it is.
-/

namespace VoxelScout.Yaml

inductive Meaning where
  | null
  | bool (value : Bool)
  | int (value : Int)
  | float (value : Float)
  | text (value : String)

/-- The spellings that are looked up before any number is tried. -/
def namedMeaning? (text : String) : Option Meaning :=
  if ["", "~", "null", "Null", "NULL"].contains text then some .null
  else if ["true", "True", "TRUE"].contains text then some (.bool true)
  else if ["false", "False", "FALSE"].contains text then some (.bool false)
  else if [".nan", ".NaN", ".NAN"].contains text then some (.float Binary64.nan)
  else if [".inf", ".Inf", ".INF", "+.inf", "+.Inf", "+.INF"].contains text then
    some (.float Binary64.inf)
  else if ["-.inf", "-.Inf", "-.INF"].contains text then some (.float (-Binary64.inf))
  else none

def unsigned : List Char → List Char
  | '+' :: rest => rest
  | '-' :: rest => rest
  | rest => rest

/-- The spelling of a decimal number: digits with an optional fraction, or a fraction
alone, then an optional exponent. -/
def isDecimal (cs : List Char) : Bool :=
  let body := unsigned cs
  let rest := body.dropWhile Decimal.isDigit
  let (fraction, rest) := match rest with
    | '.' :: rest => (rest.takeWhile Decimal.isDigit, rest.dropWhile Decimal.isDigit)
    | rest => ([], rest)
  let mantissa := !(body.takeWhile Decimal.isDigit).isEmpty || !fraction.isEmpty
  mantissa && match rest with
    | [] => true
    | e :: rest =>
      let digits := unsigned rest
      (e == 'e' || e == 'E') && !digits.isEmpty && digits.all Decimal.isDigit

/-- An integer of at most 64 bits: signed, or unsigned without a sign. -/
def wordInt? (cs : List Char) : Option Int :=
  match (Decimal.readInt? cs).filter Decimal.fitsInt64 with
  | some i => some i
  | none => ((Decimal.readNat? cs).filter Decimal.fitsWord).map Int.ofNat

def digitsOf? (base : Nat) (cs : List Char) : Option Int :=
  let digits := unsigned cs
  let value := digits.foldl (fun n c => base * n + (c.toNat - '0'.toNat)) 0
  if digits.isEmpty || !digits.all fun c => Decimal.isDigit c && c.toNat - '0'.toNat < base then
    none
  else some (if cs.head? == some '-' then -value else value)

/-- An integer whose sign stands behind the mark of its base. -/
def innerSigned? (cs : List Char) : Option Int :=
  let value := match cs with
    | '0' :: 'b' :: rest => digitsOf? 2 rest
    | '0' :: 'o' :: rest => digitsOf? 8 rest
    | _ => none
  value.filter Decimal.fitsInt64

/-- The number that plain text spells, if it does: underscores are left out of it, and
text that begins with a point is tried as a fraction alone. -/
def number? (cs : List Char) : Option Meaning :=
  match cs with
  | [] => none
  | c :: _ =>
    if c == '.' then (Decimal.readFloat? cs).map .float
    else if Decimal.isDigit c || c == '+' || c == '-' then
      let plain := cs.filter (· != '_')
      match wordInt? plain with
      | some i => some (.int i)
      | none =>
        let float := if isDecimal plain then (Decimal.readFloat? plain).map .float else none
        float.orElse fun _ => (innerSigned? plain).map .int
    else none

def plainMeaning (text : String) : Meaning :=
  ((namedMeaning? text).orElse fun _ => number? text.toList).getD (.text text)

def mergeKey : String :=
  "<<"

/-- The meaning of text under a tag. A tag of the simple kinds asks for a spelling of that
kind, where integers count as numbers with a fraction; text may be written as bytes; and
under a tag that is not known text stands for itself. -/
def taggedMeaning? (tag text : String) : Option Meaning :=
  match tag, plainMeaning text with
  | "!!null", .null => some .null
  | "!!bool", .bool b => some (.bool b)
  | "!!int", .int i => some (.int i)
  | "!!float", .int i => if Decimal.fitsInt64 i then some (.float (Float.ofInt i)) else none
  | "!!float", .float x => some (.float x)
  | "!!timestamp", .text s => if DateText.isTimestamp s.toList then some (.text s) else none
  | "!!binary", _ => (Text.bytesOfBase64? text).map fun bytes => .text (Text.ofBytes bytes)
  | _, _ =>
    if ["!!null", "!!bool", "!!int", "!!float", "!!timestamp"].contains tag then none
    else some (.text text)

def meaning? (text : String) : Sense → Option Meaning
  | .plain => some (plainMeaning text)
  | .text => some (.text text)
  | .tagged tag => taggedMeaning? tag text

/-! ## Reading over defaults -/

abbrev Overlay (α : Type) := α → Yaml → Option α

/-- The value itself, also behind a reference. -/
def target? : Yaml → Option Yaml
  | .reference _ target => target
  | v => some v

/-- A scalar: one that means nothing leaves what is there. -/
def overScalar {α : Type} (read : String → Meaning → Option α) : Overlay α :=
  fun base v =>
    match target? v with
    | some (.scalar text sense) =>
      match meaning? text sense with
      | some .null => some base
      | some m => read text m
      | none => none
    | _ => none

/-- The text of a scalar that means something: as it is written, unless it means text. -/
def Meaning.textOr (written : String) : Meaning → String
  | .text s => s
  | _ => written

/-- Text: whatever a scalar means, as it is written. -/
def overText : Overlay String :=
  overScalar fun written m => some (m.textOr written)

def overBool : Overlay Bool :=
  overScalar fun _ m =>
    match m with
    | .bool b => some b
    | .text s =>
      if ["y", "Y", "yes", "Yes", "YES", "on", "On", "ON"].contains s then some true
      else if ["n", "N", "no", "No", "NO", "off", "Off", "OFF"].contains s then some false
      else none
    | _ => none

def overFloat : Overlay Float :=
  overScalar fun _ m =>
    match m with
    | .int i => some (Float.ofInt i)
    | .float x => some x
    | _ => none

def overWord : Overlay UInt64 :=
  overScalar fun _ m =>
    match m with
    | .int i => if 0 ≤ i then some (UInt64.ofNat i.toNat) else none
    | .float x => if x ≤ 18446744073709551616.0 then some (Binary64.truncateWord x) else none
    | _ => none

/-! ## Records -/

def isMerge : Yaml → Bool
  | .scalar text sense => text == mergeKey && (sense == .plain || sense == .tagged "!!merge")
  | _ => false

mutual

/-- The entries of a mapping, then those of the mappings that it takes over. -/
def layers? : Yaml → Option (List (List (Yaml × Yaml)))
  | .mapping entries => (takenOver? entries).map (entries :: ·)
  | .reference _ (some v) => layers? v
  | _ => none

/-- The entries that a mapping takes over: those of one mapping or of a list of them. -/
def takenOver? : List (Yaml × Yaml) → Option (List (List (Yaml × Yaml)))
  | [] => some []
  | (key, value) :: rest =>
    if isMerge key then
      match value with
      | .sequence items => layersOfAll? items
      | v => layers? v
    else takenOver? rest

def layersOfAll? : List Yaml → Option (List (List (Yaml × Yaml)))
  | [] => some []
  | v :: rest => do
    let first ← layers? v
    let more ← layersOfAll? rest
    pure (first ++ more)

end

inductive KeyMark where
  | scalar (text : String)
  | reference (anchor : String)
  | sequence
  | mapping
  deriving DecidableEq

def keyMark : Yaml → KeyMark
  | .scalar text _ => .scalar text
  | .reference anchor _ => .reference anchor
  | .sequence _ => .sequence
  | .mapping _ => .mapping

def keyName? (key : Yaml) : Option (Option String) :=
  match target? key with
  | some (.scalar text sense) =>
    (meaning? text sense).map fun
      | .null => none
      | m => some (m.textOr text)
  | _ => none

structure Partial (α : Type) where
  record : α
  names : List String

/-- One entry: the field of its name reads it, if there is one. A name that was met before
is passed over where entries are `taken` from another mapping. -/
def Partial.add {α : Type} (field : String → Option (Overlay α)) (taken : Bool)
    (p : Partial α) (entry : Yaml × Yaml) : Option (Partial α) :=
  if isMerge entry.1 then some p
  else do
    match ← keyName? entry.1 with
    | none => some p
    | some name =>
      let met := p.names.contains name
      match field name with
      | none => some p
      | some read =>
        if met then if taken then some p else none
        else return ⟨← read p.record entry.2, name :: p.names⟩

def Partial.addAll {α : Type} (field : String → Option (Overlay α)) (taken : Bool)
    (p : Partial α) (entries : List (Yaml × Yaml)) : Option (Partial α) :=
  if (entries.map (keyMark ·.1)).Nodup then entries.foldlM (Partial.add field taken) p
  else none

/-- A record: a mapping whose entries are read by the field of their name. Entries of other
names are passed over, and so is a missing mapping; an entry of the mapping itself comes
before one that it takes over. -/
def overRecord {α : Type} (field : String → Option (Overlay α)) : Overlay α :=
  fun base v =>
    match target? v with
    | some (.scalar text sense) =>
      match meaning? text sense with
      | some .null => some base
      | _ => none
    | some v => do
      match ← layers? v with
      | [] => some base
      | own :: others =>
        let p ← Partial.addAll field false ⟨base, []⟩ own
        let p ← others.foldlM (Partial.addAll field true) p
        pure p.record
    | none => none

end VoxelScout.Yaml
