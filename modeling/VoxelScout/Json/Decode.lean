import VoxelScout.Json
import VoxelScout.Text.Case

/-! # Reading values into records

A record is read over one that is already there: a member replaces or refines the
field of its name, members of other names are passed over, and `null` leaves a plain
field alone but empties an optional one. Names are compared without regard to case,
and of members with the same name the later is read over the result of the earlier.
-/

namespace VoxelScout.Json

/-- Reading a value over an earlier one of type `α`. -/
abbrev Decoder (α : Type) := α → Json → Option α

/-- The field of a name: every member of that name, read in order over what is there. -/
def field {α : Type} (members : List (String × Json)) (name : String) (read : Decoder α)
    (base : α) : Option α :=
  (members.filter fun m => Text.sameFold m.1 name).foldlM (fun acc m => read acc m.2) base

/-- A record: `null` leaves it alone, an object is read member by member. -/
def record {α : Type} (read : List (String × Json) → α → Option α) : Decoder α
  | base, .null => some base
  | base, .object members => read members base
  | _, _ => none

def asString : Decoder String
  | base, .null => some base
  | _, .string s => some s
  | _, _ => none

def asBool : Decoder Bool
  | base, .null => some base
  | _, .bool b => some b
  | _, _ => none

def literalFloat? (literal : String) : Option Float :=
  match literal.toList with
  | '-' :: rest => Decimal.readDecimal? true rest
  | rest => Decimal.readDecimal? false rest

/-- A floating point number; one that is too large to be finite is refused. -/
def asFloat : Decoder Float
  | base, .null => some base
  | _, .number literal => literalFloat? literal
  | _, _ => none

def literalInt? (literal : String) : Option Int :=
  match literal.toList with
  | '-' :: rest => if rest.all isDigit then some (-(Decimal.digitsToNat rest : Int)) else none
  | rest => if rest.all isDigit then some (Decimal.digitsToNat rest : Int) else none

def asInt : Decoder Int
  | base, .null => some base
  | _, .number literal => (literalInt? literal).filter Decimal.fitsInt64
  | _, _ => none

def asByte : Decoder UInt8
  | base, .null => some base
  | _, .number literal =>
    let digits := literal.toList
    if digits.all isDigit && Decimal.digitsToNat digits < 256 then
      some (UInt8.ofNat (Decimal.digitsToNat digits))
    else none
  | _, _ => none

/-- An optional value: `null` empties it, anything else is read over what is there, or
over `fresh` when nothing is. -/
def optional {α : Type} (read : Decoder α) (fresh : α) : Decoder (Option α)
  | _, .null => some none
  | base, value => (read (base.getD fresh) value).map some

/-- A list under construction: the items it has, and items of an earlier, longer list
behind them, over which further items would be read. -/
structure Slots (α : Type) where
  items : Option (List α)
  spare : List α

def readSlots {α : Type} (read : Decoder α) (fresh : α) :
    List α → List Json → Option (List α × List α)
  | earlier, [] => some ([], earlier)
  | earlier, v :: rest => do
    let item ← read (earlier.headD fresh) v
    let (items, spare) ← readSlots read fresh earlier.tail rest
    pure (item :: items, spare)

/-- A list read over another one: `null` removes the list, and items are read over the
earlier items at the same places. -/
def slots {α : Type} (read : Decoder α) (fresh : α) : Decoder (Slots α)
  | _, .null => some ⟨none, []⟩
  | _, .array [] => some ⟨some [], []⟩
  | base, .array values =>
    (readSlots read fresh (base.items.getD [] ++ base.spare) values).map fun (items, spare) =>
      ⟨some items, spare⟩
  | _, _ => none

def listField {α : Type} (members : List (String × Json)) (name : String) (read : Decoder α)
    (fresh : α) (base : Option (List α)) : Option (Option (List α)) :=
  (field members name (slots read fresh) ⟨base, []⟩).map (·.items)

end VoxelScout.Json
