import VoxelScout.Bot.Report
import VoxelScout.Csv
import VoxelScout.Decimal.Reader
import VoxelScout.Scalar.Binary64

/-! # Rows of a trace

A trace is a table with one row for each player and tick. Its columns are found by their
names, so that a table may have them in any order, lack some and have others besides.
-/

namespace VoxelScout.Trace

structure Row where
  tick : UInt64 := 0
  time : Int := 0
  playerId : String := ""
  name : String := ""
  visibility : String := ""
  inLineOfSight : Bool := false
  located : Bool := false
  x : Float := 0
  y : Float := 0
  z : Float := 0
  health : String := ""
  crouching : String := ""
  heldItem : String := ""
  /-- Zero when the player was never in plain sight. -/
  lastSeen : Int := 0
  deriving Repr

def rowOf (report : Report Float) (b : Belief Float) : Row :=
  let position := b.position.getD Vec.zero
  { tick := UInt64.ofNat report.tick
    time := report.time.toMilliseconds
    playerId := b.id.render
    name := b.name
    visibility := b.visibility.name
    inLineOfSight := b.inLineOfSight
    located := b.position.isSome
    x := position.x
    y := position.y
    z := position.z
    health := b.health.name
    crouching := b.crouching.name
    heldItem := Item.nameOf b.heldItem
    lastSeen := if b.lastSeen.isUnset then 0 else b.lastSeen.toMilliseconds }

def rows (report : Report Float) : List Row :=
  report.players.map (rowOf report)

def header : List String :=
  ["tick", "time_ms", "player_id", "name", "visibility", "in_line_of_sight", "located", "x", "y",
    "z", "health", "crouching", "held_item", "last_seen_ms"]

def boolCell (b : Bool) : String :=
  if b then "true" else "false"

def intCell (i : Int) : String :=
  Decimal.signed (i < 0) (Decimal.digitString i.natAbs)

def Row.cells (r : Row) : List String :=
  [Decimal.digitString r.tick.toNat, intCell r.time, r.playerId, r.name, r.visibility,
    boolCell r.inLineOfSight, boolCell r.located, Decimal.plain r.x, Decimal.plain r.y,
    Decimal.plain r.z, r.health, r.crouching, r.heldItem, intCell r.lastSeen]

/-! ## Reading cells -/

/-- A cell that is blank reads as `zero`, any other as `read` says of its trimmed text. -/
def readCell? {α : Type} (zero : α) (read : List Char → Option α) (cell : String) : Option α :=
  match Text.trimChars cell.toList with
  | [] => some zero
  | cs => read cs

/-- A truth value: `yes` and `no` in any case, or one of the usual spellings. -/
def readBool? (cs : List Char) : Option Bool :=
  let s := String.ofList cs
  if Text.sameFold s "yes" then some true
  else if Text.sameFold s "no" then some false
  else if ["1", "t", "T", "TRUE", "true", "True"].contains s then some true
  else if ["0", "f", "F", "FALSE", "false", "False"].contains s then some false
  else none

/-- A 64-bit integer; what follows a point is ignored. -/
def readInt? (cs : List Char) : Option Int :=
  (Decimal.readInt? (cs.takeWhile (· != '.'))).filter Decimal.fitsInt64

/-- A 64-bit word; with a point it is read as a floating point number and cut. -/
def readWord? (cs : List Char) : Option UInt64 :=
  if cs.contains '.' then (Decimal.readFloat? cs).map Binary64.truncateWord
  else ((Decimal.readNat? cs).filter Decimal.fitsWord).map UInt64.ofNat

def readFloat? (cs : List Char) : Option Float :=
  Decimal.readFloat? (cs.map fun c => if c == ',' then '.' else c)

def Row.set? (r : Row) (column cell : String) : Option Row :=
  match column with
  | "tick" => (readCell? 0 readWord? cell).map fun v => { r with tick := v }
  | "time_ms" => (readCell? 0 readInt? cell).map fun v => { r with time := v }
  | "player_id" => some { r with playerId := cell }
  | "name" => some { r with name := cell }
  | "visibility" => some { r with visibility := cell }
  | "in_line_of_sight" =>
    (readCell? false readBool? cell).map fun v => { r with inLineOfSight := v }
  | "located" => (readCell? false readBool? cell).map fun v => { r with located := v }
  | "x" => (readCell? 0 readFloat? cell).map fun v => { r with x := v }
  | "y" => (readCell? 0 readFloat? cell).map fun v => { r with y := v }
  | "z" => (readCell? 0 readFloat? cell).map fun v => { r with z := v }
  | "health" => some { r with health := cell }
  | "crouching" => some { r with crouching := cell }
  | "held_item" => some { r with heldItem := cell }
  | "last_seen_ms" => (readCell? 0 readInt? cell).map fun v => { r with lastSeen := v }
  | _ => some r

/-- Characters without width that editors leave at the start of a file. -/
def isWidthless (c : Char) : Bool :=
  let n := c.toNat
  n == 0x200B || n == 0xFEFF || n == 0x200D || n == 0x200C

/-- The column that a head of the table stands for, if any: the head itself, or the head
without blanks around it, or without characters of no width. -/
def column? (head : String) : Option String :=
  let bare := String.ofList (head.toList.filter fun c => !isWidthless c)
  header.find? fun k => head == k || Text.trim head == k || bare == k

/-- The row of a record, column by column; of two columns of one name the later wins. -/
def readRow? (columns : List (Option String)) (record : List String) : Option Row :=
  (columns.zip record).foldlM (fun r (column, cell) =>
    match column with
    | none => some r
    | some k => r.set? k cell) {}

inductive ReadError where
  /-- There is no record at all. -/
  | empty
  /-- The table or one of its cells cannot be read. -/
  | unreadable
  deriving DecidableEq, Repr

def ReadError.message : ReadError → String
  | .empty => "reading trace: empty csv file given"
  | .unreadable => "reading trace"

def read (text : String) : Except ReadError (List Row) :=
  match Csv.read? text with
  | none => .error .unreadable
  | some [] => .error .empty
  | some (heads :: records) =>
    match records.mapM (readRow? (heads.map column?)) with
    | none => .error .unreadable
    | some rows => .ok rows

end VoxelScout.Trace
