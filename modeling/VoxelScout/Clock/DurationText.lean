import VoxelScout.Clock
import VoxelScout.Decimal.Reader
import VoxelScout.Scalar.Binary64

/-! # Durations as text

A duration is written as a sum of amounts with units, such as `1h30m` or `-1.5s`.
Each amount has digits before or after its point; a zero alone needs no unit.
-/

namespace VoxelScout.Duration

def unit? (name : String) : Option Nat :=
  if name == "ns" then some 1
  else if name == "us" || name == "µs" || name == "μs" then some 1000
  else if name == "ms" then some 1000000
  else if name == "s" then some 1000000000
  else if name == "m" then some 60000000000
  else if name == "h" then some 3600000000000
  else none

/-- The bound that no sum may pass: one more than the longest duration. -/
def bound : Nat :=
  Nat.pow 2 63

/-- The fraction after a point as a numerator and the number of digits it has; digits
that no longer fit the range are dropped. -/
def fractionParts : Nat → Nat → Bool → List Char → Nat × Nat
  | x, scale, _, [] => (x, scale)
  | x, scale, full, c :: rest =>
    let y := x * 10 + (c.toNat - 48)
    if full || x > (bound - 1) / 10 || y > bound then fractionParts x scale true rest
    else fractionParts y (scale + 1) false rest

/-- The nanoseconds of a fraction of a unit, rounded as floating point rounds them and
then cut down. -/
def fractionNanos (x digits unit : Nat) : Nat :=
  if x == 0 then 0
  else
    let scale := (List.range digits).foldl (fun s _ => s * 10.0) (1.0 : Float)
    (Binary64.truncateWord (Float.ofNat x * (Float.ofNat unit / scale))).toNat

def readTerms? : Nat → Nat → List Char → Option Nat
  | _, total, [] => some total
  | 0, _, _ => none
  | fuel + 1, total, cs =>
    let whole := cs.takeWhile Decimal.isDigit
    let (fraction, rest) := match cs.dropWhile Decimal.isDigit with
      | '.' :: rest => (rest.takeWhile Decimal.isDigit, rest.dropWhile Decimal.isDigit)
      | rest => ([], rest)
    let isUnit := fun c => !(Decimal.isDigit c || c == '.')
    match unit? (String.ofList (rest.takeWhile isUnit)) with
    | none => none
    | some unit =>
      let n := Decimal.digitsToNat whole
      if whole.isEmpty && fraction.isEmpty then none
      else if n > bound || n > bound / unit then none
      else
        let (x, digits) := fractionParts 0 0 false fraction
        let amount := n * unit + fractionNanos x digits unit
        let sum := (total + amount) % Nat.pow 2 64
        if amount > bound || sum > bound then none
        else readTerms? fuel sum (rest.dropWhile isUnit)

def ofText? (text : String) : Option Duration :=
  let cs := text.toList
  let (negative, body) := match cs with
    | '+' :: rest => (false, rest)
    | '-' :: rest => (true, rest)
    | rest => (false, rest)
  if body == ['0'] then some 0
  else if body.isEmpty then none
  else match readTerms? body.length 0 body with
    | none => none
    | some n =>
      if negative then some (-(n : Int))
      else if n < bound then some n
      else none

end VoxelScout.Duration
