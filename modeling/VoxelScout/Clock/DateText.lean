import VoxelScout.Decimal.Reader

/-! # Dates and times as text

A date is a year of four digits, a month and a day, as in `2001-2-28`. A time of day may
follow: behind a `T` it has a zone, and behind blanks it has none.
-/

namespace VoxelScout.DateText

def behind? (c : Char) : List Char → Option (List Char)
  | d :: rest => if c == d then some rest else none
  | [] => none

def shortNumber? (cs : List Char) : Option (Nat × List Char) :=
  let digits := (cs.take 2).takeWhile Decimal.isDigit
  if digits.isEmpty then none
  else some (Decimal.digitsToNat digits, cs.drop digits.length)

def daysIn (year month : Nat) : Nat :=
  if month == 2 then
    if year % 4 == 0 && (year % 100 != 0 || year % 400 == 0) then 29 else 28
  else if [4, 6, 9, 11].contains month then 30
  else 31

def behindDate? (cs : List Char) : Option (List Char) := do
  let digits := cs.takeWhile Decimal.isDigit
  guard (digits.length == 4)
  let year := Decimal.digitsToNat digits
  let (month, rest) ← shortNumber? (← behind? '-' (cs.drop 4))
  let (day, rest) ← shortNumber? (← behind? '-' rest)
  guard (1 ≤ month && month ≤ 12 && 1 ≤ day && day ≤ daysIn year month)
  pure rest

def behindFraction : List Char → List Char
  | point :: digit :: rest =>
    if (point == '.' || point == ',') && Decimal.isDigit digit then
      rest.dropWhile Decimal.isDigit
    else point :: digit :: rest
  | rest => rest

def behindTime? (cs : List Char) : Option (List Char) := do
  let (hour, rest) ← shortNumber? cs
  let (minute, rest) ← shortNumber? (← behind? ':' rest)
  let (second, rest) ← shortNumber? (← behind? ':' rest)
  guard (hour < 24 && minute < 60 && second < 60)
  pure (behindFraction rest)

def isZone : List Char → Bool
  | ['Z'] => true
  | [sign, a, b, ':', c, d] =>
    (sign == '+' || sign == '-') && [a, b, c, d].all Decimal.isDigit
      && Decimal.digitsToNat [a, b] ≤ 24 && Decimal.digitsToNat [c, d] ≤ 60
  | _ => false

def isTimestamp (cs : List Char) : Bool :=
  match behindDate? cs with
  | some [] => true
  | some ('T' :: rest) => (behindTime? rest).any isZone
  | some ('t' :: rest) => (behindTime? rest).any isZone
  | some (' ' :: rest) => behindTime? (rest.dropWhile (· == ' ')) == some []
  | _ => false

end VoxelScout.DateText
