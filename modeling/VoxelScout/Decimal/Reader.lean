import VoxelScout.Decimal.Exact

/-! # Reading numbers

Numerals as people write them in tables and settings: decimal or with a base
mark, with underscores between digits, with a fraction and an exponent, or the
name of a value that is not finite. Reading to floating point is to nearest;
what is too large to be finite is refused.
-/

namespace VoxelScout.Decimal

/-- The value of a digit: ten letters and on count from `a` in either case. -/
def digitValue? (c : Char) : Option Nat :=
  if '0' ≤ c && c ≤ '9' then some (c.toNat - 48)
  else if 'a' ≤ c && c ≤ 'z' then some (c.toNat - 87)
  else if 'A' ≤ c && c ≤ 'Z' then some (c.toNat - 55)
  else none

def isDigit (c : Char) : Bool :=
  '0' ≤ c && c ≤ '9'

/-- The numeral in a base, most significant digit first, continuing from `acc`;
underscores are passed over. -/
def readDigits? (base : Nat) : Nat → List Char → Option Nat
  | acc, [] => some acc
  | acc, '_' :: rest => readDigits? base acc rest
  | acc, c :: rest =>
    match digitValue? c with
    | some d => if d < base then readDigits? base (acc * base + d) rest else none
    | none => none

def digitsToNat (cs : List Char) : Nat :=
  cs.foldl (fun acc c => if isDigit c then acc * 10 + (c.toNat - 48) else acc) 0

/-- What the character before an underscore may be, while checking that each
underscore stands between digits. -/
inductive Seen where
  | start
  | digit
  | underscore
  | other
  deriving DecidableEq

/-- Each underscore has a digit (or a base mark) on its left and a digit on its
right. -/
def underscoresSeparate (hex : Bool) : Seen → List Char → Bool
  | seen, [] => seen != .underscore
  | seen, c :: rest =>
    if isDigit c || (hex && (digitValue? c).any (· < 16)) then underscoresSeparate hex .digit rest
    else if c == '_' then seen == .digit && underscoresSeparate hex .underscore rest
    else seen != .underscore && underscoresSeparate hex .other rest

def underscoresOk (cs : List Char) : Bool :=
  let body := match cs with
    | '+' :: rest => rest
    | '-' :: rest => rest
    | rest => rest
  match body with
  | '0' :: m :: rest =>
    if m == 'x' || m == 'X' then underscoresSeparate true .digit rest
    else if m == 'b' || m == 'B' || m == 'o' || m == 'O' then underscoresSeparate false .digit rest
    else underscoresSeparate false .start body
  | _ => underscoresSeparate false .start body

/-- A natural number: decimal, or binary, octal or hexadecimal after `0b`, `0o` or
`0x`; a leading zero alone also marks octal. -/
def readNat? (cs : List Char) : Option Nat :=
  if cs.contains '_' && !underscoresOk cs then none
  else match cs with
    | [] => none
    | '0' :: m :: d :: rest =>
      if m == 'b' || m == 'B' then readDigits? 2 0 (d :: rest)
      else if m == 'o' || m == 'O' then readDigits? 8 0 (d :: rest)
      else if m == 'x' || m == 'X' then readDigits? 16 0 (d :: rest)
      else readDigits? 8 0 (m :: d :: rest)
    | '0' :: rest => readDigits? 8 0 rest
    | _ => readDigits? 10 0 cs

def readInt? (cs : List Char) : Option Int :=
  if cs.contains '_' && !underscoresOk cs then none
  else match cs with
    | '+' :: rest => (readNat? rest).map Int.ofNat
    | '-' :: rest => (readNat? rest).map fun n => -(n : Int)
    | _ => (readNat? cs).map Int.ofNat

def fitsInt64 (i : Int) : Bool :=
  -9223372036854775808 ≤ i && i ≤ 9223372036854775807

def fitsWord (n : Nat) : Bool :=
  n < Nat.pow 2 64

def nearest (negative : Bool) (coefficient : Nat) (exponent : Int) : Float :=
  let magnitude := match exponent with
    | .ofNat k => Float.ofScientific coefficient false k
    | .negSucc k => Float.ofScientific coefficient true (k + 1)
  if negative then -magnitude else magnitude

def nearest? (negative : Bool) (coefficient : Nat) (exponent : Int) : Option Float :=
  let x := nearest negative coefficient exponent
  if x.isInf then none else some x

def readExponent? (cs : List Char) : Option Int :=
  let (negative, digits) := match cs with
    | '+' :: rest => (false, rest)
    | '-' :: rest => (true, rest)
    | rest => (false, rest)
  match digits with
  | [] => none
  | d :: _ =>
    if isDigit d && digits.all (fun c => isDigit c || c == '_') then
      let n := digitsToNat digits
      some (if negative then -(n : Int) else n)
    else none

/-- The parts of an unsigned numeral with a fraction: the digits before and after
the point (underscores included), and the text from the exponent mark on. -/
def splitFraction (isMantissaDigit : Char → Bool) (cs : List Char) :
    List Char × List Char × List Char :=
  let whole := cs.takeWhile isMantissaDigit
  match cs.dropWhile isMantissaDigit with
  | '.' :: rest => (whole, rest.takeWhile isMantissaDigit, rest.dropWhile isMantissaDigit)
  | rest => (whole, [], rest)

def readDecimal? (negative : Bool) (cs : List Char) : Option Float :=
  let (whole, fraction, rest) := splitFraction (fun c => isDigit c || c == '_') cs
  if !(whole ++ fraction).any isDigit then none
  else
    let coefficient := digitsToNat (whole ++ fraction)
    let places : Int := (fraction.filter isDigit).length
    match rest with
    | [] => nearest? negative coefficient (-places)
    | e :: rest =>
      if e == 'e' || e == 'E' then
        (readExponent? rest).bind fun x => nearest? negative coefficient (x - places)
      else none

/-- A hexadecimal numeral with an optional fraction and a binary exponent, which it
must have. The powers of two become powers of ten exactly. -/
def readHexadecimal? (negative : Bool) (cs : List Char) : Option Float :=
  let isHex := fun c => (digitValue? c).any (· < 16)
  let (whole, fraction, rest) := splitFraction (fun c => isHex c || c == '_') cs
  if !(whole ++ fraction).any isHex then none
  else
    match readDigits? 16 0 (whole ++ fraction), rest with
    | some coefficient, p :: rest =>
      if p == 'p' || p == 'P' then
        (readExponent? rest).bind fun x =>
          let x := x - 4 * ((fraction.filter isHex).length : Int)
          if coefficient == 0 then nearest? negative 0 0
          else if x > 5000 then none
          else if x < -5000 - coefficient.log2 then nearest? negative 0 0
          else match x with
            | .ofNat k => nearest? negative (coefficient * Nat.pow 2 k) 0
            | .negSucc k => nearest? negative (coefficient * Nat.pow 5 (k + 1)) (.negSucc k)
      else none
    | _, _ => none

/-- A floating point number: decimal or hexadecimal, with an optional sign, or
`inf`, `infinity` or `nan` in any case (the last one without a sign). -/
def readFloat? (cs : List Char) : Option Float :=
  if cs.contains '_' && !underscoresOk cs then none
  else
    let (negative, hasSign, body) := match cs with
      | '+' :: rest => (false, true, rest)
      | '-' :: rest => (true, true, rest)
      | rest => (false, false, rest)
    let word := String.ofList (body.map fun c =>
      if 'A' ≤ c && c ≤ 'Z' then Char.ofNat (c.toNat + 32) else c)
    if word == "inf" || word == "infinity" then
      some (if negative then -(1.0 / 0.0) else 1.0 / 0.0)
    else if word == "nan" && !hasSign then some (0.0 / 0.0)
    else match body with
      | '0' :: m :: d :: rest =>
        if m == 'x' || m == 'X' then readHexadecimal? negative (d :: rest)
        else readDecimal? negative body
      | _ => readDecimal? negative body

end VoxelScout.Decimal
