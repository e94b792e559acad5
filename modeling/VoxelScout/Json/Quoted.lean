import VoxelScout.Text.Utf8

/-! # Quoted text

The letters between the quotes of a JSON string. `escape` writes any text, and
`unescape` reads it; reading accepts every escape of the format, and a surrogate
half that stands alone is read as the replacement character. `harden` changes
text that is already escaped, so that it may stand inside markup.
-/

namespace VoxelScout.Json

open Text (Letter chars)

def hexUnit (n : Nat) : List Char :=
  [Text.hexDigit (n / 4096 % 16), Text.hexDigit (n / 256 % 16), Text.hexDigit (n / 16 % 16),
    Text.hexDigit (n % 16)]

def escapeUnit (n : Nat) : List Char :=
  '\\' :: 'u' :: hexUnit n

/-- Characters that are never written as they are, because markup or scripts give
them a meaning. -/
def isHazard (c : Char) : Bool :=
  c == '<' || c == '>' || c == '&' || c.toNat == 0x2028 || c.toNat == 0x2029

def escapeChar (c : Char) : List Char :=
  if c == '"' then ['\\', '"']
  else if c == '\\' then ['\\', '\\']
  else if c.toNat == 8 then ['\\', 'b']
  else if c.toNat == 12 then ['\\', 'f']
  else if c == '\n' then ['\\', 'n']
  else if c == '\r' then ['\\', 'r']
  else if c == '\t' then ['\\', 't']
  else if c.toNat < 0x20 || isHazard c then escapeUnit c.toNat
  else [c]

def escape (cs : List Char) : List Char :=
  cs.flatMap escapeChar

def hardenLetter : Letter → List Letter
  | .char c => chars (if isHazard c then escapeUnit c.toNat else [c])
  | .stray b => [.stray b]

def harden (source : List Letter) : List Letter :=
  source.flatMap hardenLetter

def unit? (a b c d : Char) : Option Nat := do
  let w ← Text.hexValue? a
  let x ← Text.hexValue? b
  let y ← Text.hexValue? c
  let z ← Text.hexValue? d
  pure (w * 4096 + x * 256 + y * 16 + z)

def shortEscape? (c : Char) : Option Char :=
  if c == '"' || c == '\\' || c == '/' then some c
  else if c == 'b' then some (Char.ofNat 8)
  else if c == 'f' then some (Char.ofNat 12)
  else if c == 'n' then some '\n'
  else if c == 'r' then some '\r'
  else if c == 't' then some '\t'
  else none

/-- The source up to the closing quote, and what follows it. Control characters and
unknown escapes are refused. -/
def scanQuoted : List Letter → Option (List Letter × List Letter)
  | [] => none
  | .char '"' :: rest => some ([], rest)
  | .char '\\' :: .char 'u' :: .char a :: .char b :: .char c :: .char d :: rest =>
    match unit? a b c d with
    | none => none
    | some _ =>
      (scanQuoted rest).map fun (source, after) => (chars ['\\', 'u', a, b, c, d] ++ source, after)
  | .char '\\' :: .char e :: rest =>
    if (shortEscape? e).isSome then
      (scanQuoted rest).map fun (source, after) => (chars ['\\', e] ++ source, after)
    else none
  | l :: rest =>
    if l.read.toNat < 0x20 || l.read == '\\' then none
    else (scanQuoted rest).map fun (source, after) => (l :: source, after)

def isHighHalf (n : Nat) : Bool :=
  0xD800 ≤ n && n < 0xDC00

def isLowHalf (n : Nat) : Bool :=
  0xDC00 ≤ n && n < 0xE000

def joinHalves (high low : Nat) : Char :=
  Char.ofNat (0x10000 + (high - 0xD800) * 1024 + (low - 0xDC00))

def unitChar (n : Nat) : Char :=
  if isHighHalf n || isLowHalf n then Text.replacement else Char.ofNat n

def lowHalf? : List Letter → Option Nat
  | .char '\\' :: .char 'u' :: .char a :: .char b :: .char c :: .char d :: _ =>
    (unit? a b c d).filter isLowHalf
  | _ => none

/-- The text a source stands for. `pending` holds the first half of a surrogate pair
whose second half is known to come next. -/
def unescapeFrom : Option Nat → List Letter → List Char
  | _, [] => []
  | pending, .char '\\' :: .char 'u' :: .char a :: .char b :: .char c :: .char d :: rest =>
    let n := (unit? a b c d).getD 0
    match pending with
    | some high => joinHalves high n :: unescapeFrom none rest
    | none =>
      if isHighHalf n && (lowHalf? rest).isSome then unescapeFrom (some n) rest
      else unitChar n :: unescapeFrom none rest
  | _, .char '\\' :: .char e :: rest => (shortEscape? e).getD e :: unescapeFrom none rest
  | _, l :: rest => l.read :: unescapeFrom none rest

def unescape (source : List Letter) : List Char :=
  unescapeFrom none source

end VoxelScout.Json
