import VoxelScout.Json.Decode

/-! # Player identifiers

Players are named by 128-bit identifiers. The written form is 32 hexadecimal digits in
five groups; reading also takes the digits without dashes, the dashed form between any
two characters, and the dashed form after `urn:uuid:`.
-/

namespace VoxelScout

structure PlayerId where
  bits : BitVec 128
  deriving DecidableEq, Repr, Hashable

namespace PlayerId

def nil : PlayerId :=
  ⟨0⟩

instance : Inhabited PlayerId :=
  ⟨nil⟩

def hexDigits : Nat → Nat → List Char
  | 0, _ => []
  | width + 1, n => hexDigits width (n / 16) ++ [Text.hexDigit (n % 16)]

/-- The number that hexadecimal digits stand for, continuing from `acc`. -/
def ofHexDigits? : Nat → List Char → Option Nat
  | acc, [] => some acc
  | acc, c :: rest =>
    match Text.hexValue? c with
    | some d => ofHexDigits? (acc * 16 + d) rest
    | none => none

/-- Dashes after the digits 8, 12, 16 and 20. -/
def group (digits : List Char) : List Char :=
  digits.take 8 ++ '-' :: ((digits.drop 8).take 4 ++ '-' :: ((digits.drop 12).take 4
    ++ '-' :: ((digits.drop 16).take 4 ++ '-' :: digits.drop 20)))

def ungroup? (cs : List Char) : Option (List Char) :=
  if cs.length == 36 && cs[8]? == some '-' && cs[13]? == some '-' && cs[18]? == some '-'
      && cs[23]? == some '-' then
    some (cs.take 8 ++ (cs.drop 9).take 4 ++ (cs.drop 14).take 4 ++ (cs.drop 19).take 4
      ++ cs.drop 24)
  else none

def render (id : PlayerId) : String :=
  String.ofList (group (hexDigits 32 id.bits.toNat))

def ofDigits? (digits : List Char) : Option PlayerId :=
  if digits.length == 32 then (ofHexDigits? 0 digits).map fun n => ⟨BitVec.ofNat 128 n⟩
  else none

def ofDashed? (cs : List Char) : Option PlayerId :=
  (ungroup? cs).bind ofDigits?

/-- Reads any of the accepted forms; they are told apart by their lengths. -/
def parse? (text : String) : Option PlayerId :=
  let cs := text.toList
  if cs.any fun c => 127 < c.toNat then none
  else if cs.length == 36 then ofDashed? cs
  else if cs.length == 38 then ofDashed? ((cs.drop 1).take 36)
  else if cs.length == 45 then
    if Text.sameFold (String.ofList (cs.take 9)) "urn:uuid:" then ofDashed? (cs.drop 9) else none
  else if cs.length == 32 then ofDigits? cs
  else none

def toJson (id : PlayerId) : Json :=
  .string id.render

def decode : Json.Decoder PlayerId
  | base, .null => some base
  | _, .string s => parse? s
  | _, _ => none

end PlayerId

end VoxelScout
