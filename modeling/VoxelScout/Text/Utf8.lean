/-! # Text and its bytes

Bytes are read as UTF-8. A byte that is part of no character is a letter of its own, so that
every byte string is read as letters and nothing of it is lost.
-/

namespace VoxelScout.Text

def replacement : Char :=
  Char.ofNat 0xFFFD

/-- A character, or a byte that is part of none. -/
inductive Letter where
  | char (c : Char)
  | stray (b : UInt8)
  deriving DecidableEq, Repr

namespace Letter

def bytes : Letter → List UInt8
  | .char c => String.utf8EncodeChar c
  | .stray b => [b]

def read : Letter → Char
  | .char c => c
  | .stray _ => replacement

end Letter

def first? (bytes : List UInt8) : Option Char :=
  (bytes.take 4).toByteArray.utf8DecodeChar? 0

/-- The letters of bytes, of which the first `passed` belong to a character already read. -/
def lettersFrom : Nat → List UInt8 → List Letter
  | _, [] => []
  | passed + 1, _ :: rest => lettersFrom passed rest
  | 0, b :: rest =>
    match first? (b :: rest) with
    | some c => .char c :: lettersFrom (c.utf8Size - 1) rest
    | none => .stray b :: lettersFrom 0 rest

def letters (bytes : List UInt8) : List Letter :=
  lettersFrom 0 bytes

def chars (cs : List Char) : List Letter :=
  cs.map .char

def spell (ls : List Letter) : List UInt8 :=
  ls.flatMap Letter.bytes

def ofLetters (ls : List Letter) : String :=
  String.ofList (ls.map Letter.read)

def ofBytes (bytes : List UInt8) : String :=
  ofLetters (letters bytes)

def bytes (s : String) : List UInt8 :=
  s.toByteArray.data.toList

def hexValue? (c : Char) : Option Nat :=
  if '0' ≤ c && c ≤ '9' then some (c.toNat - 48)
  else if 'a' ≤ c && c ≤ 'f' then some (c.toNat - 87)
  else if 'A' ≤ c && c ≤ 'F' then some (c.toNat - 55)
  else none

def hexDigit (n : Nat) : Char :=
  Nat.digitChar n

end VoxelScout.Text
