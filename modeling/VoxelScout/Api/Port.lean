import VoxelScout.Decimal.Reader
import VoxelScout.Text.Case

/-! # Ports

The port that the interface listens on is given as text: a number, or the name of a
service that has a port of its own.
-/

namespace VoxelScout.Api.Port

def services : List (String × Int) :=
  [("ftp", 21), ("ftps", 990), ("gopher", 70), ("http", 80), ("https", 443), ("imap2", 143),
    ("imap3", 220), ("imaps", 993), ("pop3", 110), ("pop3s", 995), ("smtp", 25),
    ("submissions", 465), ("ssh", 22), ("telnet", 23)]

/-- The number of digits in a word of 32 bits, continuing from `n`: a number of 31 bits or
more is not read on, and nothing else is a number. -/
def readNumber? : Nat → List Char → Option Nat
  | n, [] => some n
  | n, c :: rest =>
    if !Decimal.isDigit c then none
    else if Nat.pow 2 30 ≤ n then some (Nat.pow 2 32 - 1)
    else
      let next := 10 * n % Nat.pow 2 32 + (c.toNat - '0'.toNat)
      if Nat.pow 2 32 ≤ next then some (Nat.pow 2 32 - 1) else readNumber? next rest

def number? (text : String) : Option Int :=
  match text.toList with
  | '+' :: rest => (readNumber? 0 rest).map Int.ofNat
  | '-' :: rest => (readNumber? 0 rest).map fun n => -(n : Int)
  | rest => (readNumber? 0 rest).map Int.ofNat

def isListenable (text : String) : Bool :=
  let service := String.ofList (text.toList.map Text.lowerAscii)
  ((number? text).orElse fun _ => services.lookup service).any fun n => 0 ≤ n && n ≤ 65535

end VoxelScout.Api.Port
