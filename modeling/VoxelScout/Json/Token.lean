import VoxelScout.Json.Quoted

/-! # Tokens of JSON text

Text is cut into tokens without loss: every token remembers the blanks before it, so
that the tokens in a row are the text again. Strings and numbers keep their spelling.
-/

namespace VoxelScout.Json

open Text (Letter chars)

inductive Lexeme where
  | openObject
  | closeObject
  | openArray
  | closeArray
  | colon
  | comma
  | null
  | bool (value : Bool)
  | number (text : List Char)
  | string (source : List Letter)
  deriving DecidableEq, Repr

/-- A token with the blanks that precede it. -/
structure Token where
  blank : List Char
  lexeme : Lexeme
  deriving DecidableEq, Repr

def Lexeme.text : Lexeme → List Letter
  | .openObject => chars ['{']
  | .closeObject => chars ['}']
  | .openArray => chars ['[']
  | .closeArray => chars [']']
  | .colon => chars [':']
  | .comma => chars [',']
  | .null => chars ['n', 'u', 'l', 'l']
  | .bool true => chars ['t', 'r', 'u', 'e']
  | .bool false => chars ['f', 'a', 'l', 's', 'e']
  | .number text => chars text
  | .string source => .char '"' :: (source ++ [.char '"'])

def Lexeme.harden : Lexeme → Lexeme
  | .string source => .string (Json.harden source)
  | other => other

def Token.source (tokens : List Token) : List Letter :=
  tokens.flatMap fun t => chars t.blank ++ t.lexeme.text

def isSpace (c : Char) : Bool :=
  c == ' ' || c == '\t' || c == '\n' || c == '\r'

def isDigit (c : Char) : Bool :=
  '0' ≤ c && c ≤ '9'

def scanExponent (cs : List Char) : Option (List Char × List Char) :=
  match cs with
  | e :: rest =>
    if e == 'e' || e == 'E' then
      let (sign, digits) := match rest with
        | '+' :: r => (['+'], r)
        | '-' :: r => (['-'], r)
        | r => ([], r)
      match digits.takeWhile isDigit with
      | [] => none
      | ds => some (e :: (sign ++ ds), digits.dropWhile isDigit)
    else some ([], cs)
  | [] => some ([], [])

def scanFraction (cs : List Char) : Option (List Char × List Char) :=
  match cs with
  | '.' :: rest =>
    match rest.takeWhile isDigit with
    | [] => none
    | ds => some ('.' :: ds, rest.dropWhile isDigit)
  | _ => some ([], cs)

/-- The digits before the point: a lone zero, or digits that do not start with one. -/
def scanWhole (cs : List Char) : Option (List Char × List Char) :=
  match cs with
  | '0' :: rest => some (['0'], rest)
  | _ =>
    match cs.takeWhile isDigit with
    | [] => none
    | ds => some (ds, cs.dropWhile isDigit)

def scanNumber (cs : List Char) : Option (List Char × List Char) := do
  let (sign, body) := match cs with
    | '-' :: rest => (['-'], rest)
    | rest => ([], rest)
  let (whole, rest) ← scanWhole body
  let (fraction, rest) ← scanFraction rest
  let (exponent, rest) ← scanExponent rest
  pure (sign ++ whole ++ fraction ++ exponent, rest)

def isNumeral (c : Char) : Bool :=
  isDigit c || c == '+' || c == '-' || c == '.' || c == 'e' || c == 'E'

def scanNumeral (ls : List Letter) : Option (List Char × List Letter) :=
  let run := ls.takeWhile fun l => isNumeral l.read
  (scanNumber (run.map Letter.read)).map fun (text, _) => (text, ls.drop text.length)

def scanLexeme (ls : List Letter) : Option (Lexeme × List Letter) :=
  match ls with
  | [] => none
  | .char '{' :: rest => some (.openObject, rest)
  | .char '}' :: rest => some (.closeObject, rest)
  | .char '[' :: rest => some (.openArray, rest)
  | .char ']' :: rest => some (.closeArray, rest)
  | .char ':' :: rest => some (.colon, rest)
  | .char ',' :: rest => some (.comma, rest)
  | .char 'n' :: .char 'u' :: .char 'l' :: .char 'l' :: rest => some (.null, rest)
  | .char 't' :: .char 'r' :: .char 'u' :: .char 'e' :: rest => some (.bool true, rest)
  | .char 'f' :: .char 'a' :: .char 'l' :: .char 's' :: .char 'e' :: rest =>
    some (.bool false, rest)
  | .char '"' :: rest => (scanQuoted rest).map fun (source, after) => (.string source, after)
  | _ => (scanNumeral ls).map fun (text, after) => (.number text, after)

/-- The tokens of a text; blanks at its end are dropped. Each token takes at least one
letter, so the length of the text is fuel enough. -/
def scanTokens : Nat → List Letter → Option (List Token)
  | fuel, ls =>
    let blank := ls.takeWhile fun l => isSpace l.read
    match ls.dropWhile fun l => isSpace l.read with
    | [] => some []
    | body =>
      match fuel with
      | 0 => none
      | fuel + 1 => do
        let (lexeme, rest) ← scanLexeme body
        let more ← scanTokens fuel rest
        pure (⟨blank.map Letter.read, lexeme⟩ :: more)

def scan (ls : List Letter) : Option (List Token) :=
  scanTokens ls.length ls

end VoxelScout.Json
