/-! # Text taken in by blocks

A text is taken in a block at a time, only as far as its reader looks ahead, so that a
character which no text may hold is a fault only once its block is taken in. `Source` is
what is left of a text with the place reached in it, and `Scan` is reading from it.
-/

namespace VoxelScout.Yaml

/-! ## Characters -/

def isBlank (c : Char) : Bool :=
  c == ' ' || c == '\t'

def isBreak (c : Char) : Bool :=
  c == '\n' || c == '\r' || c == '\u0085' || c == '\u2028' || c == '\u2029'

def isWritable (c : Char) : Bool :=
  c == '\t' || c == '\n' || c == '\r' || (' ' ≤ c && c ≤ '~') || c == '\u0085' ||
    ('\u00a0' ≤ c && c != '\ufffe' && c != '\uffff')

def byteOrderMark : Char :=
  '\ufeff'

def atBreak : List Char → Bool
  | [] => false
  | c :: _ => isBreak c

def atLineEnd : List Char → Bool
  | [] => true
  | c :: _ => isBreak c

/-- Nothing follows, or something that separates words. -/
def atGap : List Char → Bool
  | [] => true
  | c :: _ => isBlank c || isBreak c

def isMarker (mark : Char) : List Char → Bool
  | a :: b :: c :: rest => a == mark && b == mark && c == mark && atGap rest
  | _ => false

def atMarker (column : Nat) (rest : List Char) : Bool :=
  column == 0 && (isMarker '-' rest || isMarker '.' rest)

/-! ## Blocks -/

/-- What is left of a text. -/
structure Source where
  /-- What follows, taken in or not. -/
  rest : List Char
  /-- How many characters of it are taken in; the end of the text counts as characters. -/
  loaded : Nat
  /-- What is taken in began with a byte order mark when it was last added to. -/
  marked : Bool
  /-- How many characters were read. -/
  index : Nat
  line : Nat
  column : Nat
  /-- How many lines ended since a character that is no blank. -/
  breaks : Nat

abbrev Scan (α : Type) := StateT Source Option α

def blockSize : Nat :=
  512

def charsWithin : Nat → List Char → Nat
  | _, [] => 0
  | room, c :: rest =>
    if c.utf8Size ≤ room then charsWithin (room - c.utf8Size) rest + 1 else 0

namespace Source

/-- One more block of at most `room` bytes is taken in; at the end of the text, its end. -/
def addBlock (room : Nat) (s : Source) : Option Source :=
  let later := s.rest.drop s.loaded
  let block := later.take (charsWithin room later)
  if later.isEmpty then some { s with loaded := s.loaded + 1 }
  else if block.all isWritable then some { s with loaded := s.loaded + block.length }
  else none

/-- Blocks are taken in, at most `blocks` of them, until there are `n` characters or the
text has ended. -/
def addBlocks (n : Nat) : Nat → Source → Option Source
  | 0, s => some s
  | blocks + 1, s =>
    if n ≤ s.loaded then some s
    else if s.rest.length ≤ s.loaded then s.addBlock blockSize
    else (s.addBlock blockSize).bind (addBlocks n blocks)

/-- A text with its first block. A byte order mark before it is not part of it. -/
def ofText (text : List Char) : Option Source :=
  let start := fun rest => (⟨rest, 0, rest.head? == some byteOrderMark, 0, 0, 0, 0⟩ : Source)
  match text with
  | [] => (start ['\n']).addBlock blockSize
  | c :: rest =>
    if c == byteOrderMark then (start rest).addBlock (blockSize - c.utf8Size)
    else (start text).addBlock blockSize

end Source

def need (n : Nat) : Scan Unit := fun s =>
  if n ≤ s.loaded then some ((), s)
  else
    let s := { s with marked := s.rest.head? == some byteOrderMark }
    (s.addBlocks n n).map (((), ·))

def ahead : Scan (List Char) :=
  return (← get).rest

/-! ## Steps -/

def skip : Scan Unit :=
  modify fun s =>
    { s with
      rest := s.rest.tail
      loaded := s.loaded - 1
      index := s.index + 1
      column := s.column + 1
      breaks := if s.rest.head?.any isBlank then s.breaks else 0 }

/-- A line break is passed, if there is one, and gives what it is read as: some breaks
stand for themselves and all others are alike. -/
def readBreak : Scan (List Char) := do
  let s ← get
  let pass := fun (n : Nat) =>
    set { s with
      rest := s.rest.drop n
      loaded := s.loaded - n
      index := s.index + n
      line := s.line + 1
      column := 0
      breaks := s.breaks + 1 }
  match s.rest with
  | '\r' :: '\n' :: _ => pass 2; pure ['\n']
  | c :: _ =>
    if isBreak c then
      pass 1
      pure [if c == '\u2028' || c == '\u2029' then c else '\n']
    else pure []
  | [] => pure []

def skipBreak : Scan Unit :=
  discard readBreak

def readWhile (p : Char → Bool) : Nat → Scan (List Char)
  | 0 => failure
  | fuel + 1 => do
    match ← ahead with
    | c :: _ =>
      if p c then
        skip
        need 1
        return c :: (← readWhile p fuel)
      else pure []
    | [] => pure []

def skipWhile (p : Char → Bool) (fuel : Nat) : Scan Unit :=
  discard (readWhile p fuel)

/-! ## Comments and gaps -/

/-- The place of a comment behind blanks, if one stands at most `far` characters after the
`n`-th from here. -/
def commentOnLine : Nat → Nat → Scan (Option Nat)
  | 0, _ => pure none
  | far + 1, n => do
    need (n + 1)
    match (← ahead).drop n with
    | c :: _ =>
      if isBlank c then commentOnLine far (n + 1)
      else pure (if c == '#' then some n else none)
    | [] => pure none

/-- The place of a comment behind blanks and line breaks, if one stands at most `far`
characters after the `n`-th from here. A line break of several bytes ends the search. -/
def commentBelow : Nat → Nat → Scan (Option Nat)
  | 0, _ => pure none
  | far + 1, n => do
    need (n + 1)
    match (← ahead).drop n with
    | c :: _ =>
      if isBlank c || c == '\n' || c == '\r' then commentBelow far (n + 1)
      else if isBreak c && 0 < far then
        need (n + 2)
        pure none
      else pure (if c == '#' then some n else none)
    | [] => pure none

/-- All up to the `target`-th character of the text is passed, and from there on all to the
end of the line. -/
def passComment (target : Nat) : Nat → Scan Unit
  | 0 => failure
  | fuel + 1 => do
    need 1
    let s ← get
    if atLineEnd s.rest then
      if s.index < target then
        need 2
        skipBreak
        passComment target fuel
    else
      skip
      passComment target fuel

def commentReach : Nat :=
  512

def skipLineComment (fuel : Nat) : Scan Unit := do
  if (← get).breaks == 0 then
    match ← commentOnLine commentReach 0 with
    | some n => passComment ((← get).index + n) fuel
    | none => pure ()

def skipComments (limit : Nat) : Nat → Nat → Scan Unit
  | 0, _ => failure
  | fuel + 1, target => do
    passComment target limit
    let below ←
      if (← ahead).head?.any (1 < ·.utf8Size) then do
        need 2
        pure none
      else commentBelow (commentReach - 1) 1
    match below with
    | some n => skipComments limit fuel ((← get).index + n)
    | none => pure ()

/-- Blanks, comments and line breaks are passed. A tabulator is no indentation: it is
passed only inside brackets or where no key may begin. Gives whether a key may begin at
what follows: at a new line, outside brackets, one may. -/
def skipGap (bracketed : Bool) (limit : Nat) : Nat → Bool → Scan Bool
  | 0, _ => failure
  | fuel + 1, keyAllowed => do
    need 1
    let s ← get
    if s.column == 0 && s.marked then skip
    need 1
    skipWhile (fun c => c == ' ' || (c == '\t' && (bracketed || !keyAllowed))) limit
    if (← ahead).head? == some '#' then skipComments limit limit (← get).index
    need 2
    if atBreak (← ahead) then
      skipBreak
      skipGap bracketed limit fuel (keyAllowed || !bracketed)
    else pure keyAllowed

end VoxelScout.Yaml
