import VoxelScout.Text.Utf8
import VoxelScout.Yaml.Source

/-! # Words of an indented text

A scalar stands plain, between quotes, or as a block of lines. Plain and quoted text may
run over several lines: a single break between two words is read as a blank, and of more
breaks all but the first are kept. Plain text ends before a comment, before a colon with a
gap behind it, and where the indentation falls back; inside brackets it also ends before
their punctuation. A block keeps its line breaks, or folds them likewise.
-/

namespace VoxelScout.Yaml

/-! ## Between words -/

/-- What lies between two words; all characters stand last first. -/
structure Gap where
  /-- Blanks before a line break. -/
  blanks : List Char
  /-- A line has been left. -/
  crossed : Bool
  /-- The first line break, if it counts. -/
  first : List Char
  /-- The line breaks after it. -/
  more : List Char

namespace Gap

def none : Gap :=
  ⟨[], false, [], []⟩

def uncounted : Gap :=
  ⟨[], true, [], []⟩

/-- The gap with one more blank: blanks that indent a line do not count. -/
def blank (c : Char) (gap : Gap) : Gap :=
  if gap.crossed then gap else { gap with blanks := c :: gap.blanks }

/-- The gap with one more line break: blanks at the end of a line do not count. -/
def lineBreak (c : List Char) (gap : Gap) : Gap :=
  if gap.crossed then { gap with more := c ++ gap.more } else ⟨[], true, c, []⟩

def folded (gap : Gap) : List Char :=
  if !gap.crossed then gap.blanks
  else if gap.first == ['\n'] then if gap.more.isEmpty then [' '] else gap.more
  else gap.more ++ gap.first

end Gap

/-- A gap from here on. Behind a line break a tabulator before the column `least` is a
fault. -/
def readGap (least : Nat) : Nat → Gap → Scan Gap
  | 0, _ => failure
  | fuel + 1, gap => do
    let s ← get
    match s.rest with
    | c :: _ =>
      if isBlank c then
        if c == '\t' && gap.crossed && s.column < least then failure
        else
          skip
          need 1
          readGap least fuel (gap.blank c)
      else if isBreak c then
        need 2
        let read ← readBreak
        need 1
        readGap least fuel (gap.lineBreak read)
      else pure gap
    | [] => pure gap

/-! ## Plain text -/

def isPunctuation (c : Char) : Bool :=
  c == ',' || c == '?' || c == '[' || c == ']' || c == '{' || c == '}'

def isIndicator (c : Char) : Bool :=
  "-?:,[]\x7b\x7d#&*!|>'\"%@`".toList.contains c

def startsPlain (bracketed : Bool) : List Char → Bool
  | [] => false
  | c :: rest =>
    if c == '-' then !atGap rest
    else if c == '?' || c == ':' then !bracketed && !atGap rest
    else !isIndicator c && !atGap [c]

def readPlainWord (bracketed : Bool) : Nat → Scan (List Char)
  | 0 => failure
  | fuel + 1 => do
    match ← ahead with
    | c :: after =>
      if atGap [c] || (c == ':' && atGap after) || (bracketed && isPunctuation c) then pure []
      else
        skip
        need 2
        return c :: (← readPlainWord bracketed fuel)
    | [] => pure []

/-- Plain text from here on, with what was read of it before (last character first) and the
gap behind that; and whether a line was left behind its last word. `least` is the least
column of a further line. -/
def readPlain (bracketed : Bool) (least limit : Nat) :
    Nat → Gap → List Char → Scan (List Char × Bool)
  | 0, _, _ => failure
  | fuel + 1, gap, read => do
    need 4
    let s ← get
    if atMarker s.column s.rest || s.rest.head? == some '#' then
      return (read.reverse, gap.crossed)
    let word ← readPlainWord bracketed limit
    let (read, gap) :=
      if word.isEmpty then (read, gap) else (word.reverse ++ (gap.folded ++ read), Gap.none)
    match ← ahead with
    | [] => return (read.reverse, gap.crossed)
    | c :: _ =>
      if !atGap [c] then return (read.reverse, gap.crossed)
      let gap ← readGap least limit gap
      if !bracketed && (← get).column < least then return (read.reverse, gap.crossed)
      readPlain bracketed least limit fuel gap read

/-! ## Quoted text -/

def escapeOf? (c : Char) : Option Char :=
  List.lookup c [('0', '\x00'), ('a', '\x07'), ('b', '\x08'), ('t', '\t'), ('\t', '\t'),
    ('n', '\n'), ('v', '\x0b'), ('f', '\x0c'), ('r', '\r'), ('e', '\x1b'), (' ', ' '),
    ('"', '"'), ('\'', '\''), ('\\', '\\'), ('N', '\u0085'), ('_', '\u00a0'),
    ('L', '\u2028'), ('P', '\u2029')]

def codeLength? (c : Char) : Option Nat :=
  List.lookup c [('x', 2), ('u', 4), ('U', 8)]

def charOfCode? (code : Nat) : Option Char :=
  if code < 0xD800 || (0xDFFF < code && code ≤ 0x10FFFF) then some (Char.ofNat code) else none

def readCode : Nat → Nat → Scan Char
  | 0, code => (charOfCode? code : Option Char)
  | digits + 1, code => do
    match (← ahead).head?.bind Text.hexValue? with
    | some d =>
      skip
      readCode digits (16 * code + d)
    | none => failure

def readEscape (c : Char) : Scan Char := do
  skip
  skip
  match codeLength? c with
  | some digits =>
    need digits
    readCode digits 0
  | none => (escapeOf? c : Option Char)

/-- A word of quoted text, and whether an escaped line break ended it. Backslashes count
between double quotes; between single ones a doubled quote stands for one. -/
def readQuotedWord (double : Bool) : Nat → Scan (List Char × Bool)
  | 0 => failure
  | fuel + 1 => do
    let add := fun (c : Char) => do
      need 2
      let (word, escaped) ← readQuotedWord double fuel
      pure (c :: word, escaped)
    match ← ahead with
    | [] => pure ([], false)
    | c :: after =>
      if atGap [c] then pure ([], false)
      else if !double && c == '\'' then
        if after.head? == some '\'' then
          skip
          skip
          add '\''
        else pure ([], false)
      else if double && c == '"' then pure ([], false)
      else if double && c == '\\' then
        if atBreak after then
          need 3
          skip
          skipBreak
          pure ([], true)
        else match after with
          | e :: _ => add (← readEscape e)
          | [] => failure
      else
        skip
        add c

def readQuoted (double : Bool) (limit : Nat) : Nat → List Char → Scan (List Char)
  | 0, _ => failure
  | fuel + 1, read => do
    need 4
    let s ← get
    if atMarker s.column s.rest || s.rest.isEmpty then failure
    let (word, escaped) ← readQuotedWord double limit
    need 1
    if (← ahead).head? == some (if double then '"' else '\'') then
      skip
      pure (read.reverse ++ word)
    else
      let gap ← readGap 0 limit (if escaped then Gap.uncounted else Gap.none)
      readQuoted double limit fuel (gap.folded ++ (word.reverse ++ read))

/-! ## Blocks of lines -/

/-- What becomes of the line breaks at the end of a block. -/
inductive Chomping where
  /-- None is kept. -/
  | strip
  /-- One is kept. -/
  | clip
  | keep

def chomping? : List Char → Option Chomping
  | '+' :: _ => some .keep
  | '-' :: _ => some .strip
  | _ => none

def readIndentation : Scan Nat := do
  match ← ahead with
  | c :: _ =>
    if c == '0' then failure
    else if '1' ≤ c && c ≤ '9' then
      skip
      pure (c.toNat - '0'.toNat)
    else pure 0
  | [] => pure 0

/-- The marks at the head of a block, in either order: what becomes of its last breaks, and
its indentation, or zero. -/
def readBlockHead : Scan (Chomping × Nat) := do
  need 1
  match chomping? (← ahead) with
  | some chomping =>
    skip
    need 1
    return (chomping, ← readIndentation)
  | none =>
    let indentation ← readIndentation
    if indentation == 0 then return (.clip, 0)
    need 1
    match chomping? (← ahead) with
    | some chomping =>
      skip
      return (chomping, indentation)
    | none => return (.clip, indentation)

/-- Empty lines and the indentation of the next one, with the breaks read before (last
first) and the widest indentation seen. An `indentation` of zero is not known yet. -/
def readEmptyLines (indentation limit : Nat) :
    Nat → List Char → Nat → Scan (List Char × Nat)
  | 0, _, _ => failure
  | fuel + 1, read, widest => do
    need 1
    indent limit
    let s ← get
    let widest := max widest s.column
    if s.rest.head? == some '\t' && (indentation == 0 || s.column < indentation) then failure
    else if atBreak s.rest then
      need 2
      let b ← readBreak
      readEmptyLines indentation limit fuel (b ++ read) widest
    else pure (read, widest)
where
  /-- Blanks up to the indentation are passed. -/
  indent : Nat → Scan Unit
    | 0 => failure
    | fuel + 1 => do
      let s ← get
      if s.rest.head? == some ' ' && (indentation == 0 || s.column < indentation) then
        skip
        need 1
        indent fuel

/-- The lines of a block from here on: what was read before, the break behind it, the empty
lines after that (all last character first), and whether the line before began with a
blank. -/
def readBlockLines (literal : Bool) (chomping : Chomping) (indentation limit : Nat) :
    Nat → List Char → List Char → List Char → Bool → Scan (List Char)
  | 0, _, _, _, _ => failure
  | fuel + 1, read, first, more, leading => do
    let s ← get
    if s.column == indentation && !s.rest.isEmpty then
      let blank := s.rest.head?.any isBlank
      let joint :=
        if !literal && !leading && !blank && first == ['\n'] then
          if more.isEmpty then [' '] else more
        else more ++ first
      let line ← readWhile (!isBreak ·) limit
      need 2
      let first ← readBreak
      let (more, _) ← readEmptyLines indentation limit limit [] 0
      readBlockLines literal chomping indentation limit fuel
        (line.reverse ++ (joint ++ read)) first more blank
    else match chomping with
      | .strip => pure read.reverse
      | .clip => pure (first ++ read).reverse
      | .keep => pure (more ++ (first ++ read)).reverse

/-- A block, from behind the mark that begins it. `least` is the least column of what
belongs to the enclosing structure. -/
def readBlock (literal : Bool) (least limit : Nat) : Scan (List Char) := do
  let (chomping, given) ← readBlockHead
  need 1
  skipWhile isBlank limit
  if (← ahead).head? == some '#' then
    skipLineComment limit
    skipWhile (!isBreak ·) limit
  if !atLineEnd (← ahead) then failure
  if atBreak (← ahead) then
    need 2
    skipBreak
  let fixed := if given == 0 then 0 else least - 1 + given
  let (more, widest) ← readEmptyLines fixed limit limit [] 0
  let indentation := if fixed == 0 then max (max widest least) 1 else fixed
  need 1
  readBlockLines literal chomping indentation limit limit [] [] more false

end VoxelScout.Yaml
