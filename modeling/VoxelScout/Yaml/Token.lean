import VoxelScout.Yaml.Scalar

/-! # Tokens of an indented text

Indentation becomes tokens of its own here: a structure that begins further to the right
than the one around it opens, and it closes where the indentation falls back. Whether a
scalar or a bracket begins a key shows only at the colon behind it, on the same line and
not too far away, so tokens wait in a queue until that is settled. `Reader.next` and
`Reader.drop` are what the queue offers; it always looks two tokens further than it is
asked to, and a fault that it finds there counts.
-/

namespace VoxelScout.Yaml

inductive Token where
  | textStart
  | textEnd
  | version (major minor : Nat)
  /-- A short form of tags, and what it stands for. -/
  | tagHandle (handle : String) (expansion : String)
  | documentStart
  | documentEnd
  | listStart
  | mappingStart
  | dedent
  | openBracket
  | closeBracket
  | openBrace
  | closeBrace
  | dash
  | comma
  | key
  | value
  /-- A use of an anchor. -/
  | reference (name : String)
  | anchor (name : String)
  | tag (handle suffix : String)
  | scalar (text : String) (plain : Bool)
  deriving DecidableEq

/-- A token that may turn out to begin a key. -/
structure KeyCandidate where
  /-- It still may. -/
  possible : Bool
  /-- Nothing else may stand there. -/
  required : Bool
  /-- The queue waits for it to be settled. -/
  awaited : Bool
  /-- Its number among all tokens. -/
  token : Nat
  index : Nat
  line : Nat
  column : Nat

/-- A text on its way to tokens. -/
structure Reader where
  source : Source
  /-- More than the characters of the text: bounds every search in it. -/
  limit : Nat
  /-- The first token is made. -/
  started : Bool
  /-- The tokens that are made and not yet taken. -/
  queue : List Token
  /-- How many were taken. -/
  taken : Nat
  /-- One more than the column of the innermost structure written by indentation; zero
  outside all of them. -/
  least : Nat
  /-- The same for the structures around it, innermost first. -/
  outer : List Nat
  /-- How many brackets are open. -/
  depth : Nat
  /-- The last candidate for a key: inside the innermost bracket, then outside of it, and
  so on. -/
  keys : List KeyCandidate
  /-- A key may begin here. -/
  keyAllowed : Bool

abbrev Tokens (α : Type) := StateT Reader Option α

namespace Reader

def ofText (text : String) : Option Reader :=
  let chars := text.toList
  (Source.ofText chars).map fun source =>
    { source
      limit := chars.length + 16
      started := false
      queue := []
      taken := 0
      least := 0
      outer := []
      depth := 0
      keys := []
      keyAllowed := true }

/-- Reads from the text; what is read is given a bound for its searches. -/
def scan {α : Type} (read : Nat → Scan α) : Tokens α := fun r =>
  (read r.limit r.source).map fun (a, s) => (a, { r with source := s })

def push (token : Token) : Tokens Unit :=
  modify fun r => { r with queue := r.queue ++ [token] }

/-- A token joins the queue before the one with a number, or last if that one is taken. -/
def pushBefore (number : Nat) (token : Token) : Tokens Unit :=
  modify fun r =>
    if number < r.taken then { r with queue := r.queue ++ [token] }
    else
      let n := number - r.taken
      { r with queue := r.queue.take n ++ token :: r.queue.drop n }

def allowKey (allowed : Bool) : Tokens Unit :=
  modify fun r => { r with keyAllowed := allowed }

/-! ## Indentation -/

/-- The most structures inside each other, of those written by indentation and of those in
brackets. -/
def depthLimit : Nat :=
  10000

def openIndent (column : Nat) (add : Tokens Unit) : Tokens Unit := do
  let r ← get
  if r.depth == 0 && r.least ≤ column then
    set { r with outer := r.least :: r.outer, least := column + 1 }
    if depthLimit ≤ r.outer.length then failure
    add

/-- The structures end that stand further to the right; `least` is one more than the column
that is reached. -/
def closeIndents (least : Nat) : Tokens Unit :=
  modify fun r => if r.depth == 0 then close r.outer r.least r else r
where
  /-- The structures end from the innermost on. -/
  close : List Nat → Nat → Reader → Reader
    | outer, inner, r =>
      if least < inner then
        match outer with
        | [] => { r with queue := r.queue ++ [.dedent], least := 0, outer := [] }
        | around :: outer => close outer around { r with queue := r.queue ++ [.dedent] }
      else { r with least := inner, outer := outer }

/-! ## Keys -/

def keyLimit : Nat :=
  1024

/-- The candidate's line is left, or its colon would be too far away. -/
def isPast (s : Source) (k : KeyCandidate) : Bool :=
  k.line < s.line || k.index + keyLimit < s.index

/-- The innermost candidate is given up; one that had to be a key is a fault. -/
def dropKey : Tokens Unit := do
  let r ← get
  match r.keys with
  | [] => pure ()
  | k :: keys =>
    if k.possible && k.required then failure
    set { r with keys := { k with possible := false, awaited := false } :: keys }

/-- The token that comes next becomes the innermost candidate, if a key may begin here. -/
def saveKey : Tokens Unit := do
  if (← get).keyAllowed then
    dropKey
    modify fun r =>
      let s := r.source
      { r with
        keys :=
          { possible := true
            required := r.depth == 0 && r.least == s.column + 1
            awaited := true
            token := r.taken + r.queue.length
            index := s.index
            line := s.line
            column := s.column } :: r.keys.tail }

/-- The candidate that the first token of the queue is, if the queue waits for it: it is
given up once it is past. -/
def settleFirst : Tokens Bool := do
  let r ← get
  let awaits := fun (k : KeyCandidate) => k.possible && k.awaited && k.token == r.taken
  match r.keys.find? awaits with
  | none => pure false
  | some k =>
    if !isPast r.source k then pure true
    else if k.required then failure
    else
      set { r with
        keys := r.keys.map fun k => if awaits k then { k with possible := false } else k }
      pure false

/-! ## Brackets -/

def sign (token : Token) : Tokens Unit := do
  scan fun _ => skip
  push token

def openFlow (token : Token) : Tokens Unit := do
  saveKey
  modify fun r =>
    let s := r.source
    { r with
      depth := r.depth + 1
      keys := ⟨false, false, false, r.taken + r.queue.length, s.index, s.line, s.column⟩ :: r.keys
      keyAllowed := true }
  if depthLimit < (← get).depth then failure
  sign token

/-- A closing bracket. The candidate inside of it is forgotten, and with it the wait for one
of the same number. -/
def closeFlow (token : Token) : Tokens Unit := do
  dropKey
  modify fun r =>
    let r := { r with keyAllowed := false }
    if r.depth == 0 then r
    else match r.keys with
      | [] => r
      | [_] => r
      | k :: other :: keys =>
        let other := if other.token == k.token then { other with awaited := false } else other
        { r with depth := r.depth - 1, keys := other :: keys }
  sign token

/-! ## Structure -/

def readDash : Tokens Unit := do
  let r ← get
  if r.depth == 0 then
    if !r.keyAllowed then failure
    openIndent r.source.column (push .listStart)
  dropKey
  allowKey true
  sign .dash

def readKeyMark : Tokens Unit := do
  let r ← get
  if r.depth == 0 then
    if !r.keyAllowed then failure
    openIndent r.source.column (push .mappingStart)
  dropKey
  allowKey (r.depth == 0)
  sign .key

/-- The colon between a key and its value: behind a candidate it makes that a key. -/
def readColon : Tokens Unit := do
  let r ← get
  let found ← match r.keys with
    | [] => pure none
    | k :: keys =>
      if !k.possible then pure none
      else if !isPast r.source k then
        set { r with keys := { k with possible := false, awaited := false } :: keys }
        pure (some k)
      else if k.required then failure
      else
        set { r with keys := { k with possible := false } :: keys }
        pure none
  match found with
  | some k =>
    pushBefore k.token .key
    openIndent k.column (pushBefore k.token .mappingStart)
    allowKey false
  | none =>
    if r.depth == 0 then
      if !r.keyAllowed then failure
      openIndent r.source.column (push .mappingStart)
    allowKey (r.depth == 0)
  sign .value

def readMarker (token : Token) : Tokens Unit := do
  closeIndents 0
  dropKey
  allowKey false
  scan fun _ => do
    skip
    skip
    skip
  push token

def readEnd : Tokens Unit := do
  modify fun r =>
    let s := r.source
    if s.column == 0 then r
    else { r with source := { s with column := 0, line := s.line + 1 } }
  closeIndents 0
  dropKey
  allowKey false
  push .textEnd

/-! ## Names and tags -/

def isNameChar (c : Char) : Bool :=
  c.isAlphanum || c == '_' || c == '-'

def scanName (limit : Nat) : Scan String := do
  skip
  need 1
  let name ← readWhile isNameChar limit
  let rest ← ahead
  if name.isEmpty || !(atGap rest || rest.head?.any "?:,]\x7d%@`".toList.contains) then failure
  pure (String.ofList name)

def isTagChar (c : Char) : Bool :=
  isNameChar c || ";/?:@&=+$,.!~*'()[]".toList.contains c

def byteCount? (first : UInt8) : Option Nat :=
  if first < 0x80 then some 1
  else if first < 0xC0 then none
  else if first < 0xE0 then some 2
  else if first < 0xF0 then some 3
  else if first < 0xF8 then some 4
  else none

def scanTagByte : Scan UInt8 := do
  need 3
  match ← ahead with
  | '%' :: a :: b :: _ =>
    match Text.hexValue? a, Text.hexValue? b with
    | some a, some b =>
      skip
      skip
      skip
      pure (UInt8.ofNat (16 * a + b))
    | _, _ => failure
  | _ => failure

def scanTagTail : Nat → Scan (List UInt8)
  | 0 => pure []
  | n + 1 => do
    let byte ← scanTagByte
    if byte < 0x80 || 0xC0 ≤ byte then failure
    return byte :: (← scanTagTail n)

def scanTagCode : Scan (List Char) := do
  let first ← scanTagByte
  let count ← (byteCount? first : Option Nat)
  return (Text.letters (first :: (← scanTagTail (count - 1)))).map (·.read)

def scanTagText : Nat → Scan (List Char)
  | 0 => failure
  | fuel + 1 => do
    match ← ahead with
    | c :: _ =>
      if c == '%' then
        let code ← scanTagCode
        need 1
        return code ++ (← scanTagText fuel)
      else if isTagChar c then
        skip
        need 1
        return c :: (← scanTagText fuel)
      else pure []
    | [] => pure []

/-- The short form that a tag begins with: a name between exclamation marks, or the first
mark and what follows it. -/
def scanTagHandle (limit : Nat) : Scan (List Char) := do
  need 1
  if (← ahead).head? != some '!' then failure
  skip
  need 1
  let name ← readWhile isNameChar limit
  if (← ahead).head? == some '!' then
    skip
    pure ('!' :: name ++ ['!'])
  else pure ('!' :: name)

def scanTag (limit : Nat) : Scan Token := do
  need 2
  let whole ← match ← ahead with
    | _ :: '<' :: _ => do
      skip
      skip
      need 1
      let text ← scanTagText limit
      if text.isEmpty || (← ahead).head? != some '>' then failure
      skip
      pure (Token.tag "" (String.ofList text))
    | _ => do
      let handle ← scanTagHandle limit
      need 1
      let text ← scanTagText limit
      if 1 < handle.length && handle.getLast? == some '!' then
        if text.isEmpty then failure
        pure (Token.tag (String.ofList handle) (String.ofList text))
      else
        let suffix := handle.tail ++ text
        if suffix.isEmpty then pure (Token.tag "" "!")
        else pure (Token.tag "!" (String.ofList suffix))
  need 1
  if !atGap (← ahead) then failure
  pure whole

/-! ## Directives -/

def scanVersionNumber (limit : Nat) : Scan Nat := do
  need 1
  let digits ← readWhile Char.isDigit limit
  if digits.isEmpty || 2 < digits.length then failure
  pure (digits.foldl (fun n c => 10 * n + (c.toNat - '0'.toNat)) 0)

def scanVersion (limit : Nat) : Scan Token := do
  need 1
  skipWhile isBlank limit
  let major ← scanVersionNumber limit
  if (← ahead).head? != some '.' then failure
  skip
  return .version major (← scanVersionNumber limit)

def scanShortForm (limit : Nat) : Scan Token := do
  need 1
  skipWhile isBlank limit
  let handle ← scanTagHandle limit
  if handle.getLast? != some '!' then failure
  need 1
  if !(← ahead).head?.any isBlank then failure
  skipWhile isBlank limit
  need 1
  let text ← scanTagText limit
  if text.isEmpty then failure
  need 1
  if !atGap (← ahead) then failure
  pure (.tagHandle (String.ofList handle) (String.ofList text))

def scanDirective (limit : Nat) : Scan Token := do
  skip
  need 1
  let name ← readWhile isNameChar limit
  if name.isEmpty || !atGap (← ahead) then failure
  let token ← match String.ofList name with
    | "YAML" => scanVersion limit
    | "TAG" => scanShortForm limit
    | _ => failure
  need 1
  skipWhile isBlank limit
  if (← ahead).head? == some '#' then skipWhile (!isBreak ·) limit
  if !atLineEnd (← ahead) then failure
  if atBreak (← ahead) then
    need 2
    skipBreak
  pure token

/-! ## One token after the other -/

def readLeaf (read : Nat → Scan Token) : Tokens Unit := do
  saveKey
  allowKey false
  push (← scan read)

/-- Plain text; where it leaves a line, a key may begin. -/
def readPlainToken : Tokens Unit := do
  saveKey
  allowKey false
  let r ← get
  let (text, crossed) ← scan fun limit =>
    readPlain (0 < r.depth) r.least limit limit Gap.none []
  if crossed then allowKey true
  push (.scalar (String.ofList text) true)

def readQuotedToken (double : Bool) : Tokens Unit :=
  readLeaf fun limit => do
    skip
    return .scalar (String.ofList (← readQuoted double limit limit [])) false

def readBlockToken (literal : Bool) : Tokens Unit := do
  dropKey
  allowKey true
  let r ← get
  let text ← scan fun limit => do
    skip
    readBlock literal r.least limit
  push (.scalar (String.ofList text) false)

def readContent (bracketed : Bool) (rest : List Char) : Tokens Unit :=
  match rest with
  | [] => failure
  | c :: after =>
    if c == '[' then openFlow .openBracket
    else if c == '{' then openFlow .openBrace
    else if c == ']' then closeFlow .closeBracket
    else if c == '}' then closeFlow .closeBrace
    else if c == ',' then do
      dropKey
      allowKey true
      sign .comma
    else if c == '-' && atGap after then readDash
    else if c == '?' && (bracketed || atGap after) then readKeyMark
    else if c == ':' && (bracketed || atGap after) then readColon
    else if c == '*' then readLeaf fun limit => Token.reference <$> scanName limit
    else if c == '&' then readLeaf fun limit => Token.anchor <$> scanName limit
    else if c == '!' then readLeaf scanTag
    else if c == '|' && !bracketed then readBlockToken true
    else if c == '>' && !bracketed then readBlockToken false
    else if c == '\'' then readQuotedToken false
    else if c == '"' then readQuotedToken true
    else if startsPlain bracketed rest then readPlainToken
    else failure

def advance : Tokens Unit := do
  scan fun _ => need 1
  let r ← get
  if !r.started then
    set { r with started := true, keys := [⟨false, false, false, 0, 0, 0, 0⟩] }
    push .textStart
  else
    allowKey (← scan fun limit => skipGap (0 < r.depth) limit limit r.keyAllowed)
    closeIndents ((← get).source.column + 1)
    scan fun _ => need 4
    let s := (← get).source
    if s.rest.isEmpty then readEnd
    else if s.column == 0 && s.rest.head? == some '%' then
      closeIndents 0
      dropKey
      allowKey false
      push (← scan scanDirective)
    else if s.column == 0 && isMarker '-' s.rest then readMarker .documentStart
    else if s.column == 0 && isMarker '.' s.rest then readMarker .documentEnd
    else
      readContent (0 < r.depth) s.rest
      if (← get).queue.getLast? != some .dash then scan skipLineComment

/-- The queue grows until it is long enough and its first token is settled. -/
def grow : Nat → Tokens Unit
  | 0 => failure
  | fuel + 1 => do
    let waiting ← if 3 ≤ (← get).queue.length then settleFirst else pure true
    if waiting then
      advance
      grow fuel

def next : Tokens Token := do
  grow (← get).limit
  ((← get).queue.head? : Option Token)

def drop : Tokens Unit :=
  modify fun r => { r with queue := r.queue.tail, taken := r.taken + 1 }

end Reader

end VoxelScout.Yaml
