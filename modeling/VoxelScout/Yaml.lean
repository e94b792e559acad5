import VoxelScout.Yaml.Token

/-! # Indented text

Settings are written as nested mappings, lists and scalars. Outside brackets the
nesting shows in the indentation: the keys of a mapping share a column, and what stands
under a key is indented more (a list may also stand in the column of its key). Inside
brackets the punctuation decides. `read?` reads the first document of a text.
-/

namespace VoxelScout

namespace Yaml

/-- How the meaning of a scalar is found. -/
inductive Sense where
  /-- By its spelling. -/
  | plain
  /-- It is text. -/
  | text
  /-- By its spelling, and its kind must be that of the tag. -/
  | tagged (tag : String)
  deriving DecidableEq

end Yaml

inductive Yaml where
  | scalar (text : String) (sense : Yaml.Sense)
  | sequence (items : List Yaml)
  | mapping (entries : List (Yaml × Yaml))
  /-- The value of an anchor; none inside of that value itself. -/
  | reference (anchor : String) (target : Option Yaml)
  deriving Inhabited

namespace Yaml

def absent : Yaml :=
  .scalar "" .plain

/-- Tokens on their way to values. -/
structure Draft where
  reader : Reader
  /-- The anchors so far, with their values; none while the value is still being read. -/
  anchors : Array (String × Option Yaml)
  /-- The short forms of tags, with what they stand for. -/
  handles : List (String × String)

abbrev Build (α : Type) := StateT Draft Option α

def onTokens {α : Type} (read : Tokens α) : Build α := fun d =>
  (read d.reader).map fun (a, reader) => (a, { d with reader })

def next : Build Token :=
  onTokens Reader.next

def drop : Build Unit :=
  onTokens Reader.drop

/-! ## Anchors and tags -/

structure Properties where
  anchor : Option String
  tag : Option String

def expandTag (handle suffix : String) : Build String := do
  if handle.isEmpty then pure suffix
  else
    let expansion ← ((← get).handles.lookup handle : Option String)
    pure (expansion ++ suffix)

def readTag : Build (Option String) := do
  match ← next with
  | .tag handle suffix =>
    let tag ← expandTag handle suffix
    drop
    pure (some tag)
  | _ => pure none

def readAnchor : Build (Option String) := do
  match ← next with
  | .anchor name =>
    drop
    pure (some name)
  | _ => pure none

def readProperties : Build Properties := do
  match ← readAnchor with
  | some name => return ⟨some name, ← readTag⟩
  | none =>
    match ← readTag with
    | some tag => return ⟨← readAnchor, some tag⟩
    | none => pure ⟨none, none⟩

def standardTags : String :=
  "tag:yaml.org,2002:"

def shortTag (tag : String) : String :=
  if tag.startsWith standardTags then "!!" ++ (tag.drop standardTags.length).toString else tag

/-- How the meaning of a scalar is found that has a tag or none. -/
def senseOf (tag : Option String) (plain : Bool) : Sense :=
  let untagged := if plain then Sense.plain else Sense.text
  match tag with
  | none => untagged
  | some tag =>
    if tag == "!" then untagged
    else if shortTag tag == "!!str" then .text
    else .tagged (shortTag tag)

/-- A value is read and kept for its anchor, if it has one. -/
def anchored (anchor : Option String) (read : Build Yaml) : Build Yaml := do
  match anchor with
  | none => read
  | some name =>
    let place := (← get).anchors.size
    modify fun d => { d with anchors := d.anchors.push (name, none) }
    let value ← read
    modify fun d => { d with anchors := d.anchors.setIfInBounds place (name, some value) }
    pure value

def refer (name : String) : Build Yaml := do
  let found ← ((← get).anchors.toList.reverse.lookup name : Option (Option Yaml))
  pure (.reference name found)

/-! ## Values -/

mutual

/-- A value. Outside brackets it may be written by indentation, and behind a key a list
may stand in the column of the key. -/
def readValue : Nat → Bool → Bool → Build Yaml
  | 0, _, _ => failure
  | fuel + 1, indented, behindKey => do
    match ← next with
    | .reference name =>
      drop
      refer name
    | _ =>
      let properties ← readProperties
      let collection := fun (read : Build Yaml) => do
        drop
        anchored properties.anchor read
      match ← next with
      | .dash =>
        if behindKey then anchored properties.anchor (sequence <$> readInnerItems fuel)
        else readEmpty properties
      | .scalar text plain =>
        drop
        anchored properties.anchor (pure (scalar text (senseOf properties.tag plain)))
      | .openBracket => collection (sequence <$> readItems fuel true)
      | .openBrace => collection (mapping <$> readEntries fuel true)
      | .listStart =>
        if indented then collection (sequence <$> readListItems fuel)
        else readEmpty properties
      | .mappingStart =>
        if indented then collection (mapping <$> readMappingEntries fuel)
        else readEmpty properties
      | _ => readEmpty properties
where
  /-- A value of which only an anchor or a tag is there. -/
  readEmpty (properties : Properties) : Build Yaml :=
    if properties.anchor.isSome || properties.tag.isSome then
      anchored properties.anchor (pure (scalar "" (senseOf properties.tag true)))
    else failure

def readValueUnless : Nat → Bool → Bool → List Token → Build Yaml
  | 0, _, _, _ => failure
  | fuel + 1, indented, behindKey, stops => do
    if stops.contains (← next) then pure absent
    else readValue fuel indented behindKey

def readListItems : Nat → Build (List Yaml)
  | 0 => failure
  | fuel + 1 => do
    match ← next with
    | .dash =>
      drop
      let item ← readValueUnless fuel true false [.dash, .dedent]
      return item :: (← readListItems fuel)
    | .dedent =>
      drop
      pure []
    | _ => failure

/-- The items of a list in the column of its key. -/
def readInnerItems : Nat → Build (List Yaml)
  | 0 => failure
  | fuel + 1 => do
    match ← next with
    | .dash =>
      drop
      let item ← readValueUnless fuel true false [.dash, .key, .value, .dedent]
      return item :: (← readInnerItems fuel)
    | _ => pure []

def readMappingEntries : Nat → Build (List (Yaml × Yaml))
  | 0 => failure
  | fuel + 1 => do
    match ← next with
    | .key =>
      drop
      let key ← readValueUnless fuel true true [.key, .value, .dedent]
      let value ← readBehindColon fuel true [.key, .value, .dedent]
      return (key, value) :: (← readMappingEntries fuel)
    | .dedent =>
      drop
      pure []
    | _ => failure

def readBehindColon : Nat → Bool → List Token → Build Yaml
  | 0, _, _ => failure
  | fuel + 1, indented, stops => do
    match ← next with
    | .value =>
      drop
      readValueUnless fuel indented indented stops
    | _ => pure absent

/-- The items of a list up to its bracket; a key with a value is a mapping of its own, and
the sign behind a mark without a key goes with that mark. -/
def readItems : Nat → Bool → Build (List Yaml)
  | 0, _ => failure
  | fuel + 1, first => do
    if (← next) == .closeBracket then
      drop
      return []
    if !first then
      if (← next) == .comma then drop else failure
    match ← next with
    | .key =>
      drop
      let stops := [Token.value, .comma, .closeBracket]
      let key ←
        if stops.contains (← next) then do
          drop
          pure absent
        else readValue fuel false false
      let value ← readBehindColon fuel false [.comma, .closeBracket]
      return mapping [(key, value)] :: (← readItems fuel false)
    | .closeBracket =>
      drop
      pure []
    | _ =>
      let item ← readValue fuel false false
      return item :: (← readItems fuel false)

/-- The entries of a mapping up to its bracket; a key alone has no value. -/
def readEntries : Nat → Bool → Build (List (Yaml × Yaml))
  | 0, _ => failure
  | fuel + 1, first => do
    if (← next) == .closeBrace then
      drop
      return []
    if !first then
      if (← next) == .comma then drop else failure
    match ← next with
    | .key =>
      drop
      let key ← readValueUnless fuel false false [.value, .comma, .closeBrace]
      let value ← readBehindColon fuel false [.comma, .closeBrace]
      return (key, value) :: (← readEntries fuel false)
    | .closeBrace =>
      drop
      pure []
    | _ =>
      let key ← readValue fuel false false
      return (key, absent) :: (← readEntries fuel false)

end

/-! ## Documents -/

def standardHandles : List (String × String) :=
  [("!", "!"), ("!!", standardTags)]

/-- The lines before a document that say how it is to be read. Each is given once, and
there is one version. -/
def readDirectives : Nat → Bool → List (String × String) → Build (List (String × String))
  | 0, _, _ => failure
  | fuel + 1, versioned, handles => do
    match ← next with
    | .version major minor =>
      if versioned || major != 1 || minor != 1 then failure
      drop
      readDirectives fuel true handles
    | .tagHandle handle expansion =>
      if (handles.lookup handle).isSome then failure
      drop
      readDirectives fuel versioned (handles ++ [(handle, expansion)])
    | _ => pure handles

def readMarked (fuel : Nat) : Build Yaml := do
  let handles ← readDirectives fuel false []
  modify fun d => { d with handles := handles ++ standardHandles }
  if (← next) != .documentStart then failure
  drop
  match ← next with
  | .version .. => pure absent
  | .tagHandle .. => pure absent
  | .documentStart => pure absent
  | .documentEnd => pure absent
  | .textEnd => pure absent
  | _ => readValue fuel true false

/-- The first document of a text and what may be seen behind it. -/
def readDocument (fuel : Nat) : Build Yaml := do
  discard next
  drop
  match ← next with
  | .textEnd => pure absent
  | .version .. => ended (readMarked fuel)
  | .tagHandle .. => ended (readMarked fuel)
  | .documentStart => ended (readMarked fuel)
  | _ => ended (readValue fuel true false)
where
  /-- A document is read, and the token behind it looked at. -/
  ended (read : Build Yaml) : Build Yaml := do
    let value ← read
    discard next
    pure value

/-- The first document of a text; one that is left out is an absent value. -/
def read? (text : String) : Option Yaml := do
  let reader ← Reader.ofText text
  let (value, _) ← (readDocument (8 * reader.limit)).run
    { reader, anchors := #[], handles := standardHandles }
  pure value

end Yaml

end VoxelScout
