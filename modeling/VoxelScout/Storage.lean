/-! # Files and directories

Paths, and the files and directories that they lead to. A path can be put into its normal
form by its text alone (`Path.clean`), or followed part by part (`Tree.place?`), where all
parts but the last have to be directories that are there. The two differ: going into a
directory that is missing and out of it again leads nowhere.
-/

namespace VoxelScout.Storage

/-- The parts of a path, from the working directory or from the root. -/
abbrev Path := List String

namespace Path

def root : String :=
  "/"

/-- The parts between slashes, the empty ones left out; the root comes first. -/
def parts (path : String) : Path :=
  let named := (path.splitOn "/").filter (· != "")
  if path.startsWith "/" then root :: named else named

def step (path : Path) (part : String) : Path :=
  if part == "." then path
  else if part != ".." then path ++ [part]
  else match path.getLast? with
    | none => [".."]
    | some last =>
      if last == ".." then path ++ [".."]
      else if last == root then path
      else path.dropLast

/-- The normal form of a path, by its text alone. -/
def clean (path : String) : Path :=
  (parts path).foldl step []

def parent (path : String) : Path :=
  let above := String.intercalate "/" (path.splitOn "/").dropLast
  clean (if path.startsWith "/" then "/" ++ above else above)

def text : Path → String
  | [] => "."
  | first :: rest =>
    if first == root then root ++ String.intercalate "/" rest
    else String.intercalate "/" (first :: rest)

/-- All beginnings of a path, the path itself included. -/
def beginnings : Path → List Path
  | [] => [[]]
  | part :: rest => [] :: (beginnings rest).map (part :: ·)

def nameLimit : Nat :=
  255

def lengthLimit : Nat :=
  4095

def isName (part : String) : Bool :=
  part.utf8ByteSize ≤ nameLimit && !part.toList.contains '\x00'

end Path

structure Tree where
  files : List Path
  directories : List Path

namespace Tree

/-- The file that is always empty, whatever is written to it. -/
def sink : Path :=
  [Path.root, "dev", "null"]

/-- The tree of given files and directories, with everything on the way to them. -/
def of (files directories : List String) : Tree :=
  let files := sink :: files.map Path.clean
  let above := files.flatMap fun f => Path.beginnings f.dropLast
  ⟨files, above ++ directories.flatMap fun d => Path.beginnings (Path.clean d)⟩

/-- The path is a directory; the working directory is one, and so is what lies above. -/
def isDirectory (t : Tree) (path : Path) : Bool :=
  path.all (fun p => p == ".." || p == Path.root) || t.directories.contains path

def enter? (t : Tree) : Path → List String → Option Path
  | place, [] => some place
  | place, part :: rest =>
    let next := Path.step place part
    if t.isDirectory next then t.enter? next rest else none

/-- The place that a path leads to; nothing needs to be there yet. -/
def place? (t : Tree) (path : String) : Option Path :=
  let parts := Path.parts path
  match parts.getLast? with
  | none => none
  | some last =>
    if Path.isName last && path.utf8ByteSize ≤ Path.lengthLimit then
      (t.enter? [] parts.dropLast).map fun place => Path.step place last
    else none

def file? (t : Tree) (path : String) : Option Path :=
  if path.endsWith "/" then none else (t.place? path).filter t.files.contains

/-- The tree with a directory and those on the way to it, unless a file is in the way or a
name cannot be given. -/
def makeDirectory? (t : Tree) (path : Path) : Option Tree :=
  if (Path.beginnings path).any t.files.contains || !path.all Path.isName
      || Path.lengthLimit < (Path.text path).utf8ByteSize then none
  else some { t with directories := t.directories ++ Path.beginnings path }

def makeFile? (t : Tree) (path : String) : Option (Path × Tree) :=
  if path.endsWith "/" then none
  else ((t.place? path).filter (!t.isDirectory ·)).map fun place =>
    (place, { t with files := place :: t.files })

end Tree

end VoxelScout.Storage
