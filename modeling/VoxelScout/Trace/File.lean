import VoxelScout.Storage

/-! # Where a trace is written

A trace goes to a file of a directory; directories on the way to it are made.
-/

namespace VoxelScout.Trace

open Storage

inductive CreateError where
  | directory
  | file
  deriving DecidableEq, Repr

def CreateError.message : CreateError → String
  | .directory => "creating trace directory"
  | .file => "creating trace file"

/-- Makes the file of a trace, and first the directory that holds it; gives its place. -/
def createFile (t : Tree) (path : String) : Except CreateError (Path × Tree) :=
  let parent := Path.parent path
  match (if parent.isEmpty then some t else t.makeDirectory? parent) with
  | none => .error .directory
  | some t =>
    match t.makeFile? path with
    | none => .error .file
    | some made => .ok made

end VoxelScout.Trace
