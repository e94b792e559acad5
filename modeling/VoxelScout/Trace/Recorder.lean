import VoxelScout.Trace.Row

/-! # Recording a trace

The recorder writes the rows of one report after the other. The names of the columns come
with the first rows that are written; a report without players writes nothing.
-/

namespace VoxelScout.Trace

/-- Whether the names of the columns are written, and how many rows are. -/
structure Recorder where
  headerWritten : Bool
  count : Nat
  deriving DecidableEq, Repr

inductive Outcome where
  /-- The text was written; it may be empty. -/
  | written (text : String)
  /-- The text could not be written, and nothing of it was. -/
  | failed
  deriving DecidableEq, Repr

namespace Outcome

def text : Outcome → String
  | .written t => t
  | .failed => ""

def isFailure : Outcome → Bool
  | .written _ => false
  | .failed => true

end Outcome

def writeFailure (cause : String) : String :=
  "writing trace: " ++ cause

namespace Recorder

def new : Recorder :=
  ⟨false, 0⟩

def textOf (r : Recorder) (report : Report Float) : String :=
  let table := (rows report).map Row.cells
  Csv.write (if r.headerWritten then table else header :: table)

/-- Records a report; `accepts` says whether the writer takes the text. -/
def record (r : Recorder) (report : Report Float) (accepts : Bool) : Outcome × Recorder :=
  if report.players.isEmpty then (.written "", r)
  else if accepts then
    (.written (r.textOf report), ⟨true, r.count + report.players.length⟩)
  else (.failed, r)

end Recorder

end VoxelScout.Trace
