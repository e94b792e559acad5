import Mathlib.Tactic.DeprecateTo
import VoxelScout.CommandLine.Run

/-! # The program

Runs a bot from the command line. The sidecar of the game writes its frames to the
standard input, one a line, and reads what the bot answers from the standard output.
-/

open VoxelScout

namespace VoxelScout.CommandLine

def logLine (style : Log.Style) (s : Settings) (l : Log.Line) : IO Unit :=
  (heard s [l]).forM fun l => IO.eprintln (style.render l)

def presentTime : IO Instant := do
  let now ← Std.Time.Timestamp.now
  pure ⟨now.toNanosecondsSinceUnixEpoch.val⟩

/-- The words are up to the reader of JSON. -/
local instance diagnostics : Json.Diagnostics where
  unreadable form _ := "no " ++ form ++ " in JSON"
  unwritable _ := "no value of JSON"

/-- The bytes up to the end of the line; nothing is left at the end of the input. -/
partial def nextFrame? (input : IO.FS.Stream) (read : List UInt8) : IO (Option (List UInt8)) := do
  match (← input.read 1).data.toList with
  | [] => pure (if read.isEmpty then none else some read.reverse)
  | b :: _ => if b == 10 then pure (some read.reverse) else nextFrame? input (b :: read)

def writeFrames (output : IO.FS.Stream) (a : Agent) : IO Agent := do
  for sent in a.line.delivered do
    output.write (sent.message.write?.getD [] ++ [10]).toByteArray
  output.flush
  pure { a with line.delivered := [] }

partial def feed (input output : IO.FS.Stream) (a : Agent) : IO Agent := do
  match ← nextFrame? input [] with
  | none => writeFrames output (a.windDown (← presentTime))
  | some frame =>
    let a := a.receive PlayerId.nil "sidecar" frame (← presentTime) (← presentTime)
    feed input output (← writeFrames output a)

def readSettings (path : String) : IO Settings.File := do
  if path.isEmpty then pure .unnamed
  else
    try pure (.text (← IO.FS.readFile path))
    catch _ => pure .unreadable

def fail (f : Failure) : IO UInt32 := do
  IO.eprintln ("botforge: " ++ f.message)
  pure 1

def succeeds (action : IO Unit) : IO Bool := do
  match ← action.toBaseIO with
  | .ok () => pure true
  | .error _ => pure false

def makeTrace (path : String) : IO (Option Trace.CreateError) := do
  let folder := String.intercalate "/" (path.splitOn "/").dropLast
  if !folder.isEmpty && !(← succeeds (IO.FS.createDirAll folder)) then pure (some .directory)
  else if ← succeeds (IO.FS.writeFile path "") then pure none
  else pure (some .file)

def runBot (style : Log.Style) (s : Settings) : IO UInt32 := do
  let say := logLine style s
  say starting
  let traced := !s.tracePath.isEmpty
  if let some e ← (if traced then makeTrace s.tracePath else pure none) then
    return ← fail (.trace e)
  (unfed s).forM say
  let now ← presentTime
  let agent := Agent.new ⟨s.sight, s.hearing, s.combat⟩ s.bridge s.seed true traced now
  let agent := match agent.line.connect PlayerId.nil "sidecar" now with
    | .ok line => { agent with line }
    | .error _ => agent
  let agent ← feed (← IO.getStdin) (← IO.getStdout) agent
  let rows := (agent.trace.map fun t => t.recorder.count).getD 0
  if let some t := agent.trace then IO.FS.writeFile s.tracePath t.text
  (ending s).2.forM say
  say (stopped rows)
  match (ending s).1 with
  | some f => fail f
  | none => pure 0

end VoxelScout.CommandLine

open VoxelScout.CommandLine

def main (words : List String) : IO UInt32 := do
  match parse {} words with
  | .error misuse => pure (UInt32.ofNat misuse.exitCode)
  | .ok o =>
    let names := ["BOTFORGE_BRIDGE_URL", "BOTFORGE_WEB_PORT", "BOTFORGE_LOG_LEVEL", "BOTFORGE_ENV"]
    let values ← names.mapM fun name => do pure (name, ← IO.getEnv name)
    let env := fun name => (values.lookup name).join
    match settingsOf o env (← readSettings o.config) with
    | .error e => fail (.settings e)
    | .ok s => runBot (Log.Style.ofEnvironment env) s
