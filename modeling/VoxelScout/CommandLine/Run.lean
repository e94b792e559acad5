import VoxelScout.Agent
import VoxelScout.Api.Port
import VoxelScout.CommandLine
import VoxelScout.Log.Line
import VoxelScout.Trace.File

/-! # A run of the program

What the program says and how it ends, given its words, its environment and its files. A
run goes on until it is interrupted, unless it cannot start or its interface cannot be
served.
-/

namespace VoxelScout.CommandLine

def version : String :=
  "0.1.0"

inductive Failure where
  | settings (cause : Settings.LoadError)
  | trace (cause : Trace.CreateError)
  /-- The inspection interface cannot be served. -/
  | interface
  deriving DecidableEq, Repr

/-- The words for a failure, up to what the machine adds. -/
def Failure.message : Failure → String
  | .settings cause => cause.message
  | .trace cause => cause.message
  | .interface => "web"

structure Outcome where
  exitCode : Nat
  failure : Option Failure
  /-- What the program itself said, lines below the threshold left out. -/
  log : List Log.Line

abbrev Files := List (String × String)

def Files.tree (files : Files) : Storage.Tree :=
  Storage.Tree.of (files.map (·.1)) []

/-- The text at a place; what is there without a text is empty. -/
def Files.textAt (files : Files) (place : Storage.Path) : String :=
  ((files.find? fun f => Storage.Path.clean f.1 == place).map (·.2)).getD ""

def settingsFile (files : Files) (path : String) : Settings.File :=
  if path.isEmpty then .unnamed
  else match files.tree.file? path with
    | some place => .text (files.textAt place)
    | none => .unreadable

def portOf (s : Settings) : String :=
  if s.api.port.isEmpty then Api.Config.standard.port else s.api.port

def say (level : Log.Level) (message : String) (values : List (String × Json)) : Log.Line :=
  ⟨level, message, "main", values⟩

def starting : Log.Line :=
  say .info "starting botforge" [("version", .string version)]

def stopped (rows : Nat) : Log.Line :=
  say .info "stopped" [("trace_rows", .nat rows)]

def unfed (s : Settings) : List Log.Line :=
  if s.served || !s.bridge.url.isEmpty then []
  else [say .warn "no bridge URL and web disabled, nothing will feed the bot" []]

def ending (s : Settings) : Option Failure × List Log.Line :=
  if s.served && !Api.Port.isListenable (portOf s) then
    (some .interface, [say .error "component failed" []])
  else (none, [say .info "shutting down" []])

def createTrace (files : Files) (s : Settings) : Except Trace.CreateError (Option Storage.Path) :=
  if s.tracePath.isEmpty then .ok none
  else (Trace.createFile files.tree s.tracePath).map fun made => some made.1

def heard (s : Settings) (lines : List Log.Line) : List Log.Line :=
  lines.filter fun l => l.level.reaches (Log.Level.ofName s.logLevel)

/-- A run with given settings, in which `rows` rows are traced before it is interrupted. -/
def runWith (files : Files) (s : Settings) (rows : Nat) : Outcome :=
  match createTrace files s with
  | .error e => ⟨1, some (.trace e), heard s [starting]⟩
  | .ok _ =>
    let (failure, last) := ending s
    ⟨if failure.isSome then 1 else 0, failure,
      heard s (starting :: unfed s ++ last ++ [stopped rows])⟩

def settingsOf (o : Options) (env : String → Option String) (file : Settings.File) :
    Except Settings.LoadError Settings :=
  (Settings.load file env).map o.apply

def run (words : List String) (env : String → Option String) (files : Files) : Outcome :=
  match parse {} words with
  | .error misuse => ⟨misuse.exitCode, none, []⟩
  | .ok o =>
    match settingsOf o env (settingsFile files o.config) with
    | .error e => ⟨1, some (.settings e), []⟩
    | .ok s => runWith files s 0

end VoxelScout.CommandLine
