import VoxelScout.Bot.Status
import VoxelScout.Bridge.Line
import VoxelScout.Trace.Recorder

/-! # A bot on its bridge

What arrives over the bridge is told to the bot, what the bot commands leaves over the
bridge, and every tick can be traced. All operations take the time they happen at.
-/

namespace VoxelScout

structure TraceLog where
  recorder : Trace.Recorder
  text : String

namespace TraceLog

def empty : TraceLog :=
  ⟨Trace.Recorder.new, ""⟩

def record (t : TraceLog) (report : Report Float) : TraceLog :=
  let (outcome, recorder) := t.recorder.record report true
  ⟨recorder, t.text ++ outcome.text⟩

end TraceLog

structure Agent where
  bot : Bot Float
  line : Bridge.Line
  /-- The bot acts through the bridge. -/
  hosted : Bool
  /-- The bot is told what arrives over the bridge. -/
  listening : Bool
  trace : Option TraceLog

namespace Agent

open Bridge

def new (config : Bot.Config Float) (bridge : Bridge.Config) (seed : UInt64) (hosted traced : Bool)
    (now : Instant) : Agent where
  bot := Bot.new config seed now
  line := Line.new bridge
  hosted := hosted
  listening := true
  trace := if traced then some TraceLog.empty else none

def terrain (a : Agent) : World Float :=
  a.line.bridge.grid.world

def host? (a : Agent) (now : Instant) : Option (Host Line Float) :=
  if a.hosted then some (Line.host now.toMilliseconds) else none

def withOutcome (a : Agent) (outcome : Bot Float × Line) : Agent :=
  { a with bot := outcome.1, line := outcome.2 }

def tick (a : Agent) (snapshot : Snapshot Float) (now : Instant) : Agent :=
  let a := a.withOutcome (a.bot.tick (a.host? now) a.line snapshot now)
  { a with trace := a.trace.map fun t => t.record a.bot.report }

def hear (a : Agent) (id : PlayerId) (raw : Hearing.RawSound Float) (now : Instant) :
    Hearing.Event Float × Agent :=
  let (event, bot) := a.bot.hear id raw now
  (event, { a with bot })

def observe (a : Agent) (id : PlayerId) (observation : Option Observation) (now : Instant) :
    Agent :=
  if a.listening then
    match observation with
    | none => a
    | some (.tick snapshot) => a.tick snapshot now
    | some (.sound raw) => (a.hear id raw now).2
  else a

def refreshTerrain (a : Agent) : Agent :=
  { a with bot := a.bot.withTerrain a.terrain }

/-- Takes a frame from a connection; `id` is the name of a sound that it may bring, and the
answer to it is stamped at `sent`. -/
def receive [Json.Diagnostics] (a : Agent) (id : PlayerId) (connection : String)
    (frame : List UInt8) (now sent : Instant) : Agent :=
  let (observation, line) :=
    a.line.receive connection frame now.toMilliseconds sent.toMilliseconds
  ({ a with line }.observe id observation now).refreshTerrain

def attack (a : Agent) (target : PlayerId) (now : Instant) : Bool × Agent :=
  let (sent, outcome) := a.bot.attack (a.host? now) a.line target now
  (sent, a.withOutcome outcome)

def hold (a : Agent) (axis : Axis) (d : Duration) (now : Instant) : Agent :=
  a.withOutcome (a.bot.hold (a.host? now) a.line axis d now)

def look (a : Agent) (heading : Heading Float) (now : Instant) : Agent :=
  a.withOutcome (a.bot.look (a.host? now) a.line heading)

def lookAt (a : Agent) (target : Vec Float) (now : Instant) : Agent :=
  a.withOutcome (a.bot.lookAt (a.host? now) a.line target)

def chat (a : Agent) (message : String) (now : Instant) : Agent :=
  { a with line := Bot.chat (a.host? now) a.line message }

/-- The last thing a bot does: no control stays pressed. -/
def windDown (a : Agent) (now : Instant) : Agent :=
  a.withOutcome (a.bot.releaseAll (a.host? now) a.line)

end Agent

end VoxelScout
