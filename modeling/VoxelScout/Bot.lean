import VoxelScout.Bot.Host
import VoxelScout.Bot.Report
import VoxelScout.Combat.Tracker
import VoxelScout.Controls.Timer
import VoxelScout.Hearing.Tracker
import VoxelScout.Sight.Tracker
import VoxelScout.Text.Blank

/-! # The bot

A bot sees, hears, fights and moves. It is fed one snapshot a tick and acts through a
host, which may be missing: then nothing is asked of anybody. Everything that acts
returns the bot together with the state of the host afterwards; no answer of the host
changes the bot, except that only a swing that was taken resets the charge.
-/

namespace VoxelScout

structure Bot (α : Type) where
  sight : Sight.Tracker α
  hearing : Hearing.Tracker α
  combat : Combat.Tracker α
  controls : Controls.Timer
  /-- The bot's own pose: that of the last tick, with the heading of the last look. -/
  self : Pose α
  lastTick : Instant
  ticks : Nat

namespace Bot

variable {σ α : Type}

structure Config (α : Type) where
  sight : Sight.Config α
  hearing : Hearing.Config α
  combat : Combat.Config α

def new [Scalar α] (config : Config α) (seed : UInt64) (now : Instant) : Bot α where
  sight := Sight.Tracker.new config.sight
  hearing := Hearing.Tracker.new config.hearing seed
  combat := Combat.Tracker.new config.combat now
  controls := Controls.Timer.idle
  self := Pose.initial
  lastTick := Instant.unset
  ticks := 0

def command (host : Option (Host σ α)) (s : σ) (commands : List (Command α)) : σ :=
  match host with
  | none => s
  | some host => host.sendAll s commands

def controlCommands (events : List Controls.Event) : List (Command α) :=
  events.map fun e => .control e.axis e.pressed

/-! ## Perceiving -/

/-- Takes in a snapshot: beliefs, aim and pose are renewed and controls whose time is over
are let go. A snapshot without a time is of now. -/
def tick [Trig α] (host : Option (Host σ α)) (b : Bot α) (s : σ) (snapshot : Snapshot α)
    (now : Instant) : Bot α × σ :=
  let snapshot := { snapshot with time := snapshot.time.orElse now }
  let (controls, events) := b.controls.tick snapshot.time
  ({ b with
      sight := b.sight.update snapshot now
      combat := b.combat.update snapshot now
      controls
      self := snapshot.self
      lastTick := snapshot.time
      ticks := b.ticks + 1 },
    command host s (controlCommands events))

def report (b : Bot α) : Report α :=
  ⟨b.ticks, b.lastTick, b.self, b.sight.beliefs⟩

def hear [Trig α] (b : Bot α) (id : PlayerId) (raw : Hearing.RawSound α) (now : Instant) :
    Hearing.Event α × Bot α :=
  let (event, hearing) := b.hearing.hear id raw b.self.position now
  (event, { b with hearing })

def withTerrain (b : Bot α) (world : World α) : Bot α :=
  if b.ticks == 0 then b else { b with combat := { b.combat with world } }

/-! ## Acting -/

def attack [Trig α] (host : Option (Host σ α)) (b : Bot α) (s : σ) (target : PlayerId)
    (now : Instant) : Bool × Bot α × σ :=
  let accept := host.map fun host id => host.accepts s (.attack id)
  let swing := b.combat.attack accept target now
  (swing.sent, { b with combat := swing.tracker }, command host s (swing.asked.map .attack))

def hold (host : Option (Host σ α)) (b : Bot α) (s : σ) (axis : Axis) (d : Duration)
    (now : Instant) : Bot α × σ :=
  let (controls, events) := b.controls.activate axis now d
  ({ b with controls }, command host s (controlCommands events))

def releaseAll (host : Option (Host σ α)) (b : Bot α) (s : σ) : Bot α × σ :=
  let (controls, events) := b.controls.releaseAll
  ({ b with controls }, command host s (controlCommands events))

def levelled [Trig α] (heading : Heading α) : Heading α :=
  let upright : α := Trig.pi / 2
  { heading with pitch := Scalar.larger (-upright) (Scalar.smaller upright heading.pitch) }

/-- Turns the head. What the bot aims at changes at once. -/
def look [Trig α] (host : Option (Host σ α)) (b : Bot α) (s : σ) (heading : Heading α) :
    Bot α × σ :=
  let heading := levelled heading
  ({ b with self := { b.self with heading }, combat := b.combat.look heading },
    command host s [.look heading])

def lookAt [Trig α] (host : Option (Host σ α)) (b : Bot α) (s : σ) (target : Vec α) :
    Bot α × σ :=
  b.look host s (Heading.toward (target.sub b.self.eye))

def chatLimit : Nat :=
  256

/-- Characters in lines of `chatLimit`, the last of which may be shorter. -/
def chunks (cs : List Char) : List (List Char) :=
  if cs.length ≤ chatLimit then [cs]
  else cs.take chatLimit :: chunks (cs.drop chatLimit)
termination_by cs.length
decreasing_by
  simp only [chatLimit, List.length_drop] at *
  omega

/-- The lines of a message, without the blanks around it; a blank message has none. -/
def chatLines (message : String) : List String :=
  let cs := Text.trimChars message.toList
  if cs.isEmpty then [] else (chunks cs).map String.ofList

/-- Says a message line by line, until the host refuses one. -/
def chat (host : Option (Host σ α)) (s : σ) (message : String) : σ :=
  match host with
  | none => s
  | some host => host.sendUntilRefused s ((chatLines message).map .chat)

def prune (b : Bot α) (now : Instant) : Bot α :=
  { b with hearing := b.hearing.prune now }

end Bot

end VoxelScout
