import VoxelScout.Hearing.Codec
import VoxelScout.Snapshot.Codec
import VoxelScout.Wire.Message

/-! # Data of messages

What the messages of each type carry, how it is written, and how it is read.
-/

namespace VoxelScout.Wire

open Json

/-- One step of the simulation: the bot's pose and the roster, which may be absent. -/
structure Tick where
  self : Pose Float
  players : Option (List (Player Float))

/-- Changes of the terrain. With `reset` everything known is dropped first. -/
structure Blocks where
  reset : Bool
  updates : Option (List BlockUpdate)

structure Control where
  control : String
  state : Bool
  deriving DecidableEq, Repr

structure Attack where
  target : PlayerId
  deriving DecidableEq, Repr

structure Look where
  heading : Heading Float

structure Chat where
  message : String
  deriving DecidableEq, Repr

structure Ping where
  id : String
  time : Int
  deriving DecidableEq, Repr

/-- The answer to a ping: when it was sent, when it was answered, and the difference. -/
structure Pong where
  id : String
  pingTime : Int
  pongTime : Int
  latency : Int
  deriving DecidableEq, Repr

structure Refusal where
  kind : String
  message : String
  deriving DecidableEq, Repr

def listOrNull {α : Type} (f : α → Json) : Option (List α) → Json :=
  orNull fun items => .array (items.map f)

namespace Tick

def blank : Tick :=
  ⟨Pose.initial, none⟩

def toJson (t : Tick) : Json :=
  .object [("self", t.self.toJson), ("players", listOrNull Player.toJson t.players)]

def decode : Decoder Tick :=
  record fun ms t => do
    let self ← field ms "self" Pose.decodeDraft ⟨t.self, []⟩
    let players ← listField ms "players" Player.decode Player.blank t.players
    pure ⟨self.pose, players⟩

/-- The step as a snapshot over some terrain, without a time. -/
def snapshot (t : Tick) (world : World Float) : Snapshot Float :=
  { time := Instant.unset, self := t.self, players := t.players.getD [], world }

end Tick

namespace Blocks

def blank : Blocks :=
  ⟨false, none⟩

def toJson (b : Blocks) : Json :=
  .object (memberIf b.reset "reset" (.bool true)
    ++ [("updates", listOrNull BlockUpdate.toJson b.updates)])

def decode : Decoder Blocks :=
  record fun ms b => do
    let reset ← field ms "reset" asBool b.reset
    let updates ← listField ms "updates" BlockUpdate.decode BlockUpdate.blank b.updates
    pure ⟨reset, updates⟩

def applyTo (b : Blocks) (g : Grid) : Grid :=
  (if b.reset then Grid.empty else g).apply (b.updates.getD [])

end Blocks

namespace Control

def blank : Control :=
  ⟨"", false⟩

def toJson (c : Control) : Json :=
  .object [("control", .string c.control), ("state", .bool c.state)]

def decode : Decoder Control :=
  record fun ms c => do
    let control ← field ms "control" asString c.control
    let state ← field ms "state" asBool c.state
    pure ⟨control, state⟩

end Control

namespace Attack

def blank : Attack :=
  ⟨PlayerId.nil⟩

def toJson (a : Attack) : Json :=
  .object [("target", a.target.toJson)]

def decode : Decoder Attack :=
  record fun ms a => do
    let target ← field ms "target" PlayerId.decode a.target
    pure ⟨target⟩

end Attack

namespace Look

def blank : Look :=
  ⟨⟨0, 0⟩⟩

def toJson (l : Look) : Json :=
  .object [("yaw", .float l.heading.yaw), ("pitch", .float l.heading.pitch)]

def decode : Decoder Look :=
  record fun ms l => do
    let yaw ← field ms "yaw" asFloat l.heading.yaw
    let pitch ← field ms "pitch" asFloat l.heading.pitch
    pure ⟨⟨yaw, pitch⟩⟩

end Look

namespace Chat

def blank : Chat :=
  ⟨""⟩

def toJson (c : Chat) : Json :=
  .object [("message", .string c.message)]

def decode : Decoder Chat :=
  record fun ms c => do
    let message ← field ms "message" asString c.message
    pure ⟨message⟩

end Chat

namespace Ping

def blank : Ping :=
  ⟨"", 0⟩

def toJson (p : Ping) : Json :=
  .object [("id", .string p.id), ("ts", .int p.time)]

def decode : Decoder Ping :=
  record fun ms p => do
    let id ← field ms "id" asString p.id
    let time ← field ms "ts" asInt p.time
    pure ⟨id, time⟩

end Ping

namespace Pong

def blank : Pong :=
  ⟨"", 0, 0, 0⟩

/-- The answer to a ping, with the latency in 64-bit arithmetic. -/
def answer (id : String) (pingTime pongTime : Int) : Pong :=
  ⟨id, pingTime, pongTime, Duration.wrap (pongTime - pingTime)⟩

def toJson (p : Pong) : Json :=
  .object [("id", .string p.id), ("ping_ts", .int p.pingTime), ("pong_ts", .int p.pongTime),
    ("latency_ms", .int p.latency)]

def decode : Decoder Pong :=
  record fun ms p => do
    let id ← field ms "id" asString p.id
    let pingTime ← field ms "ping_ts" asInt p.pingTime
    let pongTime ← field ms "pong_ts" asInt p.pongTime
    let latency ← field ms "latency_ms" asInt p.latency
    pure ⟨id, pingTime, pongTime, latency⟩

end Pong

namespace Refusal

def toJson (r : Refusal) : Json :=
  .object (memberIf (r.kind != "") "type" (.string r.kind) ++ [("message", .string r.message)])

end Refusal

inductive Payload where
  | tick (data : Tick)
  | sound (data : Hearing.RawSound Float)
  | blocks (data : Blocks)
  | control (data : Control)
  | attack (data : Attack)
  | look (data : Look)
  | chat (data : Chat)
  | ping (data : Ping)
  | pong (data : Pong)
  | refusal (data : Refusal)
  | state (data : Json)

namespace Payload

def kind : Payload → String
  | .tick _ => "tick"
  | .sound _ => "sound"
  | .blocks _ => "blocks"
  | .control _ => "control"
  | .attack _ => "attack"
  | .look _ => "look"
  | .chat _ => "chat"
  | .ping _ => "ping"
  | .pong _ => "pong"
  | .refusal _ => "error"
  | .state _ => "state"

def toJson : Payload → Json
  | .tick d => d.toJson
  | .sound d => d.toJson
  | .blocks d => d.toJson
  | .control d => d.toJson
  | .attack d => d.toJson
  | .look d => d.toJson
  | .chat d => d.toJson
  | .ping d => d.toJson
  | .pong d => d.toJson
  | .refusal d => d.toJson
  | .state d => d

/-- The data of a message read as that of a given type. Types that are only written have
no reader. -/
def ofMessage? (kind : String) (m : Message) : Option (Option Payload) :=
  if kind == "tick" then some ((m.decode? Tick.decode Tick.blank).map .tick)
  else if kind == "sound" then
    some ((m.decode? Hearing.RawSound.decode Hearing.RawSound.blank).map .sound)
  else if kind == "blocks" then some ((m.decode? Blocks.decode Blocks.blank).map .blocks)
  else if kind == "control" then some ((m.decode? Control.decode Control.blank).map .control)
  else if kind == "attack" then some ((m.decode? Attack.decode Attack.blank).map .attack)
  else if kind == "look" then some ((m.decode? Look.decode Look.blank).map .look)
  else if kind == "chat" then some ((m.decode? Chat.decode Chat.blank).map .chat)
  else if kind == "ping" then some ((m.decode? Ping.decode Ping.blank).map .ping)
  else if kind == "pong" then some ((m.decode? Pong.decode Pong.blank).map .pong)
  else none

end Payload

namespace Message

/-- The message that carries data, stamped with a time. Data with a number that is not
finite cannot be carried. -/
def ofPayload? (p : Payload) (time : Int) : Option Message :=
  p.toJson.write?.map fun bytes => ⟨p.kind, time, some bytes⟩

def carryFailure : String :=
  "failed to marshal message data"

end Message

end VoxelScout.Wire
