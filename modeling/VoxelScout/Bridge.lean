import VoxelScout.Bot.Host
import VoxelScout.Bridge.Config
import VoxelScout.Terrain.Raycast
import VoxelScout.Wire.Payload

/-! # The bridge to the game

A sidecar of the game is connected to the bridge, one at a time: a new connection takes
the place of the one before. What the sidecar observes arrives in frames and becomes calls
on whoever listens; commands leave in frames to the sidecar that is attached. The bridge
only says which frames are handed to which connection and which connections are closed;
whether a write succeeds is up to the connection.
-/

namespace VoxelScout

open Wire

namespace Bridge

/-- A connection of a sidecar. Attachments are numbered, so that two of them differ even
when they use the same connection. -/
structure Peer where
  number : Nat
  session : PlayerId
  connection : String
  since : Instant
  deriving DecidableEq, Repr

structure Frame where
  peer : Peer
  message : Message
  deriving DecidableEq, Repr

inductive Refusal where
  /-- A number in the command cannot be written. -/
  | unwritable
  /-- No sidecar is attached. -/
  | notConnected
  | closed
  /-- There is no address to dial. -/
  | noAddress
  deriving DecidableEq, Repr

def Refusal.message : Refusal → String
  | .unwritable => Message.carryFailure
  | .notConnected => "bridge: not connected"
  | .closed => "bridge: closed"
  | .noAddress => "bridge: sidecar URL required"

structure Counters where
  connections : Nat
  received : Nat
  sent : Nat
  ticks : Nat
  rejected : Nat
  deriving DecidableEq, Repr

inductive Observation where
  | tick (snapshot : Snapshot Float)
  | sound (raw : Hearing.RawSound Float)

end Bridge

open Bridge in
structure Bridge where
  config : Bridge.Config
  /-- The terrain as far as it was reported. -/
  grid : Grid
  peer : Option Peer
  closed : Bool
  counters : Counters

namespace Bridge

def new (config : Config) : Bridge where
  config := config.withDefaults
  grid := Grid.empty
  peer := none
  closed := false
  counters := ⟨0, 0, 0, 0, 0⟩

def connected (b : Bridge) : Bool :=
  b.peer.isSome

/-! ## Attaching -/

/-- Attaches a sidecar. The one before, if there was one, is to be closed. -/
def attach (b : Bridge) (session : PlayerId) (connection : String) (now : Instant) :
    Except Refusal (Peer × Option Peer × Bridge) :=
  if b.closed then .error .closed
  else
    let peer : Peer := ⟨b.counters.connections, session, connection, now⟩
    .ok (peer, b.peer,
      { b with
        peer := some peer
        counters := { b.counters with connections := b.counters.connections + 1 } })

/-- A sidecar has gone; another one that is attached by now stays. -/
def detach (b : Bridge) (peer : Peer) : Bridge :=
  if b.peer == some peer then { b with peer := none } else b

def close (b : Bridge) : Option Peer × Bridge :=
  if b.closed then (none, b) else (b.peer, { b with closed := true, peer := none })

/-! ## Commands -/

def payload : Command Float → Payload
  | .control axis pressed => .control ⟨axis.name, pressed⟩
  | .attack target => .attack ⟨target⟩
  | .look heading => .look ⟨heading⟩
  | .chat line => .chat ⟨line⟩

def countSent (b : Bridge) : Bridge :=
  { b with counters := { b.counters with sent := b.counters.sent + 1 } }

def send (b : Bridge) (m : Message) : Except Refusal Frame × Bridge :=
  if b.closed then (.error .closed, b)
  else match b.peer with
    | none => (.error .notConnected, b)
    | some peer => (.ok ⟨peer, m⟩, b.countSent)

/-- Hands data to the attached sidecar, with a time stamp. Data that cannot be written is
refused whether or not one is attached. -/
def sendPayload (b : Bridge) (p : Payload) (stamp : Int) : Except Refusal Frame × Bridge :=
  match Message.ofPayload? p stamp with
  | none => (.error .unwritable, b)
  | some m => b.send m

def command (b : Bridge) (c : Command Float) (stamp : Int) : Except Refusal Frame × Bridge :=
  b.sendPayload (payload c) stamp

/-! ## Frames from a sidecar -/

structure Receipt where
  observation : Option Observation
  reply : Option Message
  bridge : Bridge

inductive Fault where
  /-- It is no message. -/
  | message (cause : ParseError)
  /-- It is a message of a known type with data of another form. -/
  | data (kind : String)
  deriving DecidableEq, Repr

def Fault.refusal [Json.Diagnostics] (frame : List UInt8) : Fault → Wire.Refusal
  | .message cause => ⟨"", cause.message (Json.Diagnostics.unreadable "message" frame)⟩
  | .data kind => ⟨kind, Json.Diagnostics.unreadable kind frame⟩

/-- A frame that asks for something: ticks, sounds, terrain and pings. Frames of other
types ask for nothing. -/
inductive Request where
  | tick (data : Tick)
  | sound (raw : Hearing.RawSound Float)
  | blocks (data : Blocks)
  | ping (data : Ping) (time : Int)
  | nothing

def Request.ofFrame (frame : List UInt8) : Except Fault Request :=
  match Message.parse frame with
  | .error cause => .error (.message cause)
  | .ok m =>
    if ["tick", "sound", "blocks", "ping"].contains m.kind then
      match Payload.ofMessage? m.kind m with
      | some (some (.tick d)) => .ok (.tick d)
      | some (some (.sound d)) => .ok (.sound d)
      | some (some (.blocks d)) => .ok (.blocks d)
      | some (some (.ping d)) => .ok (.ping d m.time)
      | _ => .error (.data m.kind)
    else .ok .nothing

def countReceived (b : Bridge) : Bridge :=
  { b with counters := { b.counters with received := b.counters.received + 1 } }

def replyWith (b : Bridge) : Option Message → Receipt
  | none => ⟨none, none, b⟩
  | some m => ⟨none, some m, b.countSent⟩

/-- Does what a frame asks for. The answer to a ping tells one reading of the clock and is
stamped with a later one. -/
def serve (b : Bridge) (now stamp : Int) : Request → Receipt
  | .tick d =>
    ⟨some (.tick (d.snapshot b.grid.world)), none,
      { b with counters := { b.counters with ticks := b.counters.ticks + 1 } }⟩
  | .sound raw => ⟨some (.sound raw), none, b⟩
  | .blocks d => ⟨none, none, { b with grid := d.applyTo b.grid }⟩
  | .ping d time =>
    b.replyWith (Message.ofPayload? (.pong (Pong.answer d.id time now)) stamp)
  | .nothing => ⟨none, none, b⟩

def turnDown [Json.Diagnostics] (b : Bridge) (frame : List UInt8) (stamp : Int) (fault : Fault) :
    Receipt :=
  ⟨none, Message.ofPayload? (.refusal (fault.refusal frame)) stamp,
    { b with counters := { b.counters with rejected := b.counters.rejected + 1 } }⟩

def receive [Json.Diagnostics] (b : Bridge) (frame : List UInt8) (now stamp : Int) : Receipt :=
  match Request.ofFrame frame with
  | .ok request => b.countReceived.serve now stamp request
  | .error fault => b.countReceived.turnDown frame stamp fault

/-! ## Dialling -/

def dial (b : Bridge) : Except Refusal String :=
  if b.config.url == "" then .error .noAddress else .ok b.config.url

/-! ## Statistics -/

def stats (b : Bridge) : Json :=
  let c := b.counters
  .object ([("connected", .bool b.connected)]
    ++ Json.optionalMember "session" (fun p : Peer => .string p.session.render) b.peer
    ++ [("connected_at", .string ((b.peer.map (·.since)).getD Instant.unset).render),
      ("connections", .nat c.connections), ("messages_received", .nat c.received),
      ("messages_sent", .nat c.sent), ("ticks", .nat c.ticks), ("rejected", .nat c.rejected),
      ("known_blocks", .nat b.grid.size)])

end Bridge

end VoxelScout
