import VoxelScout.Bridge

/-! # The bridge with its connections

Connections have names here. A line remembers the attachments there were, which
connections fail, and which frames got through, so that it can be the host of a bot.
-/

namespace VoxelScout.Bridge

structure Line where
  bridge : Bridge
  /-- All attachments, the latest first. -/
  peers : List Peer
  /-- The connections that fail on every write, and when they are closed. -/
  broken : List String
  /-- The frames that got through, in order. -/
  delivered : List Frame
  /-- The connections that were closed, in order. -/
  hungUp : List String

namespace Line

def new (config : Config) : Line :=
  ⟨Bridge.new config, [], [], [], []⟩

def peer? (l : Line) (connection : String) : Option Peer :=
  l.peers.find? fun p => p.connection == connection

def works (l : Line) (connection : String) : Bool :=
  !l.broken.contains connection

/-- A frame is written; it gets through unless the connection is broken. -/
def write (l : Line) (frame : Frame) : Bool × Line :=
  if l.works frame.peer.connection then (true, { l with delivered := l.delivered ++ [frame] })
  else (false, l)

def hangUp (l : Line) (peer : Option Peer) : Line :=
  match peer with
  | none => l
  | some p => { l with hungUp := l.hungUp ++ [p.connection] }

def connect (l : Line) (session : PlayerId) (connection : String) (now : Instant) :
    Except Refusal Line :=
  match l.bridge.attach session connection now with
  | .error e => .error e
  | .ok (peer, before, bridge) =>
    .ok ({ l with bridge, peers := peer :: l.peers }.hangUp before)

def disconnect (l : Line) (connection : String) : Line :=
  match l.peer? connection with
  | none => l
  | some peer => { l with bridge := l.bridge.detach peer }

def setBroken (l : Line) (connection : String) (on : Bool) : Line :=
  let others := l.broken.filter (· != connection)
  { l with broken := if on then connection :: others else others }

inductive Failure where
  | refused (cause : Refusal)
  /-- The connection failed on a write. -/
  | brokenPipe
  /-- The connection failed when it was closed. -/
  | closing
  deriving DecidableEq, Repr

def Failure.message : Failure → String
  | .refused cause => cause.message
  | .brokenPipe => "broken pipe"
  | .closing => "close failed"

def close (l : Line) : Option Failure × Line :=
  let (peer, bridge) := l.bridge.close
  let failed := peer.any fun p => !l.works p.connection
  (if failed then some .closing else none, { l with bridge }.hangUp peer)

def send (l : Line) (p : Wire.Payload) (stamp : Int) : Option Failure × Line :=
  match l.bridge.sendPayload p stamp with
  | (.error cause, bridge) => (some (.refused cause), { l with bridge })
  | (.ok frame, bridge) =>
    match { l with bridge }.write frame with
    | (true, l) => (none, l)
    | (false, l) => (some .brokenPipe, l)

/-- The bridge as the host of a bot: a command is taken when its frame gets through. -/
def host (stamp : Int) : Host Line Float where
  carry l c :=
    let (failure, l) := l.send (payload c) stamp
    (failure.isNone, l)

def receive [Json.Diagnostics] (l : Line) (connection : String) (frame : List UInt8)
    (now stamp : Int) : Option Observation × Line :=
  match l.peer? connection with
  | none => (none, l)
  | some peer =>
    let receipt := l.bridge.receive frame now stamp
    let l := { l with bridge := receipt.bridge }
    match receipt.reply with
    | none => (receipt.observation, l)
    | some m => (receipt.observation, (l.write ⟨peer, m⟩).2)

end Line

end VoxelScout.Bridge
