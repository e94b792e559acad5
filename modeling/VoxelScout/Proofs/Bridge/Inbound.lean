import VoxelScout.Bridge.Line
import VoxelScout.Proofs.Json.Numerals
import VoxelScout.Proofs.Json.Refusal

/-! # Frames as direct calls

Whatever bytes arrive, the bridge does what a listener would see who read every frame
alone: ticks and sounds are passed on, terrain is changed by whole batches, and frames that
cannot be read change nothing but the count of them.
-/

namespace VoxelScout.Bridge

open Wire

/-! ## Reading one frame alone -/

def typed? (bytes : List UInt8) (kind : String) : Option Message :=
  match Message.parse bytes with
  | .error _ => none
  | .ok m => if m.kind = kind then some m else none

def tick? (bytes : List UInt8) : Option Tick :=
  (typed? bytes "tick").bind fun m => m.decode? Tick.decode Tick.blank

def sound? (bytes : List UInt8) : Option (Hearing.RawSound Float) :=
  (typed? bytes "sound").bind fun m => m.decode? Hearing.RawSound.decode Hearing.RawSound.blank

def blocks? (bytes : List UInt8) : Option Blocks :=
  (typed? bytes "blocks").bind fun m => m.decode? Blocks.decode Blocks.blank

def ping? (bytes : List UInt8) : Option (String × Int) :=
  (typed? bytes "ping").bind fun m =>
    (m.decode? Ping.decode Ping.blank).map fun p => (p.id, m.time)

section

variable [Json.Diagnostics]

def refusal? (bytes : List UInt8) : Option Wire.Refusal :=
  match Message.parse bytes with
  | .error cause => some ⟨"", cause.message (Json.Diagnostics.unreadable "message" bytes)⟩
  | .ok m =>
    if m.kind = "tick" ∧ tick? bytes = none ∨ m.kind = "sound" ∧ sound? bytes = none ∨
        m.kind = "blocks" ∧ blocks? bytes = none ∨ m.kind = "ping" ∧ ping? bytes = none then
      some ⟨m.kind, Json.Diagnostics.unreadable m.kind bytes⟩
    else none

/-! ## One reading for each frame -/

structure Reading where
  tick : Option Tick := none
  sound : Option (Hearing.RawSound Float) := none
  blocks : Option Blocks := none
  ping : Option (String × Int) := none
  refusal : Option Wire.Refusal := none

def Reading.ofBytes (bytes : List UInt8) : Reading :=
  ⟨tick? bytes, sound? bytes, blocks? bytes, ping? bytes, refusal? bytes⟩

/-- What the bridge makes of a frame: at most one of the readings. -/
def Reading.ofOutcome (frame : List UInt8) : Except Fault Request → Reading
  | .ok (.tick d) => { tick := some d }
  | .ok (.sound raw) => { sound := some raw }
  | .ok (.blocks d) => { blocks := some d }
  | .ok (.ping d time) => { ping := some (d.id, time) }
  | .ok .nothing => {}
  | .error fault => { refusal := some (fault.refusal frame) }

/-- The bridge reads a frame as the readers do, each of which looks at one type only. -/
theorem Reading.ofBytes_eq (bytes : List UInt8) :
    Reading.ofBytes bytes = Reading.ofOutcome bytes (Request.ofFrame bytes) := by
  unfold Reading.ofBytes Request.ofFrame refusal? tick? sound? blocks? ping? typed?
  cases hparse : Message.parse bytes with
  | error cause => simp [Reading.ofOutcome, Fault.refusal]
  | ok m =>
      -- at most one reader finds its type, and only that one can fail on the data
      by_cases htick : m.kind = "tick"
      · cases hdata : m.decode? Tick.decode Tick.blank <;>
          simp [Payload.ofMessage?, Reading.ofOutcome, Fault.refusal, htick, hdata]
      by_cases hsound : m.kind = "sound"
      · cases hdata : m.decode? Hearing.RawSound.decode Hearing.RawSound.blank <;>
          simp [Payload.ofMessage?, Reading.ofOutcome, Fault.refusal, hsound, hdata]
      by_cases hblocks : m.kind = "blocks"
      · cases hdata : m.decode? Blocks.decode Blocks.blank <;>
          simp [Payload.ofMessage?, Reading.ofOutcome, Fault.refusal, hblocks, hdata]
      by_cases hping : m.kind = "ping"
      · cases hdata : m.decode? Ping.decode Ping.blank <;>
          simp [Payload.ofMessage?, Reading.ofOutcome, Fault.refusal, hping, hdata]
      simp [Reading.ofOutcome, htick, hsound, hblocks, hping]

/-! ## What one frame does -/

def call? (grid : Grid) (bytes : List UInt8) : Option Observation :=
  match tick? bytes, sound? bytes with
  | some t, _ => some (.tick ⟨Instant.unset, t.self, t.players.getD [], grid.world⟩)
  | none, some raw => some (.sound raw)
  | none, none => none

/-- The terrain after some bytes: a batch is applied as a whole, to nothing when it asks to
start over. -/
def terrain (grid : Grid) (bytes : List UInt8) : Grid :=
  match blocks? bytes with
  | some batch =>
    (batch.updates.getD []).foldl Grid.set (if batch.reset then Grid.empty else grid)
  | none => grid

/-- The answer to some bytes, stamped with a time: a refusal says why they were not taken,
and a ping is answered with its name, its time, and that at which it is answered. -/
def answer? (bytes : List UInt8) (now stamp : Int) : Option Message :=
  match refusal? bytes, ping? bytes with
  | some r, _ => some ⟨"error", stamp, some r.toJson.bytes⟩
  | none, some (id, time) =>
    let pong : Pong := ⟨id, time, now, Duration.wrap (now - time)⟩
    some ⟨"pong", stamp, some pong.toJson.bytes⟩
  | none, none => none

/-- The bridge does with a frame what is read off its bytes. -/
structure Receipt.Of (b : Bridge) (bytes : List UInt8) (now stamp : Int) (r : Receipt) :
    Prop where
  observation : r.observation = call? b.grid bytes
  reply : r.reply = answer? bytes now stamp
  grid : r.bridge.grid = terrain b.grid bytes
  received : r.bridge.counters.received = b.counters.received + 1
  ticks : r.bridge.counters.ticks = b.counters.ticks + (tick? bytes).isSome.toNat
  rejected : r.bridge.counters.rejected = b.counters.rejected + (refusal? bytes).isSome.toNat

theorem turnDown_of {b : Bridge} {bytes : List UInt8} {fault : Fault} (now stamp : Int)
    (h : Reading.ofBytes bytes = Reading.ofOutcome bytes (.error fault)) :
    (b.countReceived.turnDown bytes stamp fault).Of b bytes now stamp := by
  obtain ⟨htick, hsound, hblocks, -, hrefusal⟩ := Reading.mk.inj h
  have hreply : Message.ofPayload? (.refusal (fault.refusal bytes)) stamp =
      some ⟨"error", stamp, some (fault.refusal bytes).toJson.bytes⟩ :=
    Message.ofPayload?_of_writable (.refusal _) (fault.refusal bytes).writable stamp
  constructor <;>
    simp [turnDown, countReceived, call?, answer?, terrain, htick, hsound, hblocks, hrefusal,
      hreply]

theorem serve_of {b : Bridge} {bytes : List UInt8} {request : Request} (now stamp : Int)
    (h : Reading.ofBytes bytes = Reading.ofOutcome bytes (.ok request)) :
    (b.countReceived.serve now stamp request).Of b bytes now stamp := by
  cases request with
  | tick d =>
      obtain ⟨htick, hsound, hblocks, hping, hrefusal⟩ := Reading.mk.inj h
      constructor <;>
        simp [serve, countReceived, Tick.snapshot, call?, answer?, terrain, htick, hblocks, hping,
          hrefusal]
  | sound raw =>
      obtain ⟨htick, hsound, hblocks, hping, hrefusal⟩ := Reading.mk.inj h
      constructor <;>
        simp [serve, countReceived, call?, answer?, terrain, htick, hsound, hblocks, hping,
          hrefusal]
  | blocks d =>
      obtain ⟨htick, hsound, hblocks, hping, hrefusal⟩ := Reading.mk.inj h
      constructor <;>
        simp [serve, countReceived, Blocks.applyTo, Grid.apply, call?, answer?, terrain, htick,
          hsound, hblocks, hping, hrefusal]
  | ping d time =>
      obtain ⟨htick, hsound, hblocks, hping, hrefusal⟩ := Reading.mk.inj h
      have hreply (pong : Pong) : Message.ofPayload? (.pong pong) stamp =
          some ⟨"pong", stamp, some pong.toJson.bytes⟩ :=
        Message.ofPayload?_of_writable (.pong pong) pong.writable stamp
      constructor <;>
        simp [serve, countReceived, replyWith, countSent, Pong.answer, call?, answer?, terrain,
          htick, hsound, hblocks, hping, hrefusal, hreply]
  | nothing =>
      obtain ⟨htick, hsound, hblocks, hping, hrefusal⟩ := Reading.mk.inj h
      constructor <;>
        simp [serve, countReceived, call?, answer?, terrain, htick, hsound, hblocks, hping,
          hrefusal]

theorem receive_of (b : Bridge) (bytes : List UInt8) (now stamp : Int) :
    (b.receive bytes now stamp).Of b bytes now stamp := by
  have hreading := Reading.ofBytes_eq bytes
  unfold receive
  cases houtcome : Request.ofFrame bytes with
  | error fault =>
      rw [houtcome] at hreading
      exact turnDown_of now stamp hreading
  | ok request =>
      rw [houtcome] at hreading
      exact serve_of now stamp hreading

end

/-! ## Batches with a bad item -/

theorem typed?_eq_none {bytes : List UInt8} {m : Message} {kind : String}
    (hparse : Message.parse bytes = .ok m) (hkind : m.kind ≠ kind) :
    typed? bytes kind = none := by
  unfold typed?
  rw [hparse]
  exact if_neg hkind

/-- A batch with one item that is no news about a cell is turned down, whatever else it
says. -/
theorem refusal?_of_bad_update [Json.Diagnostics] {bytes : List UInt8} {m : Message}
    {members : List (String × Json)} {key : String} {items : List Json} {bad : Json}
    (hparse : Message.parse bytes = .ok m) (hkind : m.kind = "blocks")
    (hdata : m.data.bind Json.parse? = some (.object members))
    (hmem : (key, .array items) ∈ members) (hkey : Text.sameFold key "updates" = true)
    (hitem : bad ∈ items) (hbad : BlockUpdate.decode BlockUpdate.blank bad = none) :
    blocks? bytes = none ∧
      refusal? bytes = some ⟨"blocks", Json.Diagnostics.unreadable "blocks" bytes⟩ := by
  obtain ⟨data, hsome, hvalue⟩ := Option.bind_eq_some_iff.mp hdata
  have hdecode : m.decode? Blocks.decode Blocks.blank = none := by
    rw [Message.decode?, hsome]
    simp only [hvalue, Option.bind_some]
    exact Blocks.decode_eq_none hmem hkey hitem hbad Blocks.blank
  have hblocks : blocks? bytes = none := by
    unfold blocks? typed?
    simp [hparse, hkind, hdecode]
  refine ⟨hblocks, ?_⟩
  unfold refusal?
  simp [hparse, hkind, hblocks]

example : (blocks? (Text.bytes ("\x7b\"type\":\"blocks\",\"data\":\x7b\"reset\":true," ++
    "\"updates\":[\x7b\"x\":true\x7d]\x7d\x7d"))).isNone = true := by
  decide +kernel

theorem call?_of_blocks {bytes : List UInt8} {m : Message}
    (hparse : Message.parse bytes = .ok m) (hkind : m.kind = "blocks")
    (grid : Grid) : call? grid bytes = none := by
  have htick : typed? bytes "tick" = none := typed?_eq_none hparse (by rw [hkind]; decide)
  have hsound : typed? bytes "sound" = none := typed?_eq_none hparse (by rw [hkind]; decide)
  simp [call?, tick?, sound?, htick, hsound]

/-! ## Frames in a row -/

/-- Bytes that arrive on a connection. The times are in milliseconds: that at which a ping is
answered, and that of the answer's stamp. -/
structure Inbound where
  connection : String
  bytes : List UInt8
  now : Int
  stamp : Int

/-- The calls that frames lead to one by one, and the terrain they build: each frame meets
the terrain as the ones before it left it. -/
def direct : Grid → List Inbound → List Observation × Grid
  | grid, [] => ([], grid)
  | grid, f :: rest =>
    ((call? grid f.bytes).toList ++ (direct (terrain grid f.bytes) rest).1,
      (direct (terrain grid f.bytes) rest).2)

theorem direct_append (grid : Grid) (frames rest : List Inbound) :
    direct grid (frames ++ rest) =
      ((direct grid frames).1 ++ (direct (direct grid frames).2 rest).1,
        (direct (direct grid frames).2 rest).2) := by
  induction frames generalizing grid with
  | nil => rfl
  | cons f frames ih => simp only [List.cons_append, direct, ih, List.append_assoc]

namespace Line

theorem write_snd (l : Line) (frame : Frame) : (l.write frame).2 =
    { l with delivered := l.delivered ++ [frame].filter fun out =>
        l.works out.peer.connection } := by
  by_cases hworks : l.works frame.peer.connection <;> simp [write, hworks]

variable [Json.Diagnostics]

def take (l : Line) (f : Inbound) : Option Observation × Line :=
  l.receive f.connection f.bytes f.now f.stamp

def takeAll : Line → List Inbound → List Observation × Line
  | l, [] => ([], l)
  | l, f :: rest =>
    ((l.take f).1.toList ++ ((l.take f).2.takeAll rest).1, ((l.take f).2.takeAll rest).2)

def heard (l : Line) (frames : List Inbound) : List Inbound :=
  frames.filter fun f => (l.peer? f.connection).isSome

def replyTo? (l : Line) (f : Inbound) : Option Frame :=
  (l.peer? f.connection).bind fun peer => (answer? f.bytes f.now f.stamp).map fun m => ⟨peer, m⟩

theorem take_of_unknown {l : Line} {f : Inbound} (h : l.peer? f.connection = none) :
    l.take f = (none, l) := by
  simp [take, receive, h]

/-- What taking the frames of attached sidecars amounts to. -/
structure Took (l : Line) (frames : List Inbound) (calls : List Observation) (after : Line) :
    Prop where
  /-- The calls and the terrain are those of the frames one by one. -/
  direct : (calls, after.bridge.grid) = Bridge.direct l.bridge.grid frames
  received : after.bridge.counters.received = l.bridge.counters.received + frames.length
  ticks : after.bridge.counters.ticks =
    l.bridge.counters.ticks + frames.countP fun f => (tick? f.bytes).isSome
  rejected : after.bridge.counters.rejected =
    l.bridge.counters.rejected + frames.countP fun f => (refusal? f.bytes).isSome
  /-- Every answer that is due gets through unless its connection is broken. -/
  delivered : after.delivered = l.delivered ++
    (frames.filterMap l.replyTo?).filter fun reply => l.works reply.peer.connection
  peers : after.peers = l.peers
  broken : after.broken = l.broken

theorem take_of_known {l : Line} {f : Inbound} {peer : Peer}
    (h : l.peer? f.connection = some peer) {r : Receipt}
    (hr : l.bridge.receive f.bytes f.now f.stamp = r) :
    l.take f = (r.observation, { l with
      bridge := r.bridge
      delivered := l.delivered ++ (r.reply.map (Frame.mk peer)).toList.filter fun out =>
        l.works out.peer.connection }) := by
  cases hreply : r.reply with
  | none => simp [take, receive, h, hr, hreply]
  | some m =>
      simp only [take, receive, h, hr, hreply, write_snd]
      rfl

theorem take_took {l : Line} {f : Inbound} {peer : Peer}
    (h : l.peer? f.connection = some peer) :
    Took l [f] (l.take f).1.toList (l.take f).2 := by
  have hof := receive_of l.bridge f.bytes f.now f.stamp
  rw [take_of_known h rfl]
  exact {
    direct := by simp [Bridge.direct, hof.observation, hof.grid]
    received := hof.received
    ticks := by
      rw [hof.ticks]
      cases htick : tick? f.bytes <;> simp [htick]
    rejected := by
      rw [hof.rejected]
      cases hrefusal : refusal? f.bytes <;> simp [hrefusal]
    delivered := by
      simp only [hof.reply]
      cases hanswer : answer? f.bytes f.now f.stamp <;> simp [replyTo?, h, hanswer]
    peers := rfl
    broken := rfl }

theorem Took.nil (l : Line) : Took l [] [] l := by
  constructor <;> simp [Bridge.direct]

/-- What was taken in two goes was taken in a row: answers are addressed by who was
attached, which no frame changes. -/
theorem Took.append {l mid after : Line} {frames rest : List Inbound}
    {calls more : List Observation} (hfirst : Took l frames calls mid)
    (hrest : Took mid rest more after) : Took l (frames ++ rest) (calls ++ more) after := by
  have hreply : mid.replyTo? = l.replyTo? := by
    funext g
    simp only [replyTo?, peer?, hfirst.peers]
  have hworks : mid.works = l.works := by
    funext connection
    simp only [works, hfirst.broken]
  obtain ⟨hcalls, hmid⟩ := Prod.mk.inj hfirst.direct
  obtain ⟨hmore, hafter⟩ := Prod.mk.inj hrest.direct
  exact {
    direct := by rw [direct_append, hcalls, hmore, hafter, hmid]
    received := by
      rw [hrest.received, hfirst.received, List.length_append, Nat.add_assoc]
    ticks := by
      rw [hrest.ticks, hfirst.ticks, List.countP_append, Nat.add_assoc]
    rejected := by
      rw [hrest.rejected, hfirst.rejected, List.countP_append, Nat.add_assoc]
    delivered := by
      rw [hrest.delivered, hfirst.delivered, hreply, hworks, List.filterMap_append,
        List.filter_append, List.append_assoc]
    peers := hrest.peers.trans hfirst.peers
    broken := hrest.broken.trans hfirst.broken }

theorem takeAll_took (l : Line) (frames : List Inbound) :
    Took l (l.heard frames) (l.takeAll frames).1 (l.takeAll frames).2 := by
  induction frames generalizing l with
  | nil => exact Took.nil l
  | cons f rest ih =>
      -- frames of connections that were never attached leave the line as it is
      cases hpeer : l.peer? f.connection with
      | none =>
          have hheard : l.heard (f :: rest) = l.heard rest := by simp [heard, hpeer]
          rw [hheard, takeAll, take_of_unknown hpeer]
          exact ih l
      | some peer =>
          have hfirst := take_took hpeer
          have hsame : (l.take f).2.heard rest = l.heard rest := by
            simp only [heard, peer?, hfirst.peers]
          have hheard : l.heard (f :: rest) = [f] ++ (l.take f).2.heard rest := by
            rw [hsame]
            simp [heard, hpeer]
          rw [hheard]
          exact hfirst.append (ih (l.take f).2)

/-- A frame without a call and without a batch leaves listener and terrain alone. -/
theorem take_of_inert {l : Line} {f : Inbound} (hcall : call? l.bridge.grid f.bytes = none)
    (hblocks : blocks? f.bytes = none) :
    (l.take f).1 = none ∧ (l.take f).2.bridge.grid = l.bridge.grid := by
  cases hpeer : l.peer? f.connection with
  | none =>
      rw [take_of_unknown hpeer]
      exact ⟨rfl, rfl⟩
  | some peer =>
      have hof := receive_of l.bridge f.bytes f.now f.stamp
      rw [take_of_known hpeer rfl]
      refine ⟨hof.observation.trans hcall, hof.grid.trans ?_⟩
      simp [terrain, hblocks]

/-! ## The whole traffic -/

/-- Whatever frames arrive, calls, terrain and counters are those of reading the frames one by one,
and every ping and every frame turned down has its one answer. A batch with a single bad item does
nothing, even when it asks to start over. -/
theorem takeAll_refines_direct (l : Line) (frames : List Inbound) :
    let heard := l.heard frames
    let after := (l.takeAll frames).2
    ((l.takeAll frames).1 = (direct l.bridge.grid heard).1 ∧
      after.bridge.grid = (direct l.bridge.grid heard).2) ∧
    (after.bridge.counters.received = l.bridge.counters.received + heard.length ∧
      after.bridge.counters.ticks =
        l.bridge.counters.ticks + heard.countP (fun f => (tick? f.bytes).isSome) ∧
      after.bridge.counters.rejected =
        l.bridge.counters.rejected + heard.countP fun f => (refusal? f.bytes).isSome) ∧
    after.delivered = l.delivered ++
      (heard.filterMap l.replyTo?).filter (fun reply => l.works reply.peer.connection) ∧
    ∀ f m members key items bad, Message.parse f.bytes = .ok m →
      m.kind = "blocks" → m.data.bind Json.parse? = some (.object members) →
      (key, .array items) ∈ members → Text.sameFold key "updates" = true → bad ∈ items →
      BlockUpdate.decode BlockUpdate.blank bad = none →
      refusal? f.bytes = some ⟨"blocks", Json.Diagnostics.unreadable "blocks" f.bytes⟩ ∧
        (after.take f).1 = none ∧ (after.take f).2.bridge.grid = after.bridge.grid := by
  intro heard after
  have htook : Took l heard (l.takeAll frames).1 after := takeAll_took l frames
  refine ⟨Prod.mk.inj htook.direct, ⟨htook.received, htook.ticks, htook.rejected⟩,
    htook.delivered, ?_⟩
  intro f m members key items bad hparse hkind hdata hmem hkey hitem hbad
  obtain ⟨hblocks, hrefusal⟩ :=
    refusal?_of_bad_update hparse hkind hdata hmem hkey hitem hbad
  exact ⟨hrefusal, take_of_inert (call?_of_blocks hparse hkind after.bridge.grid) hblocks⟩

end Line

end VoxelScout.Bridge
