import Mathlib.Data.List.Induction
import VoxelScout.Proofs.Bridge.Inbound

/-! # Which frames are counted as sent

Frames leave the bridge as commands, as answers to pings and as refusals. Over every run,
the frames handed to connections, whether or not they get through, are those counted as
sent and those counted as rejected together: a refusal goes out without being counted as
sent.
-/

namespace VoxelScout.Bridge

open Wire

/-! ## Traffic -/

/-- A command: to press or release a control of any name, to swing, to turn the head by any
angles, or to say a line. -/
inductive Outbound where
  | control (name : String) (pressed : Bool)
  | attack (target : PlayerId)
  | look (heading : Heading Float)
  | chat (line : String)

def Outbound.payload : Outbound → Payload
  | .control name pressed => .control ⟨name, pressed⟩
  | .attack target => .attack ⟨target⟩
  | .look heading => .look ⟨heading⟩
  | .chat line => .chat ⟨line⟩

theorem Outbound.kind_ne (c : Outbound) : c.payload.kind ≠ "error" := by
  cases c <;> simp [payload, Payload.kind]

/-- What may happen to a line. Any peer may be said to go, and connections break and mend on
their own. -/
inductive Traffic where
  | attach (session : PlayerId) (connection : String) (now : Instant)
  | detach (peer : Peer)
  | inbound (frame : Inbound)
  | outbound (command : Outbound) (stamp : Int)
  | close
  | setBroken (connection : String) (on : Bool)

namespace Line

variable [Json.Diagnostics]

def pass (l : Line) : Traffic → Line
  | .attach session connection now =>
    match l.connect session connection now with
    | .error _ => l
    | .ok l => l
  | .detach peer => { l with bridge := l.bridge.detach peer }
  | .inbound f => (l.take f).2
  | .outbound c stamp => (l.send c.payload stamp).2
  | .close => l.close.2
  | .setBroken connection on => l.setBroken connection on

def handed (l : Line) : Traffic → List Frame
  | .inbound f =>
    ((l.peer? f.connection).bind fun peer =>
      (l.bridge.receive f.bytes f.now f.stamp).reply.map (Frame.mk peer)).toList
  | .outbound c stamp => (l.bridge.sendPayload c.payload stamp).1.toOption.toList
  | .attach .. | .detach _ | .close | .setBroken .. => []

def passAll (l : Line) (traffic : List Traffic) : Line :=
  traffic.foldl pass l

def handedAll : Line → List Traffic → List Frame
  | _, [] => []
  | l, x :: rest => l.handed x ++ (l.pass x).handedAll rest

theorem passAll_concat (l : Line) (traffic : List Traffic) (x : Traffic) :
    l.passAll (traffic ++ [x]) = (l.passAll traffic).pass x := by
  simp [passAll]

theorem handedAll_concat (l : Line) (traffic : List Traffic) (x : Traffic) :
    l.handedAll (traffic ++ [x]) = l.handedAll traffic ++ (l.passAll traffic).handed x := by
  induction traffic generalizing l with
  | nil => simp [handedAll, passAll]
  | cons first rest ih =>
      rw [List.cons_append, handedAll, ih, handedAll, List.append_assoc]
      rfl

end Line

/-! ## Accounts -/

def Frame.refuses (f : Frame) : Bool :=
  f.message.kind == "error"

/-- Between two states of the bridge the counters have moved on by the frames handed over. -/
structure Accounts (before after : Counters) (frames : List Frame) : Prop where
  sent : after.sent = before.sent + frames.countP fun f => !f.refuses
  rejected : after.rejected = before.rejected + frames.countP Frame.refuses

namespace Accounts

theorem refl (c : Counters) : Accounts c c [] :=
  ⟨rfl, rfl⟩

theorem append {c d e : Counters} {frames more : List Frame} (h : Accounts c d frames)
    (hmore : Accounts d e more) : Accounts c e (frames ++ more) where
  sent := by rw [hmore.sent, h.sent, List.countP_append, Nat.add_assoc]
  rejected := by rw [hmore.rejected, h.rejected, List.countP_append, Nat.add_assoc]

/-- Every frame handed over is either sent or rejects another. -/
theorem sent_add_rejected {c d : Counters} {frames : List Frame} (h : Accounts c d frames) :
    d.sent + d.rejected = c.sent + c.rejected + frames.length := by
  have hsplit := List.length_eq_countP_add_countP Frame.refuses (l := frames)
  have hnot : frames.countP (fun f => !f.refuses) =
      frames.countP fun f => decide ¬f.refuses = true := by
    apply List.countP_congr
    intro f _
    cases f.refuses <;> decide
  rw [h.sent, h.rejected, hsplit, hnot]
  omega

end Accounts

theorem kind_of_ofPayload? {p : Payload} {stamp : Int} {m : Message}
    (h : Message.ofPayload? p stamp = some m) : m.kind = p.kind := by
  obtain ⟨text, -, rfl⟩ := Option.map_eq_some_iff.mp h
  rfl

/-- A refusal can always be written, so each frame turned down is answered. -/
theorem accounts_turnDown [Json.Diagnostics] (b : Bridge) (peer : Peer) (frame : List UInt8)
    (stamp : Int) (fault : Fault) :
    Accounts b.counters (b.turnDown frame stamp fault).bridge.counters
      ((b.turnDown frame stamp fault).reply.map (Frame.mk peer)).toList := by
  have hreply : (b.turnDown frame stamp fault).reply =
      some ⟨"error", stamp, some (fault.refusal frame).toJson.bytes⟩ :=
    Message.ofPayload?_of_writable (.refusal _) (fault.refusal frame).writable stamp
  rw [hreply]
  exact ⟨rfl, rfl⟩

theorem accounts_serve (b : Bridge) (peer : Peer) (now stamp : Int) (request : Request) :
    Accounts b.counters (b.serve now stamp request).bridge.counters
      ((b.serve now stamp request).reply.map (Frame.mk peer)).toList := by
  cases request with
  | ping d time =>
      cases hpong : Message.ofPayload? (.pong (Pong.answer d.id time now)) stamp with
      | none =>
          simp only [serve, hpong]
          exact Accounts.refl b.counters
      | some m =>
          have hkind : (Frame.mk peer m).refuses = false := by
            simp [Frame.refuses, kind_of_ofPayload? hpong, Payload.kind]
          simp only [serve, hpong]
          constructor <;> simp [replyWith, countSent, hkind]
  | tick | sound | blocks | nothing => exact ⟨rfl, rfl⟩

theorem accounts_receive [Json.Diagnostics] (b : Bridge) (peer : Peer) (frame : List UInt8)
    (now stamp : Int) :
    Accounts b.counters (b.receive frame now stamp).bridge.counters
      ((b.receive frame now stamp).reply.map (Frame.mk peer)).toList := by
  have hreceived : Accounts b.counters b.countReceived.counters [] := ⟨rfl, rfl⟩
  unfold receive
  cases Request.ofFrame frame with
  | ok request => exact hreceived.append (accounts_serve b.countReceived peer now stamp request)
  | error fault => exact hreceived.append (accounts_turnDown b.countReceived peer frame stamp fault)

theorem accounts_sendPayload (b : Bridge) {p : Payload} (hp : p.kind ≠ "error") (stamp : Int) :
    Accounts b.counters (b.sendPayload p stamp).2.counters
      (b.sendPayload p stamp).1.toOption.toList := by
  cases hm : Message.ofPayload? p stamp with
  | none =>
      simp only [sendPayload, hm]
      exact Accounts.refl b.counters
  | some m =>
      cases hclosed : b.closed with
      | true =>
          simp only [sendPayload, hm, send, hclosed, if_true]
          exact Accounts.refl b.counters
      | false =>
          cases hpeer : b.peer with
          | none =>
              simp only [sendPayload, hm, send, hclosed, hpeer, Bool.false_eq_true, if_false]
              exact Accounts.refl b.counters
          | some peer =>
              have hkind : (Frame.mk peer m).refuses = false := by
                simp [Frame.refuses, kind_of_ofPayload? hm, hp]
              constructor <;>
                simp [sendPayload, hm, send, hclosed, hpeer, countSent, Except.toOption, hkind]

namespace Line

theorem send_snd (l : Line) (p : Payload) (stamp : Int) : (l.send p stamp).2 = { l with
    bridge := (l.bridge.sendPayload p stamp).2
    delivered := l.delivered ++ (l.bridge.sendPayload p stamp).1.toOption.toList.filter
      fun out => l.works out.peer.connection } := by
  unfold send
  rcases l.bridge.sendPayload p stamp with ⟨cause | frame, bridge⟩
  · simp [Except.toOption]
  · have hsame : works { l with bridge } = l.works := rfl
    by_cases hworks : l.works frame.peer.connection = true <;>
      simp [write, hsame, hworks, Except.toOption]

theorem hangUp_bridge (l : Line) (peer : Option Peer) : (l.hangUp peer).bridge = l.bridge := by
  cases peer <;> rfl

theorem hangUp_delivered (l : Line) (peer : Option Peer) :
    (l.hangUp peer).delivered = l.delivered := by
  cases peer <;> rfl

theorem detach_counters (b : Bridge) (peer : Peer) :
    (b.detach peer).counters = b.counters := by
  unfold detach
  split <;> rfl

theorem close_counters (b : Bridge) : b.close.2.counters = b.counters := by
  unfold Bridge.close
  split <;> rfl

section

variable [Json.Diagnostics]

/-- Connecting writes nothing, and counts nothing but the connection. -/
theorem pass_attach (l : Line) (session : PlayerId) (connection : String) (now : Instant) :
    Accounts l.bridge.counters (l.pass (.attach session connection now)).bridge.counters [] ∧
      (l.pass (.attach session connection now)).delivered = l.delivered := by
  cases hclosed : l.bridge.closed with
  | true =>
      have hpass : l.pass (.attach session connection now) = l := by
        simp [pass, connect, attach, hclosed]
      rw [hpass]
      exact ⟨Accounts.refl _, rfl⟩
  | false =>
      simp only [pass, connect, attach, hclosed, Bool.false_eq_true, if_false, hangUp_bridge,
        hangUp_delivered]
      exact ⟨⟨rfl, rfl⟩, trivial⟩

/-- The counters move on by the frames that a line hands over. -/
theorem accounts_pass (l : Line) (x : Traffic) :
    Accounts l.bridge.counters (l.pass x).bridge.counters (l.handed x) := by
  cases x with
  | inbound f =>
      cases hpeer : l.peer? f.connection with
      | none =>
          simp only [pass, handed, take_of_unknown hpeer, hpeer]
          exact Accounts.refl l.bridge.counters
      | some peer =>
          simp only [pass, handed, take_of_known hpeer rfl, hpeer]
          exact accounts_receive l.bridge peer f.bytes f.now f.stamp
  | outbound c stamp =>
      simp only [pass, handed, send_snd]
      exact accounts_sendPayload l.bridge c.kind_ne stamp
  | attach session connection now => exact (l.pass_attach session connection now).1
  | detach peer =>
      simp only [pass, handed, detach_counters]
      exact Accounts.refl l.bridge.counters
  | close =>
      simp only [pass, handed, close, hangUp_bridge, close_counters]
      exact Accounts.refl l.bridge.counters
  | setBroken connection on => exact Accounts.refl l.bridge.counters

/-- The frames that get through are those handed to connections that work. -/
theorem delivered_pass (l : Line) (x : Traffic) : (l.pass x).delivered =
    l.delivered ++ (l.handed x).filter fun f => l.works f.peer.connection := by
  cases x with
  | inbound f =>
      cases hpeer : l.peer? f.connection with
      | none => simp [pass, handed, take_of_unknown hpeer, hpeer]
      | some peer => simp [pass, handed, take_of_known hpeer rfl, hpeer]
  | outbound c stamp => simp only [pass, handed, send_snd]
  | attach session connection now =>
      simp [handed, (l.pass_attach session connection now).2]
  | close => simp [pass, handed, close, hangUp_delivered]
  | detach | setBroken => simp [pass, handed, setBroken]

theorem accounts_passAll (config : Config) (traffic : List Traffic) :
    Accounts (Line.new config).bridge.counters
      ((Line.new config).passAll traffic).bridge.counters
      ((Line.new config).handedAll traffic) := by
  induction traffic using List.reverseRecOn with
  | nil => exact Accounts.refl _
  | append_singleton traffic x ih =>
      rw [passAll_concat, handedAll_concat]
      exact ih.append (accounts_pass _ x)

/-- Over every run, the frames counted as sent are those handed to connections that refuse
nothing, whether or not they get through; the refusals are counted as rejected, each once.
So the frames counted as sent are all that were handed over exactly when nothing was
refused. -/
theorem passAll_sent (config : Config) (traffic : List Traffic) :
    let l := (Line.new config).passAll traffic
    let handed := (Line.new config).handedAll traffic
    (l.bridge.counters.sent = handed.countP (fun f => !f.refuses) ∧
      l.bridge.counters.rejected = handed.countP Frame.refuses) ∧
    l.bridge.counters.sent + l.bridge.counters.rejected = handed.length ∧
    (l.bridge.counters.sent = handed.length ↔ ∀ f ∈ handed, f.refuses = false) ∧
    ∀ x, (l.pass x).delivered =
      l.delivered ++ (l.handed x).filter fun f => l.works f.peer.connection := by
  intro l handed
  have h : Accounts (Line.new config).bridge.counters l.bridge.counters handed :=
    accounts_passAll config traffic
  have hsent : l.bridge.counters.sent = handed.countP fun f => !f.refuses :=
    h.sent.trans (Nat.zero_add _)
  refine ⟨⟨hsent, h.rejected.trans (Nat.zero_add _)⟩,
    h.sent_add_rejected.trans (Nat.zero_add _), ?_, l.delivered_pass⟩
  rw [hsent, List.countP_eq_length]
  simp

end

local instance strayLetter : Json.Diagnostics :=
  ⟨fun _ _ => "invalid character 'j' looking for beginning of value", fun _ => ""⟩

/-- The answer to a frame that is no message goes out and is not counted as sent. -/
theorem refusal_not_sent :
    let traffic : List Traffic := [.attach ⟨1⟩ "a" ⟨0⟩, .inbound ⟨"a", Text.bytes "junk", 0, 0⟩]
    let l := (Line.new Config.standard).passAll traffic
    let handed := (Line.new Config.standard).handedAll traffic
    handed.length = 1 ∧ l.delivered = handed ∧ l.bridge.counters.sent = 0 := by
  decide +kernel

end Line

end VoxelScout.Bridge
