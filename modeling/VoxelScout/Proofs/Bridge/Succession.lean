import Mathlib.Data.List.Induction
import VoxelScout.Bridge.Line
import VoxelScout.Proofs.Wire.RoundTrip

/-! # One sidecar at a time

Sidecars come, take each other's place and go, some of them long after they were replaced,
and the bridge is closed, perhaps more than once. Who is attached after such a run can be
read off its steps alone, and commands go to that one sidecar.
-/

namespace VoxelScout.Bridge

open Wire

/-! ## Commands that can be written -/

inductive Directive where
  | control (name : String) (pressed : Bool)
  | attack (target : PlayerId)
  | look (heading : Heading Float) (yaw : heading.yaw.isFinite = true)
    (pitch : heading.pitch.isFinite = true)
  | chat (line : String)

namespace Directive

def payload : Directive → Payload
  | .control name pressed => .control ⟨name, pressed⟩
  | .attack target => .attack ⟨target⟩
  | .look heading _ _ => .look ⟨heading⟩
  | .chat line => .chat ⟨line⟩

def message (d : Directive) (stamp : Int) : Message :=
  ⟨d.payload.kind, stamp, some d.payload.toJson.bytes⟩

theorem ofPayload?_payload (d : Directive) (stamp : Int) :
    Message.ofPayload? d.payload stamp = some (d.message stamp) := by
  have hexchanged : d.payload.Exchanged := by
    cases d <;> trivial
  have hfloats : ∀ x ∈ d.payload.floats, x.isFinite = true := by
    cases d with
    | look heading yaw pitch =>
        intro x hx
        rcases List.mem_pair.mp hx with rfl | rfl
        · exact yaw
        · exact pitch
    | control | attack | chat => simp [payload, Payload.floats]
  exact Message.ofPayload?_of_writable d.payload
    (Payload.shallow_toJson hexchanged hfloats).writable stamp

end Directive

/-! ## Steps -/

/-- What may happen to a line. Whoever is said to go may be any peer, and connections break
and mend on their own. -/
inductive Step where
  | attach (session : PlayerId) (connection : String) (now : Instant)
  | detach (peer : Peer)
  | close
  | command (directive : Directive) (stamp : Int)
  | setBroken (connection : String) (on : Bool)

namespace Step

def isAttach : Step → Bool
  | .attach .. => true
  | .detach _ | .close | .command .. | .setBroken .. => false

/-- Whoever is attached has to make room for the step. -/
def displaces : Step → Bool
  | .attach .. | .close => true
  | .detach _ | .command .. | .setBroken .. => false

end Step

namespace Line

def step (l : Line) : Step → Option Failure × Line
  | .attach session connection now =>
    match l.connect session connection now with
    | .error cause => (some (.refused cause), l)
    | .ok l => (none, l)
  | .detach peer => (none, { l with bridge := l.bridge.detach peer })
  | .close => l.close
  | .command d stamp => l.send d.payload stamp
  | .setBroken connection on => (none, l.setBroken connection on)

def run (l : Line) (steps : List Step) : Line :=
  steps.foldl (fun l x => (l.step x).2) l

def log : Line → List Step → List (Step × Option Failure)
  | _, [] => []
  | l, x :: rest => (x, (l.step x).1) :: (l.step x).2.log rest

theorem run_concat (l : Line) (steps : List Step) (x : Step) :
    l.run (steps ++ [x]) = ((l.run steps).step x).2 := by
  simp [run]

theorem log_concat (l : Line) (steps : List Step) (x : Step) :
    l.log (steps ++ [x]) = l.log steps ++ [(x, ((l.run steps).step x).1)] := by
  induction steps generalizing l with
  | nil => rfl
  | cons first rest ih =>
      rw [List.cons_append, log, ih, log, List.cons_append]
      rfl

variable {l : Line}

/-! ### What one step does -/

theorem step_attach_of_closed (h : l.bridge.closed = true) (session : PlayerId)
    (connection : String) (now : Instant) :
    l.step (.attach session connection now) = (some (.refused .closed), l) := by
  simp [step, connect, attach, h]

/-- The peer of a sidecar that attaches is numbered by the attachments before it, and
whoever was attached is hung up on. -/
theorem step_attach_of_open (h : l.bridge.closed = false) (session : PlayerId)
    (connection : String) (now : Instant) :
    let peer : Peer := ⟨l.bridge.counters.connections, session, connection, now⟩
    l.step (.attach session connection now) = (none, { l with
      bridge := { l.bridge with
        peer := some peer
        counters := { l.bridge.counters with
          connections := l.bridge.counters.connections + 1 } }
      peers := peer :: l.peers
      hungUp := l.hungUp ++ (l.bridge.peer.map (·.connection)).toList }) := by
  cases hpeer : l.bridge.peer <;> simp [step, connect, attach, h, hangUp, hpeer]

theorem step_close_of_closed (h : l.bridge.closed = true) : l.step .close = (none, l) := by
  simp [step, close, Bridge.close, h, hangUp]

theorem step_close_of_open (h : l.bridge.closed = false) :
    (l.step .close).2 = { l with
      bridge := { l.bridge with closed := true, peer := none }
      hungUp := l.hungUp ++ (l.bridge.peer.map (·.connection)).toList } := by
  cases hpeer : l.bridge.peer <;> simp [step, close, Bridge.close, h, hangUp, hpeer]

theorem step_command_of_closed (h : l.bridge.closed = true) (d : Directive) (stamp : Int) :
    l.step (.command d stamp) = (some (.refused .closed), l) := by
  simp [step, send, sendPayload, d.ofPayload?_payload, Bridge.send, h]

theorem step_command_of_no_peer (h : l.bridge.closed = false) (hpeer : l.bridge.peer = none)
    (d : Directive) (stamp : Int) :
    l.step (.command d stamp) = (some (.refused .notConnected), l) := by
  simp [step, send, sendPayload, d.ofPayload?_payload, Bridge.send, h, hpeer]

/-- A command is written once, to whoever is attached; whether it gets through is up to the
connection. -/
theorem step_command_of_peer (h : l.bridge.closed = false) {peer : Peer}
    (hpeer : l.bridge.peer = some peer) (d : Directive) (stamp : Int) :
    l.step (.command d stamp) =
      (if l.works peer.connection then none else some .brokenPipe, { l with
        bridge := l.bridge.countSent
        delivered := l.delivered ++
          if l.works peer.connection then [⟨peer, d.message stamp⟩] else [] }) := by
  have hsame : works { l with bridge := l.bridge.countSent } = l.works := rfl
  by_cases hworks : l.works peer.connection = true <;>
    simp [step, send, sendPayload, d.ofPayload?_payload, Bridge.send, h, hpeer, write, hsame,
      hworks]

end Line

/-! ## Reading the steps -/

/-- The steps say that a peer is attached: it is the latest who attached before the bridge
was closed, and it has neither gone since nor was the bridge closed. -/
def Attached (steps : List Step) (p : Peer) : Prop :=
  ∃ before session connection now after,
    steps = before ++ .attach session connection now :: after ∧ Step.close ∉ before ∧
      p = ⟨before.countP Step.isAttach, session, connection, now⟩ ∧
      ∀ x ∈ after, x.isAttach = false ∧ x ≠ .close ∧ x ≠ .detach p

theorem attached_concat {steps : List Step} {x : Step} {p : Peer} :
    Attached (steps ++ [x]) p ↔
      (Step.close ∉ steps ∧ ∃ session connection now, x = .attach session connection now ∧
        p = ⟨steps.countP Step.isAttach, session, connection, now⟩) ∨
      (Attached steps p ∧ x.isAttach = false ∧ x ≠ .close ∧ x ≠ .detach p) := by
  constructor
  · rintro ⟨before, session, connection, now, after, hsteps, hopen, hp, hafter⟩
    -- the latest who attached did so in the last step or before it
    rcases List.eq_nil_or_concat' after with rfl | ⟨after, last, rfl⟩
    · obtain ⟨rfl, hlast⟩ := List.append_inj' hsteps rfl
      cases hlast
      exact .inl ⟨hopen, session, connection, now, rfl, hp⟩
    · rw [← List.cons_append, ← List.append_assoc] at hsteps
      obtain ⟨rfl, hlast⟩ := List.append_inj' hsteps rfl
      cases hlast
      refine .inr ⟨⟨before, session, connection, now, after, rfl, hopen, hp, ?_⟩,
        hafter x (by simp)⟩
      exact fun y hy => hafter y (by simp [hy])
  · rintro (⟨hopen, session, connection, now, rfl, rfl⟩ |
      ⟨⟨before, session, connection, now, after, rfl, hopen, hp, hafter⟩, hx⟩)
    · exact ⟨steps, session, connection, now, [], rfl, hopen, rfl, by simp⟩
    · refine ⟨before, session, connection, now, after ++ [x], by simp, hopen, hp, ?_⟩
      intro y hy
      rcases List.mem_append.mp hy with hy | hy
      · exact hafter y hy
      · rw [List.mem_singleton.mp hy]
        exact hx

theorem Attached.close_not_mem {steps : List Step} {p : Peer} (h : Attached steps p) :
    Step.close ∉ steps := by
  obtain ⟨before, session, connection, now, after, rfl, hopen, -, hafter⟩ := h
  intro hmem
  rcases List.mem_append.mp hmem with hmem | hmem
  · exact hopen hmem
  · rcases List.mem_cons.mp hmem with heq | hmem
    · cases heq
    · exact (hafter _ hmem).2.1 rfl

/-- Whoever is attached bears the number of the latest attachment. -/
theorem Attached.number {steps : List Step} {p : Peer} (h : Attached steps p) :
    p.number + 1 = steps.countP Step.isAttach := by
  obtain ⟨before, session, connection, now, after, rfl, -, rfl, hafter⟩ := h
  have hnone : after.countP Step.isAttach = 0 := by
    rw [List.countP_eq_zero]
    intro x hx
    simp [(hafter x hx).1]
  rw [List.countP_append, List.countP_cons, hnone]
  rfl

/-- A peer that has a number already is attached later only if it has been all along. -/
theorem Attached.of_append {steps more : List Step} {p : Peer}
    (hp : p.number < steps.countP Step.isAttach) (h : Attached (steps ++ more) p) :
    Attached steps p := by
  induction more using List.reverseRecOn with
  | nil => simpa using h
  | append_singleton more x ih =>
      rw [← List.append_assoc, attached_concat] at h
      rcases h with ⟨-, session, connection, now, -, rfl⟩ | ⟨h, -⟩
      · rw [List.countP_append] at hp
        exact absurd hp (by simp)
      · exact ih h

/-- A step of a run had a peer make room. -/
def Displaced (steps : List Step) (p : Peer) : Prop :=
  ∃ before x after, steps = before ++ x :: after ∧ x.displaces = true ∧ Attached before p

theorem displaced_concat {steps : List Step} {x : Step} {p : Peer} :
    Displaced (steps ++ [x]) p ↔ Displaced steps p ∨ x.displaces = true ∧ Attached steps p := by
  constructor
  · rintro ⟨before, y, after, hsteps, hy, hp⟩
    rcases List.eq_nil_or_concat' after with rfl | ⟨after, last, rfl⟩
    · obtain ⟨rfl, hlast⟩ := List.append_inj' hsteps rfl
      cases hlast
      exact .inr ⟨hy, hp⟩
    · rw [← List.cons_append, ← List.append_assoc] at hsteps
      obtain ⟨rfl, -⟩ := List.append_inj' hsteps rfl
      exact .inl ⟨before, y, after, rfl, hy, hp⟩
  · rintro (⟨before, y, after, rfl, hy, hp⟩ | ⟨hx, hp⟩)
    · exact ⟨before, y, after ++ [x], by simp, hy, hp⟩
    · exact ⟨steps, x, [], rfl, hx, hp⟩

/-- Whoever made room has gone for good. -/
theorem Displaced.not_attached {steps : List Step} {p : Peer} (h : Displaced steps p) :
    ¬Attached steps p := by
  obtain ⟨before, x, after, rfl, hx, hp⟩ := h
  intro hlater
  have hnumber := hp.number
  rw [List.append_cons] at hlater
  -- nobody else may attach between, but the step that displaced the peer did so or closed
  have hbetween : Attached (before ++ [x]) p := by
    apply Attached.of_append _ hlater
    rw [List.countP_append]
    omega
  rcases attached_concat.mp hbetween with
    ⟨-, session, connection, now, -, rfl⟩ | ⟨-, hstays, hopen, -⟩
  · simp at hnumber
  · cases x with
    | attach => cases hstays
    | close => exact hopen rfl
    | detach | command | setBroken => cases hx

/-! ## Runs -/

/-- A line is as the steps of its run say, and as the log says which of them failed. -/
structure Follows (steps : List Step) (log : List (Step × Option Line.Failure)) (l : Line) :
    Prop where
  attached : ∀ p, l.bridge.peer = some p ↔ Attached steps p
  closed : l.bridge.closed = true ↔ Step.close ∈ steps
  connections : l.bridge.counters.connections =
    log.countP fun e => e.1.isAttach && e.2.isNone
  /-- No attachment fails before the bridge is closed. -/
  numbered : l.bridge.closed = false →
    l.bridge.counters.connections = steps.countP Step.isAttach
  /-- Whoever made room is hung up on, each once, and nobody else is. -/
  hungUp : ∃ gone : List Peer, gone.Nodup ∧ (∀ p, p ∈ gone ↔ Displaced steps p) ∧
    l.hungUp = gone.map (·.connection)

structure Line.Still (l l' : Line) : Prop where
  closed : l'.bridge.closed = l.bridge.closed
  connections : l'.bridge.counters.connections = l.bridge.counters.connections
  hungUp : l'.hungUp = l.hungUp

namespace Follows

variable {steps : List Step} {log : List (Step × Option Line.Failure)} {l l' : Line} {x : Step}
  {failure : Option Line.Failure}

theorem new (config : Config) : Follows [] [] (Line.new config) where
  attached p := by simp [Line.new, Bridge.new, Attached]
  closed := by simp [Line.new, Bridge.new]
  connections := rfl
  numbered _ := rfl
  hungUp := ⟨[], List.nodup_nil, by simp [Displaced], rfl⟩

theorem peer_eq_none (h : Follows steps log l) (hclosed : l.bridge.closed = true) :
    l.bridge.peer = none := by
  cases hpeer : l.bridge.peer with
  | none => rfl
  | some p =>
      exact absurd (h.closed.mp hclosed) ((h.attached p).mp hpeer).close_not_mem

/-- A step on which nobody attaches and nobody is hung up on leaves the history as it is. -/
theorem of_still (h : Follows steps log l) (hstill : l.Still l')
    (hrefused : (x.isAttach && failure.isNone) = false)
    (hdisplaces : x.displaces = true → l.bridge.closed = true)
    (hattached : ∀ p, l'.bridge.peer = some p ↔ Attached (steps ++ [x]) p) :
    Follows (steps ++ [x]) (log ++ [(x, failure)]) l' where
  attached := hattached
  closed := by
    rw [hstill.closed, List.mem_append, List.mem_singleton, ← h.closed]
    constructor
    · exact .inl
    · rintro (hclosed | rfl)
      · exact hclosed
      · exact hdisplaces rfl
  connections := by simp [hstill.connections, h.connections, hrefused]
  numbered hopen := by
    rw [hstill.closed] at hopen
    have hattach : x.isAttach = false := by
      cases x with
      | attach => simp [hdisplaces rfl] at hopen
      | detach | close | command | setBroken => rfl
    simp [hstill.connections, h.numbered hopen, hattach]
  hungUp := by
    obtain ⟨gone, hnodup, hmem, heq⟩ := h.hungUp
    refine ⟨gone, hnodup, fun p => ?_, hstill.hungUp.trans heq⟩
    rw [hmem, displaced_concat]
    constructor
    · exact .inl
    · rintro (hp | ⟨hx, hp⟩)
      · exact hp
      · exact absurd (h.closed.mp (hdisplaces hx)) hp.close_not_mem

/-- Whoever is attached when room has to be made is hung up on. -/
theorem hungUp_of_displaces (h : Follows steps log l) (hx : x.displaces = true) :
    ∃ gone : List Peer, gone.Nodup ∧ (∀ p, p ∈ gone ↔ Displaced (steps ++ [x]) p) ∧
      l.hungUp ++ (l.bridge.peer.map (·.connection)).toList = gone.map (·.connection) := by
  obtain ⟨gone, hnodup, hmem, heq⟩ := h.hungUp
  refine ⟨gone ++ l.bridge.peer.toList, ?_, fun p => ?_, ?_⟩
  · rw [List.nodup_append]
    refine ⟨hnodup, by cases l.bridge.peer <;> simp, ?_⟩
    rintro p hp q hq rfl
    rw [Option.mem_toList] at hq
    exact ((hmem p).mp hp).not_attached ((h.attached p).mp hq)
  · rw [List.mem_append, hmem, displaced_concat, Option.mem_toList, ← h.attached]
    simp [hx]
  · rw [heq, List.map_append]
    cases l.bridge.peer <;> rfl

theorem attach (h : Follows steps log l) (hopen : l.bridge.closed = false)
    (session : PlayerId) (connection : String) (now : Instant) :
    Follows (steps ++ [.attach session connection now])
      (log ++ [(.attach session connection now, (l.step (.attach session connection now)).1)])
      (l.step (.attach session connection now)).2 := by
  have hnot : Step.close ∉ steps := fun hmem => by simp [h.closed.mpr hmem] at hopen
  rw [Line.step_attach_of_open hopen]
  exact {
    attached := by
      intro p
      rw [attached_concat, ← h.numbered hopen]
      simp [hnot, Step.isAttach, eq_comm]
    closed := by simp [hopen, hnot]
    connections := by simp [h.connections, Step.isAttach]
    numbered := by
      intro
      simp [h.numbered hopen, Step.isAttach]
    hungUp := h.hungUp_of_displaces rfl }

theorem close (h : Follows steps log l) (hopen : l.bridge.closed = false) :
    Follows (steps ++ [.close]) (log ++ [(.close, (l.step .close).1)]) (l.step .close).2 := by
  rw [Line.step_close_of_open hopen]
  exact {
    attached := by
      intro p
      rw [attached_concat]
      simp
    closed := by simp
    connections := by simp [h.connections, Step.isAttach]
    numbered := by simp
    hungUp := h.hungUp_of_displaces rfl }

/-- A closed bridge only ever refuses. -/
theorem step_of_closed (h : Follows steps log l) (hclosed : l.bridge.closed = true) (x : Step) :
    Follows (steps ++ [x]) (log ++ [(x, (l.step x).1)]) (l.step x).2 := by
  have hpeer := h.peer_eq_none hclosed
  have hattached : ∀ p, ¬Attached (steps ++ [x]) p :=
    fun p hp => hp.close_not_mem (List.mem_append_left _ (h.closed.mp hclosed))
  have hrefuses (hbridge : (l.step x).2.bridge = l.bridge)
      (hhungUp : (l.step x).2.hungUp = l.hungUp)
      (hrefused : (x.isAttach && (l.step x).1.isNone) = false) :
      Follows (steps ++ [x]) (log ++ [(x, (l.step x).1)]) (l.step x).2 := by
    apply h.of_still ⟨by rw [hbridge], by rw [hbridge], hhungUp⟩ hrefused
      (fun _ => hclosed)
    intro p
    simp [hbridge, hpeer, hattached p]
  cases x with
  | attach session connection now =>
      rw [Line.step_attach_of_closed hclosed] at hrefuses ⊢
      exact hrefuses rfl rfl rfl
  | detach q =>
      have hdetach : l.bridge.detach q = l.bridge := by simp [Bridge.detach, hpeer]
      exact hrefuses hdetach rfl rfl
  | close =>
      rw [Line.step_close_of_closed hclosed] at hrefuses ⊢
      exact hrefuses rfl rfl rfl
  | command d stamp =>
      rw [Line.step_command_of_closed hclosed] at hrefuses ⊢
      exact hrefuses rfl rfl rfl
  | setBroken connection on => exact hrefuses rfl rfl rfl

theorem detach (h : Follows steps log l) (q : Peer) :
    Follows (steps ++ [.detach q]) (log ++ [(.detach q, none)]) (l.step (.detach q)).2 := by
  have hdetach : l.bridge.detach q = { l.bridge with
      peer := if l.bridge.peer = some q then none else l.bridge.peer } := by
    by_cases hq : l.bridge.peer = some q <;> simp [Bridge.detach, hq]
  have hstep : (l.step (.detach q)).2 = { l with bridge := l.bridge.detach q } := rfl
  rw [hstep, hdetach]
  refine h.of_still ⟨rfl, rfl, rfl⟩ rfl (fun hx => by cases hx) fun p => ?_
  rw [attached_concat, ← h.attached]
  by_cases hq : l.bridge.peer = some q
  · simp [hq, Step.isAttach, eq_comm]
  · rw [if_neg hq]
    grind [Step.isAttach]

/-- A step that neither attaches nor detaches nor closes is of no consequence to who is
attached. -/
theorem of_other (h : Follows steps log l) (hstill : l.Still l')
    (hsame : l'.bridge.peer = l.bridge.peer) (hdisplaces : x.displaces = false)
    (hdetach : ∀ q, x ≠ .detach q) :
    Follows (steps ++ [x]) (log ++ [(x, failure)]) l' := by
  have hattach : x.isAttach = false := by
    cases x with
    | attach => cases hdisplaces
    | detach | close | command | setBroken => rfl
  apply h.of_still hstill (by simp [hattach]) (fun hx => by simp [hdisplaces] at hx)
  intro p
  have hclose : x ≠ .close := by
    rintro rfl
    cases hdisplaces
  rw [attached_concat, hsame, h.attached]
  constructor
  · exact fun hp => .inr ⟨hp, hattach, hclose, hdetach p⟩
  · rintro (⟨-, session, connection, now, rfl, -⟩ | ⟨hp, -⟩)
    · cases hattach
    · exact hp

theorem command (h : Follows steps log l) (hopen : l.bridge.closed = false) (d : Directive)
    (stamp : Int) :
    Follows (steps ++ [.command d stamp])
      (log ++ [(.command d stamp, (l.step (.command d stamp)).1)])
      (l.step (.command d stamp)).2 := by
  have hother {l' : Line} {failure : Option Line.Failure} (hstill : l.Still l')
      (hsame : l'.bridge.peer = l.bridge.peer) :
      Follows (steps ++ [.command d stamp]) (log ++ [(.command d stamp, failure)]) l' :=
    h.of_other hstill hsame rfl (by simp)
  cases hpeer : l.bridge.peer with
  | none =>
      rw [Line.step_command_of_no_peer hopen hpeer]
      exact hother ⟨rfl, rfl, rfl⟩ rfl
  | some p =>
      rw [Line.step_command_of_peer hopen hpeer]
      exact hother ⟨rfl, rfl, rfl⟩ rfl

theorem step (h : Follows steps log l) (x : Step) :
    Follows (steps ++ [x]) (log ++ [(x, (l.step x).1)]) (l.step x).2 := by
  cases hclosed : l.bridge.closed with
  | true => exact h.step_of_closed hclosed x
  | false =>
      cases x with
      | attach session connection now => exact h.attach hclosed session connection now
      | detach q => exact h.detach q
      | close => exact h.close hclosed
      | command d stamp => exact h.command hclosed d stamp
      | setBroken connection on => exact h.of_other ⟨rfl, rfl, rfl⟩ rfl rfl (by simp)

theorem run (config : Config) (steps : List Step) :
    Follows steps ((Line.new config).log steps) ((Line.new config).run steps) := by
  induction steps using List.reverseRecOn with
  | nil => exact Follows.new config
  | append_singleton steps x ih =>
      rw [Line.run_concat, Line.log_concat]
      exact ih.step x

end Follows

/-- However sidecars come and go, the latest who attached is the only one attached, and whoever made
room never is again. A command is written once, to that sidecar, or refused without a trace. A
closed bridge takes no one in. -/
theorem run_one_at_a_time (config : Config) (steps : List Step) :
    let l := (Line.new config).run steps
    (∀ p, l.bridge.peer = some p ↔ Attached steps p) ∧
    (∀ before after p, steps = before ++ after → Attached before p → l.bridge.peer ≠ some p →
      ∀ more, ((Line.new config).run (steps ++ more)).bridge.peer ≠ some p) ∧
    (∀ d stamp,
      (∀ p, Attached steps p → l.step (.command d stamp) =
        (if l.works p.connection then none else some .brokenPipe, { l with
          bridge := l.bridge.countSent
          delivered := l.delivered ++
            if l.works p.connection then [⟨p, d.message stamp⟩] else [] })) ∧
      (Step.close ∉ steps → (∀ p, ¬Attached steps p) →
        l.step (.command d stamp) = (some (.refused .notConnected), l)) ∧
      (Step.close ∈ steps → l.step (.command d stamp) = (some (.refused .closed), l))) ∧
    (Step.close ∈ steps → l.bridge.peer = none ∧ l.step .close = (none, l) ∧
      ∀ session connection now,
        l.step (.attach session connection now) = (some (.refused .closed), l)) ∧
    (∃ gone : List Peer, gone.Nodup ∧ (∀ p, p ∈ gone ↔ Displaced steps p) ∧
      l.hungUp = gone.map (·.connection)) ∧
    l.bridge.counters.connections =
      ((Line.new config).log steps).countP fun e => e.1.isAttach && e.2.isNone := by
  intro l
  have h : Follows steps ((Line.new config).log steps) l := Follows.run config steps
  have hopen (hnot : Step.close ∉ steps) : l.bridge.closed = false := by
    rw [← Bool.not_eq_true, h.closed]
    exact hnot
  refine ⟨h.attached, ?_, fun d stamp => ⟨?_, ?_, ?_⟩, ?_, h.hungUp, h.connections⟩
  · intro before after p hsteps hbefore hnot more hlater
    have hnumber : p.number < steps.countP Step.isAttach := by
      rw [hsteps, List.countP_append, ← hbefore.number]
      omega
    apply hnot
    rw [h.attached]
    exact Attached.of_append hnumber (((Follows.run config _).attached p).mp hlater)
  · intro p hp
    exact Line.step_command_of_peer (hopen hp.close_not_mem) ((h.attached p).mpr hp) d stamp
  · intro hnot hnone
    apply Line.step_command_of_no_peer (hopen hnot)
    rw [Option.eq_none_iff_forall_ne_some]
    exact fun p hp => hnone p ((h.attached p).mp hp)
  · exact fun hmem => Line.step_command_of_closed (h.closed.mpr hmem) d stamp
  · intro hmem
    have hclosed := h.closed.mpr hmem
    exact ⟨h.peer_eq_none hclosed, Line.step_close_of_closed hclosed,
      Line.step_attach_of_closed hclosed⟩

end VoxelScout.Bridge
