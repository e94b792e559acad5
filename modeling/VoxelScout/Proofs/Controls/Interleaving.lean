import Mathlib.Data.List.Perm.Basic
import VoxelScout.Proofs.Controls.Holding

/-! # Calls that overlap

A call first changes the timer and only then tells the host, one event after the other, and
other calls may come between. The host hears what it would hear of the calls one after the
other, but perhaps in another order; it agrees with the timer about a control exactly when
what it hears last of the control is what it would hear last of the calls in turn.
-/

namespace VoxelScout.Controls

/-! ## Runs with overlapping calls -/

/-- A timer that several callers share, what the host has heard, and what each call that has
changed the timer has still to tell. -/
structure Shared where
  timer : Timer
  sent : List Event
  pending : List (List Event)

/-- What may come next: a call reads the clock and changes the timer, or the call of a
number tells the host its next event. -/
inductive Move where
  | change (clock : Instant) (x : Step)
  | tell (call : Nat)

namespace Move

/-- The steps of a move when every call ends before the next one begins. -/
def inTurn : Move → List Step
  | .change clock x => [.setClock clock, x]
  | .tell _ => []

def inRange : Move → Bool
  | .change clock x => Decimal.fitsInt64 clock.nanos && x.inRange
  | .tell _ => true

theorem inRange_of_mem_inTurn {m : Move} (hm : m.inRange = true) {x : Step}
    (hx : x ∈ m.inTurn) : x.inRange = true := by
  cases m with
  | change clock y =>
      obtain ⟨hclock, hy⟩ := Bool.and_eq_true_iff.mp hm
      rcases List.mem_pair.mp hx with rfl | rfl
      · exact hclock
      · exact hy
  | tell call => cases hx

end Move

namespace Shared

def start : Shared :=
  ⟨Timer.idle, [], []⟩

def tell (s : Shared) (call : Nat) : Shared :=
  match s.pending[call]? with
  | some (e :: rest) => { s with sent := s.sent ++ [e], pending := s.pending.set call rest }
  | _ => s

def move (s : Shared) : Move → Shared
  | .change clock x =>
    { s with
      timer := (s.timer.perform clock x).1
      pending := s.pending ++ [(s.timer.perform clock x).2] }
  | .tell call => s.tell call

def run (s : Shared) (moves : List Move) : Shared :=
  moves.foldl move s

def settled (s : Shared) : Bool :=
  s.pending.all List.isEmpty

theorem run_concat (s : Shared) (moves : List Move) (m : Move) :
    s.run (moves ++ [m]) = (s.run moves).move m := by
  simp [run]

theorem tell_timer (s : Shared) (call : Nat) : (s.tell call).timer = s.timer := by
  unfold tell
  split <;> rfl

/-- What a call tells is no longer pending. -/
theorem tell_perm (s : Shared) (call : Nat) :
    ((s.tell call).sent ++ (s.tell call).pending.flatten).Perm (s.sent ++ s.pending.flatten) := by
  cases hcall : s.pending[call]? with
  | none => simp [tell, hcall]
  | some events =>
      cases events with
      | nil => simp [tell, hcall]
      | cons e rest =>
          obtain ⟨hlt, hget⟩ := List.getElem?_eq_some_iff.mp hcall
          have htell : s.tell call =
              { s with sent := s.sent ++ [e], pending := s.pending.set call rest } := by
            simp [tell, hcall]
          have hsplit : s.pending =
              s.pending.take call ++ (e :: rest) :: s.pending.drop (call + 1) := by
            rw [← hget, List.getElem_cons_drop, List.take_append_drop]
          have hset : s.pending.set call rest =
              s.pending.take call ++ rest :: s.pending.drop (call + 1) := by
            rw [List.set_eq_take_append_cons_drop, if_pos hlt]
          rw [htell]
          simp only [hset]
          conv_rhs => rw [hsplit]
          simp only [List.flatten_append, List.flatten_cons, List.cons_append, List.append_assoc,
            List.nil_append]
          exact List.Perm.append_left _ List.perm_middle.symm

/-- Nothing is lost and nothing made up: what the host has heard and what it is still to
hear is what it would have heard of the calls in turn, and the timer is the same. -/
structure Mirrors (s : Shared) (inTurn : Session) : Prop where
  timer : s.timer = inTurn.timer
  events : (s.sent ++ s.pending.flatten).Perm inTurn.sent

theorem Mirrors.start (now : Instant) : Mirrors Shared.start (Session.start now) :=
  ⟨rfl, .nil⟩

theorem Mirrors.move {s : Shared} {inTurn : Session} (h : Mirrors s inTurn) (m : Move) :
    Mirrors (s.move m) (inTurn.run m.inTurn) := by
  cases m with
  | change clock x =>
      have hsent : (inTurn.run (Move.change clock x).inTurn).sent =
          inTurn.sent ++ (inTurn.timer.perform clock x).2 := by
        simp [Move.inTurn, Session.run, Session.step, Timer.perform]
      constructor
      · change (s.timer.perform clock x).1 = (inTurn.timer.perform clock x).1
        rw [h.timer]
      · rw [hsent, ← h.timer]
        simp only [Shared.move, List.flatten_append, List.flatten_singleton, ← List.append_assoc]
        exact h.events.append_right _
  | tell call =>
      exact ⟨(s.tell_timer call).trans h.timer, (s.tell_perm call).trans h.events⟩

def inTurn (moves : List Move) : Session :=
  (Session.start ⟨0⟩).run (moves.flatMap Move.inTurn)

theorem Mirrors.run (moves : List Move) : Mirrors (Shared.start.run moves) (inTurn moves) := by
  induction moves using List.reverseRecOn with
  | nil => exact Mirrors.start ⟨0⟩
  | append_singleton moves m ih =>
      have hinTurn : inTurn (moves ++ [m]) = (inTurn moves).run m.inTurn := by
        simp [inTurn, Session.run]
      rw [run_concat, hinTurn]
      exact ih.move m

theorem Mirrors.sent_perm {s : Shared} {inTurn : Session} (h : Mirrors s inTurn)
    (hsettled : s.settled = true) : s.sent.Perm inTurn.sent := by
  have hflatten : s.pending.flatten = [] := by
    rw [List.flatten_eq_nil_iff]
    intro events hevents
    exact List.isEmpty_iff.mp (List.all_eq_true.mp hsettled events hevents)
  simpa [hflatten] using h.events

end Shared

/-! ## Agreement with the host -/

theorem stream_perm {events more : List Event} (h : events.Perm more) (a : Axis) :
    (stream a events).Perm (stream a more) :=
  (h.filter _).map _

/-- Once every call has told all, the host has heard what it would have heard of the calls
in turn, in whatever order; and about each control it agrees with the timer exactly when it
heard that last which it would have heard last of the calls in turn. -/
theorem run_agrees_iff_last_in_turn (moves : List Move) (hmoves : ∀ m ∈ moves, m.inRange = true)
    (hsettled : (Shared.start.run moves).settled = true) (a : Axis) :
    let s := Shared.start.run moves
    (stream a s.sent).Perm (stream a (Shared.inTurn moves).sent) ∧
      (((stream a s.sent).getLast? = some true ↔ s.timer.active a = true) ↔
        (stream a s.sent).getLast? = (stream a (Shared.inTurn moves).sent).getLast?) := by
  intro s
  have hmirrors : Shared.Mirrors s (Shared.inTurn moves) := Shared.Mirrors.run moves
  have hperm : (stream a s.sent).Perm (stream a (Shared.inTurn moves).sent) :=
    stream_perm (hmirrors.sent_perm hsettled) a
  have hrange : ∀ x ∈ moves.flatMap Move.inTurn, x.inRange = true := by
    intro x hx
    obtain ⟨m, hm, hx⟩ := List.mem_flatMap.mp hx
    exact Move.inRange_of_mem_inTurn (hmoves m hm) hx
  have hstart : Decimal.fitsInt64 (⟨0⟩ : Instant).nanos = true := by decide
  have hagree := Agree.run hstart hrange a
  have hlast : (stream a (Shared.inTurn moves).sent).getLast? = some true ↔
      s.timer.active a = true := by
    rw [hmirrors.timer]
    exact hagree.last
  refine ⟨hperm, ?_⟩
  rw [← hlast]
  -- the host has heard something of the control when there is something to hear, and only then
  cases hheard : (stream a s.sent).getLast? with
  | none =>
      rw [List.getLast?_eq_none_iff] at hheard
      rw [hheard] at hperm
      simp [hperm.nil_eq.symm]
  | some p =>
      cases hlater : (stream a (Shared.inTurn moves).sent).getLast? with
      | none =>
          rw [List.getLast?_eq_none_iff] at hlater
          rw [hlater] at hperm
          simp [hperm.eq_nil] at hheard
      | some q => cases p <;> cases q <;> simp

/-- A press and a later call for another control overlap, each telling the other's event
first, and nothing is amiss. -/
theorem run_agrees_iff_last_in_turn_jump :
    let moves : List Move := [.change ⟨0⟩ (.hold .sprint 10), .change ⟨5⟩ (.hold .jump 10),
      .tell 1, .tell 0, .change ⟨12⟩ (.tick ⟨12⟩), .tell 2]
    let s := Shared.start.run moves
    ((∀ m ∈ moves, m.inRange = true) ∧ s.settled = true) ∧
      ((stream .sprint s.sent).getLast? = some true ↔ s.timer.active .sprint = true) := by
  intro moves s
  have hmoves : ∀ m ∈ moves, m.inRange = true := by
    simp only [moves, List.forall_mem_cons]
    decide
  have hsettled : s.settled = true := by decide
  refine ⟨⟨hmoves, hsettled⟩, ?_⟩
  rw [(run_agrees_iff_last_in_turn moves hmoves hsettled .sprint).2]
  decide

/-- A press that is told after the release of a later call leaves the host with a control that the
timer does not hold, and a release told after the press of a later call leaves it without one that
the timer holds. -/
theorem stale_event_heard_last :
    let latePress := Shared.start.run [.change ⟨0⟩ (.hold .sprint 10),
      .change ⟨20⟩ (.tick ⟨20⟩), .tell 1, .tell 0]
    let lateRelease := Shared.start.run [.change ⟨0⟩ (.hold .sprint 10), .tell 0,
      .change ⟨20⟩ (.tick ⟨20⟩), .change ⟨20⟩ (.hold .sprint 10), .tell 2, .tell 1]
    (latePress.settled = true ∧ (stream .sprint latePress.sent).getLast? = some true ∧
      latePress.timer.active .sprint = false) ∧
    lateRelease.settled = true ∧ (stream .sprint lateRelease.sent).getLast? = some false ∧
      lateRelease.timer.active .sprint = true := by
  decide

end VoxelScout.Controls
