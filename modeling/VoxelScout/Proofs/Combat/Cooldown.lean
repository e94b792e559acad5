import Mathlib.Data.List.Induction
import VoxelScout.Combat.Tracker

/-! # When the charge was last reset

A bot's session with its tracker is a run of updates, turns of the head, resets and swings
under a clock that may be set to anything. Everything the tracker says about the charge
rests on one instant. Along every run that instant is the clock at the last entry of the
log that resets the charge, and the log alone tells which entries do.
-/

namespace VoxelScout.Combat

/-- A swing that is sent resets the charge, and one that is not changes nothing. -/
theorem Tracker.attack_tracker {α : Type} [Trig α] (t : Tracker α)
    (accept : Option (PlayerId → Bool)) (target : PlayerId) (now : Instant) :
    (t.attack accept target now).tracker =
      if (t.attack accept target now).sent then t.reset now else t := by
  unfold attack
  cases accept with
  | none => rfl
  | some accept =>
      by_cases hcan : t.canAttack target
      · by_cases haccept : accept target <;> simp [hcan, haccept]
      · simp [hcan]

/-! ## Sessions -/

inductive Step (α : Type) where
  | update (snapshot : Snapshot α)
  | look (heading : Heading α)
  | reset
  /-- A swing; `accept` is how whoever carries it out answers, this time. -/
  | attack (accept : Option (PlayerId → Bool)) (target : PlayerId)
  | setClock (now : Instant)
  /-- Any question about the charge or the aim. -/
  | query

structure Session (α : Type) where
  tracker : Tracker α
  clock : Instant

/-- What an entry of the log says: the name of the held item that an update showed, a reset,
or whether a swing was sent. -/
inductive Deed where
  | update (held : String)
  | reset
  | attack (sent : Bool)
  | other
  deriving DecidableEq, Repr

structure Entry where
  clock : Instant
  deed : Deed
  deriving DecidableEq, Repr

namespace Session

variable {α : Type} [Trig α]

def start (config : Config α) (now : Instant) : Session α :=
  ⟨Tracker.new config now, now⟩

def step (s : Session α) : Step α → Session α
  | .update snapshot => { s with tracker := s.tracker.update snapshot s.clock }
  | .look heading => { s with tracker := s.tracker.look heading }
  | .reset => { s with tracker := s.tracker.reset s.clock }
  | .attack accept target =>
    { s with tracker := (s.tracker.attack accept target s.clock).tracker }
  | .setClock now => { s with clock := now }
  | .query => s

def run (s : Session α) (steps : List (Step α)) : Session α :=
  steps.foldl step s

def deed (s : Session α) : Step α → Deed
  | .update snapshot => .update snapshot.self.heldName
  | .reset => .reset
  | .attack accept target => .attack (s.tracker.attack accept target s.clock).sent
  | .look _ | .setClock _ | .query => .other

def entry (s : Session α) (x : Step α) : Entry :=
  ⟨s.clock, s.deed x⟩

def log : Session α → List (Step α) → List Entry
  | _, [] => []
  | s, x :: rest => s.entry x :: (s.step x).log rest

theorem run_concat (s : Session α) (steps : List (Step α)) (x : Step α) :
    s.run (steps ++ [x]) = (s.run steps).step x := by
  simp [run]

theorem log_concat (s : Session α) (steps : List (Step α)) (x : Step α) :
    s.log (steps ++ [x]) = s.log steps ++ [(s.run steps).entry x] := by
  induction steps generalizing s with
  | nil => rfl
  | cons first rest ih =>
      rw [List.cons_append, log, ih, log, List.cons_append]
      rfl

end Session

/-! ## Reading a log -/

def Entry.held? (e : Entry) : Option String :=
  match e.deed with
  | .update held => some held
  | _ => none

def lastHeld? (log : List Entry) : Option String :=
  (log.filterMap Entry.held?).getLast?

/-- Whether an entry resets the charge, given the entries before it: a reset does, a swing
that was sent does, and so does an update that shows another item than the update before
it. -/
def Entry.resets (past : List Entry) (e : Entry) : Bool :=
  match e.deed with
  | .reset => true
  | .attack sent => sent
  | .update held => (lastHeld? past).any (· != held)
  | .other => false

def resetClocks : List Entry → List Entry → List Instant
  | _, [] => []
  | past, e :: rest =>
    (if e.resets past then [e.clock] else []) ++ resetClocks (past ++ [e]) rest

/-- The clock at the last reset of a log; a tracker that was never reset is as one that was
reset five seconds before its start. -/
def resetClock (start : Instant) (log : List Entry) : Instant :=
  (resetClocks [] log).getLast?.getD (start.add (-(Duration.seconds 5)))

-- the first update only shows what is held, and a change back is a change
example : resetClocks [] [⟨⟨1⟩, .update "axe"⟩, ⟨⟨2⟩, .update ""⟩, ⟨⟨3⟩, .attack false⟩,
    ⟨⟨4⟩, .update ""⟩, ⟨⟨5⟩, .update "axe"⟩] = [⟨2⟩, ⟨5⟩] := by
  decide

theorem lastHeld?_concat (log : List Entry) (e : Entry) :
    lastHeld? (log ++ [e]) = e.held?.or (lastHeld? log) := by
  unfold lastHeld?
  rw [List.filterMap_append, List.getLast?_append]
  cases hheld : e.held? <;> simp [hheld]

theorem resetClocks_concat (past log : List Entry) (e : Entry) :
    resetClocks past (log ++ [e]) =
      resetClocks past log ++ if e.resets (past ++ log) then [e.clock] else [] := by
  induction log generalizing past with
  | nil => simp [resetClocks]
  | cons first rest ih =>
      rw [List.cons_append, resetClocks, ih, resetClocks, List.append_assoc]
      simp only [List.append_assoc, List.singleton_append]

theorem resetClock_concat (start : Instant) (log : List Entry) (e : Entry) :
    resetClock start (log ++ [e]) =
      if e.resets log then e.clock else resetClock start log := by
  unfold resetClock
  rw [resetClocks_concat, List.nil_append]
  split <;> simp

/-! ## Runs -/

/-- The tracker says what the log of its session says. -/
structure Tells {α : Type} (start : Instant) (log : List Entry) (t : Tracker α) : Prop where
  lastReset : t.lastReset = resetClock start log
  held : t.held = (lastHeld? log).getD ""
  primed : t.primed = (lastHeld? log).isSome

namespace Tells

variable {α : Type} {start : Instant} {log : List Entry}

theorem new [Scalar α] (config : Config α) (now : Instant) :
    Tells now [] (Tracker.new config now) :=
  ⟨rfl, rfl, rfl⟩

/-- An entry that shows no item leaves the name alone, so all that matters is whether it
resets. -/
theorem concat_of_held?_eq_none {t t' : Tracker α} (h : Tells start log t) {e : Entry}
    (hheld : e.held? = none) (hsame : t'.held = t.held) (hprimed : t'.primed = t.primed)
    (hreset : t'.lastReset = if e.resets log then e.clock else t.lastReset) :
    Tells start (log ++ [e]) t' where
  lastReset := by rw [hreset, resetClock_concat, h.lastReset]
  held := by rw [hsame, lastHeld?_concat, hheld, Option.none_or, h.held]
  primed := by rw [hprimed, lastHeld?_concat, hheld, Option.none_or, h.primed]

section Steps

variable [Trig α] {s : Session α}

theorem update (h : Tells start log s.tracker) (snapshot : Snapshot α) :
    Tells start (log ++ [s.entry (.update snapshot)]) (s.tracker.update snapshot s.clock) := by
  have hheld : (s.entry (.update snapshot)).held? = some snapshot.self.heldName := rfl
  -- the name at hand counts only once an update has shown it
  have hchanged : (s.entry (.update snapshot)).resets log =
      (s.tracker.primed && snapshot.self.heldName != s.tracker.held) := by
    rw [h.primed, h.held]
    cases hlast : lastHeld? log with
    | none => simp [Entry.resets, Session.entry, Session.deed, hlast]
    | some held => simp [Entry.resets, Session.entry, Session.deed, hlast, bne_comm]
  exact {
    lastReset := by
      rw [resetClock_concat, hchanged, ← h.lastReset]
      rfl
    held := by
      rw [lastHeld?_concat, hheld]
      rfl
    primed := by
      rw [lastHeld?_concat, hheld]
      rfl }

theorem attack (h : Tells start log s.tracker) (accept : Option (PlayerId → Bool))
    (target : PlayerId) :
    Tells start (log ++ [s.entry (.attack accept target)])
      (s.tracker.attack accept target s.clock).tracker := by
  have hresets : (s.entry (.attack accept target)).resets log =
      (s.tracker.attack accept target s.clock).sent := rfl
  rw [Tracker.attack_tracker, ← hresets]
  apply h.concat_of_held?_eq_none rfl <;> split <;> rfl

theorem step (h : Tells start log s.tracker) (x : Step α) :
    Tells start (log ++ [s.entry x]) (s.step x).tracker := by
  cases x with
  | update snapshot => exact h.update snapshot
  | attack accept target => exact h.attack accept target
  | look heading => exact h.concat_of_held?_eq_none rfl rfl rfl rfl
  | reset => exact h.concat_of_held?_eq_none rfl rfl rfl rfl
  | setClock now => exact h.concat_of_held?_eq_none rfl rfl rfl rfl
  | query => exact h.concat_of_held?_eq_none rfl rfl rfl rfl

theorem run (config : Config α) (now : Instant) (steps : List (Step α)) :
    Tells now ((Session.start config now).log steps)
      ((Session.start config now).run steps).tracker := by
  induction steps using List.reverseRecOn with
  | nil => exact Tells.new config now
  | append_singleton steps x ih =>
      rw [Session.run_concat, Session.log_concat]
      exact ih.step x

end Steps

end Tells

/-- After every run the charge is measured from the last entry of the log that resets it, or from
five seconds before the start when none does, and the name that counts as held is that of the last
update. -/
theorem run_lastReset_eq_resetClock {α : Type} [Trig α] (config : Config α) (now : Instant)
    (steps : List (Step α)) :
    let log := (Session.start config now).log steps
    let t := ((Session.start config now).run steps).tracker
    t.lastReset = resetClock now log ∧
      t.held = (lastHeld? log).getD "" ∧
      ∀ clock, t.elapsed clock =
        Duration.saturate (clock.nanos - (resetClock now log).nanos) := by
  intro log t
  have htells : Tells now log t := Tells.run config now steps
  refine ⟨htells.lastReset, htells.held, ?_⟩
  intro clock
  rw [Tracker.elapsed, Instant.since, htells.lastReset]

end VoxelScout.Combat
