import Mathlib.Data.List.Induction
import VoxelScout.Bot.Status
import VoxelScout.Proofs.Combat.Cooldown

/-! # One pose

A bot keeps its pose for itself, combat keeps another one to aim with, and sight keeps the
place that distances are measured from. Over every run of perceiving and acting the three
say the same, namely what the steps of the run say: the body is that of the last snapshot,
and the heading that of the last snapshot or turn of the head. The host has no part in it.
-/

namespace VoxelScout.Bot

variable {σ α : Type}

/-! ## Sessions -/

inductive Step (α : Type) where
  | tick (snapshot : Snapshot α)
  | hear (id : PlayerId) (raw : Hearing.RawSound α)
  | look (heading : Heading α)
  | lookAt (target : Vec α)
  | attack (target : PlayerId)
  | hold (axis : Axis) (d : Duration)
  | releaseAll
  | chat (message : String)
  | prune
  /-- The terrain of the last tick changes meanwhile. -/
  | terrain (world : World α)
  | setClock (now : Instant)

def Step.isTick : Step α → Bool
  | .tick _ => true
  | _ => false

/-- A bot with its clock, the state of its host, and what each of its observers was told. -/
structure Session (σ α : Type) where
  bot : Bot α
  state : σ
  clock : Instant
  told : List (List (Report α))

namespace Session

def start [Scalar α] (config : Config α) (seed : UInt64) (state : σ) (now : Instant)
    (observers : Nat) : Session σ α :=
  ⟨Bot.new config seed now, state, now, List.replicate observers []⟩

def withOutcome (s : Session σ α) (outcome : Bot α × σ) : Session σ α :=
  { s with bot := outcome.1, state := outcome.2 }

def notify (s : Session σ α) (report : Report α) : Session σ α :=
  { s with told := s.told.map (· ++ [report]) }

variable [Trig α]

def step (host : Option (Host σ α)) (s : Session σ α) : Step α → Session σ α
  | .tick snapshot =>
    let s := s.withOutcome (s.bot.tick host s.state snapshot s.clock)
    s.notify s.bot.report
  | .hear id raw => { s with bot := (s.bot.hear id raw s.clock).2 }
  | .look heading => s.withOutcome (s.bot.look host s.state heading)
  | .lookAt target => s.withOutcome (s.bot.lookAt host s.state target)
  | .attack target => s.withOutcome (s.bot.attack host s.state target s.clock).2
  | .hold axis d => s.withOutcome (s.bot.hold host s.state axis d s.clock)
  | .releaseAll => s.withOutcome (s.bot.releaseAll host s.state)
  | .chat message => { s with state := chat host s.state message }
  | .prune => { s with bot := s.bot.prune s.clock }
  | .terrain world => { s with bot := s.bot.withTerrain world }
  | .setClock now => { s with clock := now }

def run (host : Option (Host σ α)) (s : Session σ α) (steps : List (Step α)) : Session σ α :=
  steps.foldl (step host) s

theorem run_concat (host : Option (Host σ α)) (s : Session σ α) (steps : List (Step α))
    (x : Step α) : s.run host (steps ++ [x]) = (s.run host steps).step host x := by
  simp [run]

end Session

/-! ## Doings that leave the pose alone -/

/-- The copies of the pose and the count of ticks are left alone. -/
structure Still (b b' : Bot α) : Prop where
  self : b'.self = b.self
  aim : b'.combat.self = b.combat.self
  position : b'.sight.position = b.sight.position
  ticks : b'.ticks = b.ticks

theorem still_withTerrain (b : Bot α) (world : World α) : Still b (b.withTerrain world) := by
  unfold withTerrain
  split <;> exact ⟨rfl, rfl, rfl, rfl⟩

theorem still_attack [Trig α] (host : Option (Host σ α)) (b : Bot α) (s : σ) (target : PlayerId)
    (now : Instant) : Still b (b.attack host s target now).2.1 where
  self := rfl
  aim := by
    have hswing := b.combat.attack_tracker (host.map fun host id => host.accepts s (.attack id))
      target now
    have hself := congrArg Combat.Tracker.self hswing
    refine hself.trans ?_
    split <;> rfl
  position := rfl
  ticks := rfl

/-! ## Reading the steps -/

def Step.pose? : Step α → Option (Pose α)
  | .tick snapshot => some snapshot.self
  | _ => none

def shown [Scalar α] (steps : List (Step α)) : Pose α :=
  (steps.filterMap Step.pose?).getLast?.getD Pose.initial

def Step.heading? [Trig α] (eye : Vec α) : Step α → Option (Heading α)
  | .tick snapshot => some snapshot.self.heading
  | .look heading => some (levelled heading)
  | .lookAt target => some (levelled (Heading.toward (target.sub eye)))
  | _ => none

/-- The headings that steps bring about, given the steps before all of them: the eyes are
where the snapshot before showed them. -/
def headings [Trig α] : List (Step α) → List (Step α) → List (Heading α)
  | _, [] => []
  | past, x :: rest => (x.heading? (shown past).eye).toList ++ headings (past ++ [x]) rest

def facing [Trig α] (steps : List (Step α)) : Heading α :=
  (headings [] steps).getLast?.getD ⟨0, 0⟩

def poseAfter [Trig α] (steps : List (Step α)) : Pose α :=
  { shown steps with heading := facing steps }

theorem shown_concat [Scalar α] (steps : List (Step α)) (x : Step α) :
    shown (steps ++ [x]) = x.pose?.getD (shown steps) := by
  unfold shown
  rw [List.filterMap_append, List.getLast?_append]
  cases hpose : x.pose? <;> simp [hpose]

section Reading

variable [Trig α]

theorem headings_concat (past steps : List (Step α)) (x : Step α) :
    headings past (steps ++ [x]) =
      headings past steps ++ (x.heading? (shown (past ++ steps)).eye).toList := by
  induction steps generalizing past with
  | nil => simp [headings]
  | cons first rest ih =>
      rw [List.cons_append, headings, ih, headings, List.append_assoc]
      simp only [List.append_assoc, List.singleton_append]

theorem facing_concat (steps : List (Step α)) (x : Step α) :
    facing (steps ++ [x]) = (x.heading? (shown steps).eye).getD (facing steps) := by
  unfold facing
  rw [headings_concat, List.nil_append, List.getLast?_append]
  cases x.heading? (shown steps).eye <;> simp

/-- The pose changes with the steps as the single step says. -/
theorem poseAfter_concat (steps : List (Step α)) (x : Step α) :
    poseAfter (steps ++ [x]) =
      { x.pose?.getD (poseAfter steps) with
        heading := (x.heading? (poseAfter steps).eye).getD (facing steps) } := by
  have heye : (poseAfter steps).eye = (shown steps).eye := rfl
  rw [heye, poseAfter, shown_concat, facing_concat]
  cases x.pose? <;> rfl

theorem poseAfter_concat_of_still (steps : List (Step α)) {x : Step α} (hpose : x.pose? = none)
    (hheading : ∀ eye, x.heading? eye = none) :
    poseAfter (steps ++ [x]) = poseAfter steps := by
  rw [poseAfter_concat, hpose, hheading]
  rfl

/-! ## Runs -/

/-- All copies of the pose are what the steps of a run say, and the ticks are counted. -/
structure Follows (steps : List (Step α)) (s : Session σ α) : Prop where
  self : s.bot.self = poseAfter steps
  aim : s.bot.combat.self = poseAfter steps
  position : s.bot.sight.position = (poseAfter steps).position
  ticks : s.bot.ticks = steps.countP Step.isTick

namespace Follows

variable {steps : List (Step α)} {s s' : Session σ α} (host : Option (Host σ α))

theorem start (config : Config α) (seed : UInt64) (state : σ) (now : Instant)
    (observers : Nat) : Follows [] (Session.start config seed state now observers) :=
  ⟨rfl, rfl, rfl, rfl⟩

theorem of_still (h : Follows steps s) (hstill : Still s.bot s'.bot) {x : Step α}
    (hpose : x.pose? = none) (hheading : ∀ eye, x.heading? eye = none)
    (htick : x.isTick = false) : Follows (steps ++ [x]) s' := by
  have hsame := poseAfter_concat_of_still steps hpose hheading
  refine ⟨?_, ?_, ?_, ?_⟩
  · rw [hstill.self, h.self, hsame]
  · rw [hstill.aim, h.aim, hsame]
  · rw [hstill.position, h.position, hsame]
  · rw [hstill.ticks, h.ticks, List.countP_append]
    simp [htick]

/-- A turn of the head turns both copies that have a heading. -/
theorem of_turn (h : Follows steps s) {x : Step α} {heading : Heading α} (hpose : x.pose? = none)
    (hheading : x.heading? (poseAfter steps).eye = some heading) (htick : x.isTick = false)
    (hself : s'.bot.self = { s.bot.self with heading })
    (haim : s'.bot.combat.self = { s.bot.combat.self with heading })
    (hposition : s'.bot.sight.position = s.bot.sight.position)
    (hticks : s'.bot.ticks = s.bot.ticks) : Follows (steps ++ [x]) s' := by
  have hturned : poseAfter (steps ++ [x]) = { poseAfter steps with heading } := by
    rw [poseAfter_concat, hpose, hheading]
    rfl
  refine ⟨?_, ?_, ?_, ?_⟩
  · rw [hself, h.self, hturned]
  · rw [haim, h.aim, hturned]
  · rw [hposition, h.position, hturned]
  · rw [hticks, h.ticks, List.countP_append]
    simp [htick]

theorem tick (h : Follows steps s) (snapshot : Snapshot α) :
    Follows (steps ++ [.tick snapshot]) (s.step host (.tick snapshot)) := by
  have hshown : poseAfter (steps ++ [.tick snapshot]) = snapshot.self := by
    rw [poseAfter_concat]
    rfl
  refine ⟨hshown.symm, hshown.symm, ?_, ?_⟩
  · rw [hshown]
    rfl
  · have hticks : (s.step host (.tick snapshot)).bot.ticks = s.bot.ticks + 1 := rfl
    rw [hticks, h.ticks, List.countP_append]
    rfl

theorem step (h : Follows steps s) (x : Step α) :
    Follows (steps ++ [x]) (s.step host x) := by
  cases x with
  | tick snapshot => exact h.tick host snapshot
  | look heading => apply h.of_turn <;> rfl
  | lookAt target =>
      -- the eyes are where the copy that follows the steps says
      have heye : (poseAfter steps).eye = s.bot.self.eye := congrArg Pose.eye h.self.symm
      have hheading : (Step.lookAt target).heading? (poseAfter steps).eye =
          some (levelled (Heading.toward (target.sub s.bot.self.eye))) := by
        rw [heye]
        rfl
      apply h.of_turn rfl hheading <;> rfl
  | attack target =>
      exact h.of_still (still_attack host s.bot s.state target s.clock) rfl (fun _ => rfl) rfl
  | terrain world => exact h.of_still (still_withTerrain s.bot world) rfl (fun _ => rfl) rfl
  | hear | hold | releaseAll | chat | prune | setClock =>
      apply h.of_still
      · exact ⟨rfl, rfl, rfl, rfl⟩
      · rfl
      · exact fun _ => rfl
      · rfl

theorem run (config : Config α) (seed : UInt64) (state : σ) (now : Instant) (observers : Nat)
    (steps : List (Step α)) :
    Follows steps ((Session.start config seed state now observers).run host steps) := by
  induction steps using List.reverseRecOn with
  | nil => exact start config seed state now observers
  | append_singleton steps x ih =>
      rw [Session.run_concat]
      exact ih.step host x

end Follows

/-! ## What observers are told -/

namespace Session

variable (host : Option (Host σ α))

def report? (s : Session σ α) : Step α → Option (Report α)
  | .tick snapshot => some (s.step host (.tick snapshot)).bot.report
  | _ => none

def reports : Session σ α → List (Step α) → List (Report α)
  | _, [] => []
  | s, x :: rest => (s.report? host x).toList ++ (s.step host x).reports rest

theorem told_step (s : Session σ α) (x : Step α) :
    (s.step host x).told = s.told.map (· ++ (s.report? host x).toList) := by
  cases x with
  | tick snapshot => rfl
  | look | lookAt | attack | hear | hold | releaseAll | chat | prune | terrain | setClock =>
      simp [step, withOutcome, report?]

theorem told_run (s : Session σ α) (steps : List (Step α)) :
    (s.run host steps).told = s.told.map (· ++ s.reports host steps) := by
  induction steps generalizing s with
  | nil => simp [run, reports]
  | cons x rest ih =>
      have hcons : s.run host (x :: rest) = (s.step host x).run host rest := rfl
      rw [hcons, ih, told_step, List.map_map, reports]
      simp only [Function.comp_def, List.append_assoc]

theorem reports_append (s : Session σ α) (steps more : List (Step α)) :
    s.reports host (steps ++ more) =
      s.reports host steps ++ (s.run host steps).reports host more := by
  induction steps generalizing s with
  | nil => rfl
  | cons x rest ih =>
      rw [List.cons_append, reports, ih, reports, List.append_assoc]
      rfl

theorem length_reports (s : Session σ α) (steps : List (Step α)) :
    (s.reports host steps).length = steps.countP Step.isTick := by
  induction steps generalizing s with
  | nil => rfl
  | cons x rest ih =>
      rw [reports, List.length_append, ih, List.countP_cons, Nat.add_comm]
      cases x <;> rfl

/-- The report of a tick stands behind those of the ticks before it. -/
theorem reports_getElem? (s : Session σ α) (before : List (Step α)) (snapshot : Snapshot α)
    (after : List (Step α)) :
    (s.reports host (before ++ .tick snapshot :: after))[before.countP Step.isTick]? =
      some ((s.run host before).step host (.tick snapshot)).bot.report := by
  rw [reports_append, ← s.length_reports host before, List.getElem?_append_right (Nat.le_refl _),
    Nat.sub_self]
  rfl

end Session

end Reading

/-! ## The whole run -/

/-- After every run all copies of the pose are the pose that the steps say, and sight, hearing and
turns of the head start from it. The ticks are counted, and each observer has one report of each
tick. -/
theorem run_one_pose [Trig α] (host : Option (Host σ α)) (config : Config α) (seed : UInt64)
    (state : σ) (now : Instant) (observers : Nat) (steps : List (Step α)) :
    let start := Session.start config seed state now observers
    let s := start.run host steps
    let b := s.bot
    let pose := poseAfter steps
    (∀ clock, (b.status clock).self = pose) ∧ b.combat.self = pose ∧
    (b.sight.position = pose.position ∧
      b.sight.nearest? =
        (b.sight.beliefs.foldl (Sight.Tracker.closer pose.position) none).map (·.2) ∧
      ∀ id raw clock,
        (b.hear id raw clock).1 = (b.hearing.hear id raw pose.position clock).1) ∧
    (∀ (anyHost : Option (Host σ α)) (anyState : σ),
      (∀ heading, (b.look anyHost anyState heading).1 = { b with
        self := { pose with heading := levelled heading }
        combat := { b.combat with self := { pose with heading := levelled heading } } }) ∧
      ∀ target, b.lookAt anyHost anyState target =
        b.look anyHost anyState (Heading.toward (target.sub pose.eye))) ∧
    (∀ clock, (b.status clock).ticks = steps.countP Step.isTick) ∧
    (s.told.length = observers ∧ ∀ log ∈ s.told, log.length = steps.countP Step.isTick ∧
      ∀ before snapshot after, steps = before ++ .tick snapshot :: after →
        log[before.countP Step.isTick]? = some {
          tick := before.countP Step.isTick + 1
          time := snapshot.time.orElse (start.run host before).clock
          self := snapshot.self
          players := (start.run host (before ++ [.tick snapshot])).bot.sight.beliefs }) := by
  intro start s b pose
  have h : Follows steps s := Follows.run host config seed state now observers steps
  have htold : s.told = List.replicate observers (start.reports host steps) := by
    rw [start.told_run host steps]
    exact List.map_replicate
  have hself : b.self = pose := h.self
  have haim : b.combat.self = pose := h.aim
  have hposition : b.sight.position = pose.position := h.position
  refine ⟨fun _ => hself, haim, ⟨hposition, ?_, ?_⟩, ?_, fun _ => h.ticks, ?_, ?_⟩
  · rw [← hposition]
    rfl
  · intro id raw clock
    rw [← hself]
    rfl
  · intro anyHost anyState
    constructor
    · intro heading
      rw [look, Combat.Tracker.look, hself, haim]
    · intro target
      rw [← hself]
      rfl
  · rw [htold, List.length_replicate]
  · intro log hlog
    rw [htold] at hlog
    obtain rfl : log = start.reports host steps := List.eq_of_mem_replicate hlog
    refine ⟨start.length_reports host steps, ?_⟩
    rintro before snapshot after rfl
    have hticks : (start.run host before).bot.ticks = before.countP Step.isTick :=
      (Follows.run host config seed state now observers before).ticks
    rw [start.reports_getElem? host, Session.run_concat, ← hticks]
    rfl

end VoxelScout.Bot
