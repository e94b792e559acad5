import VoxelScout.Bot
import VoxelScout.Proofs.Combat.Cooldown

/-! # All of a swing or nothing

A swing is checked, handed to whoever carries it out, and resets the charge, and it may end at
each of the three. Whoever carries attacks out is asked for a swing that would hit and for no
other, once; the charge is reset if the attack was taken; and a swing that was not sent leaves
no trace, so that a run is what it is without all such swings.
-/

namespace VoxelScout

namespace Combat

variable {α : Type} [Trig α]

namespace Tracker

variable (t : Tracker α) (accept : Option (PlayerId → Bool)) (target : PlayerId) (now : Instant)

/-- Nobody is asked for a swing that would not hit. -/
theorem attack_of_not_canAttack (h : t.canAttack target = false) :
    t.attack accept target now = ⟨false, [], t⟩ := by
  unfold attack
  cases accept with
  | none => rfl
  | some accept => simp [h]

/-- Whoever carries attacks out decides on a swing that would hit. -/
theorem attack_of_canAttack (answer : PlayerId → Bool) (h : t.canAttack target = true) :
    t.attack (some answer) target now =
      ⟨answer target, [target], if answer target then t.reset now else t⟩ := by
  unfold attack
  cases hanswer : answer target <;> simp [h, hanswer]

theorem attack_asked : (t.attack accept target now).asked =
    if t.canAttack target = true ∧ accept.isSome = true then [target] else [] := by
  cases hcan : t.canAttack target with
  | false => simp [t.attack_of_not_canAttack accept target now hcan]
  | true =>
      cases accept with
      | none => rfl
      | some answer => simp [t.attack_of_canAttack target now answer hcan]

theorem attack_sent_iff : (t.attack accept target now).sent = true ↔
    (t.attack accept target now).asked = [target] ∧ ∀ answer ∈ accept, answer target = true := by
  cases hcan : t.canAttack target with
  | false => simp [t.attack_of_not_canAttack accept target now hcan]
  | true =>
      cases accept with
      | none => simp [attack]
      | some answer => simp [t.attack_of_canAttack target now answer hcan]

end Tracker

/-! ## Runs without swings that were not sent -/

namespace Session

def asked (s : Session α) : Step α → List PlayerId
  | .attack accept target => (s.tracker.attack accept target s.clock).asked
  | .update _ | .look _ | .reset | .setClock _ | .query => []

/-- All that was asked of the one who carries attacks out in a run, in order. -/
def calls : Session α → List (Step α) → List PlayerId
  | _, [] => []
  | s, x :: rest => s.asked x ++ (s.step x).calls rest

def fizzles (s : Session α) (x : Step α) : Bool :=
  s.deed x == .attack false

/-- The steps of a run without the swings that were not sent. -/
def struck : Session α → List (Step α) → List (Step α)
  | _, [] => []
  | s, x :: rest => if s.fizzles x then (s.step x).struck rest else x :: (s.step x).struck rest

variable {s : Session α} {x : Step α}

theorem step_of_fizzles (h : s.fizzles x = true) : s.step x = s := by
  cases x with
  | attack accept target =>
      have hunsent : (s.tracker.attack accept target s.clock).sent = false := by
        simpa [fizzles, deed] using h
      rw [step, Tracker.attack_tracker, hunsent]
      rfl
  | update | look | reset | setClock | query => simp [fizzles, deed] at h

/-- A run is what it is without the swings that were not sent. -/
theorem run_struck (s : Session α) (steps : List (Step α)) :
    s.run (s.struck steps) = s.run steps := by
  induction steps generalizing s with
  | nil => rfl
  | cons x rest ih =>
      have hrest : (s.step x).run ((s.step x).struck rest) = s.run (x :: rest) := ih (s.step x)
      rw [struck]
      split
      · next hfizzles => rwa [step_of_fizzles hfizzles] at hrest ⊢
      · exact hrest

/-- All other steps do what they do without those swings. -/
theorem log_struck (s : Session α) (steps : List (Step α)) :
    s.log (s.struck steps) = (s.log steps).filter (·.deed != .attack false) := by
  induction steps generalizing s with
  | nil => rfl
  | cons x rest ih =>
      have hdeed : (s.entry x).deed = s.deed x := rfl
      rw [struck, log, List.filter_cons, hdeed, ← ih (s.step x)]
      split
      · next hfizzles =>
        rw [step_of_fizzles hfizzles, if_neg (by simpa [fizzles] using hfizzles)]
      · next hcounts =>
        rw [if_pos (by simpa [fizzles] using hcounts)]
        rfl

end Session

end Combat

/-- A host is called for a swing that would hit, once, and its answer is the bot's; otherwise it is
left alone. -/
theorem Bot.attack_host {σ α : Type} [Trig α] (host : Host σ α) (b : Bot α) (s : σ)
    (target : PlayerId) (now : Instant) :
    let swing := b.attack (some host) s target now
    (swing.1, swing.2.2) =
      if b.combat.canAttack target then host.carry s (.attack target) else (false, s) := by
  intro swing
  simp only [swing, Bot.attack, Option.map_some]
  cases hcan : b.combat.canAttack target with
  | false => simp [b.combat.attack_of_not_canAttack _ target now hcan, command, Host.sendAll]
  | true =>
      simp [b.combat.attack_of_canAttack target now _ hcan, command, Host.sendAll, Host.accepts]

namespace Combat

/-- After every run, a swing asks for one call exactly if it would hit and somebody can be asked,
and is sent exactly if the call is taken. It then resets the charge; otherwise it changes nothing,
and a run is as it would have been without it. -/
theorem run_attack_all_or_nothing {α : Type} [Trig α] (config : Config α) (start : Instant)
    (steps : List (Step α)) (accept : Option (PlayerId → Bool)) (target : PlayerId) :
    let first := Session.start config start
    let s := first.run steps
    let swing := s.tracker.attack accept target s.clock
    (swing.asked = if s.tracker.canAttack target = true ∧ accept.isSome = true then [target]
      else []) ∧
    (swing.sent = true ↔ swing.asked = [target] ∧ ∀ answer ∈ accept, answer target = true) ∧
    (∀ (σ : Type) (host : Host σ α) (b : Bot α) (w : σ),
      let done := { b with combat := s.tracker }.attack (some host) w target s.clock
      (done.1, done.2.2) =
        if s.tracker.canAttack target then host.carry w (.attack target) else (false, w)) ∧
    (swing.sent = true → swing.tracker = { s.tracker with lastReset := s.clock }) ∧
    (swing.sent = false → swing.tracker = s.tracker ∧ ∀ later,
      s.run (.attack accept target :: later) = s.run later ∧
      s.log (.attack accept target :: later) = ⟨s.clock, .attack false⟩ :: s.log later ∧
      s.calls (.attack accept target :: later) = swing.asked ++ s.calls later) ∧
    first.run (first.struck steps) = s ∧
    first.log (first.struck steps) = (first.log steps).filter (·.deed != .attack false) := by
  intro first s swing
  have htracker := s.tracker.attack_tracker accept target s.clock
  refine ⟨s.tracker.attack_asked accept target s.clock,
    s.tracker.attack_sent_iff accept target s.clock,
    fun _ host b w => { b with combat := s.tracker }.attack_host host w target s.clock, ?_, ?_,
    first.run_struck steps, first.log_struck steps⟩
  · intro hsent
    rw [if_pos hsent] at htracker
    exact htracker
  · intro hunsent
    have hentry : s.deed (.attack accept target) = .attack false := congrArg Deed.attack hunsent
    have hsame : s.step (.attack accept target) = s :=
      Session.step_of_fizzles (by rw [Session.fizzles, hentry]; rfl)
    refine ⟨congrArg Session.tracker hsame, fun later => ⟨?_, ?_, ?_⟩⟩
    · rw [Session.run, List.foldl_cons, hsame]
      rfl
    · rw [Session.log, hsame, Session.entry, hentry]
    · rw [Session.calls, hsame]
      rfl

end Combat

end VoxelScout
