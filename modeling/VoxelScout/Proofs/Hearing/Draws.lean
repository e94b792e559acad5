import Mathlib.Logic.Function.Iterate
import VoxelScout.Proofs.Hearing.Retention
import VoxelScout.Scalar.Binary64

/-! # What chance decides

All sounds of a tracker are blurred from one random source. A sound that arose elsewhere than
where it is heard takes exactly two draws of it, and nothing else takes any. So it is the seed,
the angle and the ways of such sounds that decide where they are placed: neither clocks, nor
what is forgotten and when, nor what the sounds are called, nor sounds heard at their own place.
-/

namespace VoxelScout

variable {α : Type} [Trig α]

/-! ## Draws -/

theorem Cap.blur_of_same_place {source origin : Vec α}
    (h : (source.distance origin == 0) = true) (maxDegrees : α) (random : Random) :
    blur source origin maxDegrees random = (origin, random) :=
  if_pos h

theorem Cap.blur_random {source origin : Vec α} (h : (source.distance origin == 0) = false)
    (maxDegrees : α) (random : Random) :
    (blur source origin maxDegrees random).2 = Random.step^[2] random := by
  have hblur : blur source origin maxDegrees random = _ := if_neg (Bool.eq_false_iff.mp h)
  rw [hblur]
  rfl

namespace Hearing

/-! ## The ways of sounds -/

/-- Where a sound arose, and where it is heard. -/
structure Way (α : Type) where
  source : Vec α
  listener : Vec α
  deriving DecidableEq

def Way.apart (way : Way α) : Bool :=
  !(way.source.distance way.listener == 0)

def Step.way? {α : Type} : Step α → Option (Way α)
  | .hear _ raw listener _ => some ⟨raw.origin, listener⟩
  | .prune _ => none

def waysApart (steps : List (Step α)) : List (Way α) :=
  (steps.filterMap Step.way?).filter Way.apart

namespace Tracker

/-- The sounds of a run, each with its way and the event that hearing it answered with. -/
def answers (t : Tracker α) (steps : List (Step α)) : List (Way α × Event α) :=
  (steps.filterMap Step.way?).zip (heard (t.log steps))

def answersApart (t : Tracker α) (steps : List (Step α)) : List (Way α × Event α) :=
  (t.answers steps).filter fun a => a.1.apart

theorem answers_hear (t : Tracker α) (id : PlayerId) (raw : RawSound α) (listener : Vec α)
    (now : Instant) (rest : List (Step α)) :
    t.answers (.hear id raw listener now :: rest) =
      (⟨raw.origin, listener⟩, (t.hear id raw listener now).1) ::
        (t.hear id raw listener now).2.answers rest :=
  rfl

theorem length_heard_log (t : Tracker α) (steps : List (Step α)) :
    (heard (t.log steps)).length = (steps.filterMap Step.way?).length := by
  induction steps generalizing t with
  | nil => rfl
  | cons x rest ih =>
      cases x with
      | hear id raw listener now => exact congrArg (· + 1) (ih (t.hear id raw listener now).2)
      | prune now => exact ih (t.prune now)

theorem map_fst_answers (t : Tracker α) (steps : List (Step α)) :
    (t.answers steps).map Prod.fst = steps.filterMap Step.way? :=
  List.map_fst_zip (Nat.le_of_eq (t.length_heard_log steps).symm)

theorem map_snd_answers (t : Tracker α) (steps : List (Step α)) :
    (t.answers steps).map Prod.snd = heard (t.log steps) :=
  List.map_snd_zip (Nat.le_of_eq (t.length_heard_log steps))

theorem map_fst_answersApart (t : Tracker α) (steps : List (Step α)) :
    (t.answersApart steps).map Prod.fst = waysApart steps := by
  rw [waysApart, ← t.map_fst_answers, List.filter_map]
  rfl

/-- Each sound is blurred about where it is heard, whatever was drawn before. -/
theorem answers_position (t : Tracker α) (steps : List (Step α)) :
    ∀ a ∈ t.answers steps, ∃ random : Random,
      a.2.position = (Cap.blur a.1.source a.1.listener t.config.blurAngle random).1 := by
  induction steps generalizing t with
  | nil => simp [answers]
  | cons x rest ih =>
      cases x with
      | hear id raw listener now =>
          rw [answers_hear]
          rintro a (_ | ⟨_, ha⟩)
          · exact ⟨t.random, rfl⟩
          · exact ih (t.hear id raw listener now).2 a ha
      | prune now => exact ih (t.prune now)

/-- Where a sound arose at the place of the listener, it is heard there. -/
theorem position_of_not_apart (t : Tracker α) (steps : List (Step α)) :
    ∀ a ∈ t.answers steps, a.1.apart = false → a.2.position = a.1.listener := by
  intro a ha hnear
  obtain ⟨random, hposition⟩ := t.answers_position steps a ha
  have hzero : (a.1.source.distance a.1.listener == 0) = true := by
    simpa [Way.apart] using hnear
  rw [hposition, Cap.blur_of_same_place hzero]

/-- Whatever came between, the `i`-th sound from elsewhere is blurred after `2 * i` draws. -/
theorem answersApart_getElem? (t : Tracker α) (steps : List (Step α)) (i : Nat) :
    ((t.answersApart steps)[i]?).map (·.2.position) =
      ((waysApart steps)[i]?).map fun way =>
        (Cap.blur way.source way.listener t.config.blurAngle (Random.step^[2 * i] t.random)).1 := by
  induction steps generalizing t i with
  | nil => rfl
  | cons x rest ih =>
      cases x with
      | prune now => exact ih (t.prune now) i
      | hear id raw listener now =>
          let way : Way α := ⟨raw.origin, listener⟩
          let t' := (t.hear id raw listener now).2
          cases hzero : (raw.origin.distance listener == 0) with
          | true =>
              have hapart : way.apart = false := by simp [way, Way.apart, hzero]
              have hrandom : t'.random = t.random :=
                congrArg Prod.snd (Cap.blur_of_same_place hzero t.config.blurAngle t.random)
              have hways : waysApart (.hear id raw listener now :: rest) = waysApart rest :=
                List.filter_cons_of_neg (by simp [way, hapart])
              have hanswers : t.answersApart (.hear id raw listener now :: rest) =
                  t'.answersApart rest := by
                rw [answersApart, answers_hear]
                exact List.filter_cons_of_neg (by simp [way, hapart])
              rw [hways, hanswers, ih, hrandom]
              rfl
          | false =>
              have hapart : way.apart = true := by simp [way, Way.apart, hzero]
              have hrandom : t'.random = Random.step^[2] t.random :=
                Cap.blur_random hzero t.config.blurAngle t.random
              have hways : waysApart (.hear id raw listener now :: rest) = way :: waysApart rest :=
                List.filter_cons_of_pos hapart
              have hanswers : t.answersApart (.hear id raw listener now :: rest) =
                  (way, (t.hear id raw listener now).1) :: t'.answersApart rest := by
                rw [answersApart, answers_hear]
                exact List.filter_cons_of_pos hapart
              rw [hways, hanswers]
              cases i with
              | zero => rfl
              | succ i =>
                  rw [List.getElem?_cons_succ, List.getElem?_cons_succ, ih, hrandom,
                    ← Function.iterate_add_apply]
                  rfl

end Tracker

/-- Trackers with the same seed and angle place the same sounds from elsewhere at the same points,
whatever else happens to each of them: the draws depend on the number of such sounds before. Sounds
at the place of the listener are heard there. -/
theorem run_places_by_seed {config config' : Config α}
    (hangle : config.blurAngle = config'.blurAngle) (seed : UInt64) {steps steps' : List (Step α)}
    (hways : waysApart steps = waysApart steps') :
    let t := Tracker.new config seed
    let t' := Tracker.new config' seed
    ((t.answersApart steps).map (·.2.position) = (t'.answersApart steps').map (·.2.position)) ∧
    ((t.answersApart steps).map Prod.fst = waysApart steps ∧
      (t'.answersApart steps').map Prod.fst = waysApart steps') ∧
    (∀ i : Nat, ((t.answersApart steps)[i]?).map (·.2.position) =
      ((waysApart steps)[i]?).map fun way =>
        (Cap.blur way.source way.listener config.withDefaults.blurAngle
          (Random.step^[2 * i] (Random.ofSeed seed))).1) ∧
    ((∀ a ∈ t.answers steps, a.1.apart = false → a.2.position = a.1.listener) ∧
      ∀ a ∈ t'.answers steps', a.1.apart = false → a.2.position = a.1.listener) := by
  intro t t'
  have hconfig : t.config.blurAngle = t'.config.blurAngle := by
    change (if config.blurAngle == 0 then _ else _) = (if config'.blurAngle == 0 then _ else _)
    rw [hangle]
  have hplaces : (t.answersApart steps).map (·.2.position) =
      (t'.answersApart steps').map (·.2.position) := by
    apply List.ext_getElem?
    intro i
    rw [List.getElem?_map, List.getElem?_map, t.answersApart_getElem?, t'.answersApart_getElem?,
      hways, hconfig]
    rfl
  exact ⟨hplaces, ⟨t.map_fst_answersApart steps, t'.map_fst_answersApart steps'⟩,
    t.answersApart_getElem? steps, t.position_of_not_apart steps, t'.position_of_not_apart steps'⟩

/-- A knock and a shout are placed alike by a tracker that hears nothing else, and by one that
forgets quickly, hears a step at its own feet between them, knows the two by other names and
hears them at other times. -/
theorem run_places_by_seed_knock :
    let sound := fun (id : Int) (x : Float) => (⟨id, id, "", ⟨x, 0, 0⟩⟩ : RawSound Float)
    let here : Vec Float := Vec.zero
    let steps : List (Step Float) :=
      [.hear ⟨1⟩ (sound 1 5) here ⟨0⟩, .hear ⟨2⟩ (sound 2 (-7)) here ⟨100⟩]
    let steps' : List (Step Float) :=
      [.prune ⟨3⟩, .hear ⟨4⟩ (sound 6 5) here ⟨9000⟩, .hear ⟨5⟩ (sound 3 0) here ⟨4⟩, .prune ⟨50000⟩,
        .hear ⟨6⟩ (sound 4 (-7)) here ⟨8⟩]
    let brief : Config Float := { (Config.standard : Config Float) with maxAge := 1000 }
    let t := Tracker.new Config.standard 7
    let t' := Tracker.new brief 7
    waysApart steps = waysApart steps' ∧ (waysApart steps).length = 2 ∧
    (t.answersApart steps).map (·.2.position) = (t'.answersApart steps').map (·.2.position) := by
  intro sound here steps steps' brief t t'
  have hways : waysApart steps = waysApart steps' := by decide +kernel
  exact ⟨hways, by decide +kernel, (run_places_by_seed rfl 7 hways).1⟩

end Hearing

end VoxelScout
