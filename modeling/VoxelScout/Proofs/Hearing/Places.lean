import VoxelScout.Agent
import VoxelScout.Proofs.Geometry.Blur
import VoxelScout.Proofs.Hearing.Draws

/-! # Where sounds are placed

The sounds that an agent remembers are those its connections brought, blurred about the places
where it stood when it heard them. Between moderate places such a position is finite, unless
the two are so close to each other that the reciprocal of the distance overflows.
-/

namespace VoxelScout

namespace Hearing

structure Way.Moderate (way : Way Float) : Prop where
  source : way.source.Moderate
  listener : way.listener.Moderate

/-- Both ends of the way are the same, or so far apart that the reciprocal of their distance is
finite. -/
def Way.Resolved (way : Way Float) : Prop :=
  way.source.Resolved way.listener

instance (way : Way Float) : Decidable way.Moderate :=
  decidable_of_iff (way.source.Moderate ∧ way.listener.Moderate)
    ⟨fun h => ⟨h.1, h.2⟩, fun h => ⟨h.source, h.listener⟩⟩

instance (way : Way Float) : Decidable way.Resolved :=
  inferInstanceAs (Decidable (way.source.Resolved way.listener))

/-- A sound between moderate places is placed at a finite position exactly where its own way is
resolved. -/
theorem Tracker.answers_isFinite_iff (t : Tracker Float) {steps : List (Step Float)}
    (hangle : (Trig.radians t.config.blurAngle).isFinite = true)
    (hways : ∀ way ∈ steps.filterMap Step.way?, way.Moderate) :
    ∀ a ∈ t.answers steps, (a.2.position.isFinite = true ↔ a.1.Resolved) := by
  intro a ha
  obtain ⟨random, hposition⟩ := t.answers_position steps a ha
  have hway : a.1 ∈ steps.filterMap Step.way? := by
    rw [← t.map_fst_answers]
    exact List.mem_map_of_mem ha
  obtain ⟨hsource, hlistener⟩ := hways a.1 hway
  rw [hposition]
  exact blur_isFinite_iff hsource hlistener hangle random

/-- What a new tracker remembers are answers to sounds, each with the position it was given. -/
theorem Tracker.exists_answer_of_mem_events {α : Type} [Trig α] (config : Config α)
    (seed : UInt64) {steps : List (Step α)} {e : Event α}
    (he : e ∈ ((Tracker.new config seed).run steps).events) :
    ∃ way ∈ steps.filterMap Step.way?, (way, e) ∈ (Tracker.new config seed).answers steps := by
  rw [(Recalls.run config seed steps).events] at he
  have hheard := (spared_sublist _ _).subset he
  rw [← map_snd_answers, List.mem_map] at hheard
  obtain ⟨a, ha, rfl⟩ := hheard
  refine ⟨a.1, ?_, ha⟩
  rw [← (Tracker.new config seed).map_fst_answers]
  exact List.mem_map_of_mem ha

/-- The sounds that a new tracker remembers have finite positions exactly where their ways are
resolved. -/
theorem Tracker.run_isFinite_iff (config : Config Float) (seed : UInt64)
    {steps : List (Step Float)}
    (hangle : (Trig.radians config.withDefaults.blurAngle).isFinite = true)
    (hways : ∀ way ∈ steps.filterMap Step.way?, way.Moderate) {e : Event Float}
    (he : e ∈ ((Tracker.new config seed).run steps).events) :
    ∃ way ∈ steps.filterMap Step.way?, (e.position.isFinite = true ↔ way.Resolved) := by
  obtain ⟨way, hway, hanswer⟩ := exists_answer_of_mem_events config seed he
  exact ⟨way, hway, (new config seed).answers_isFinite_iff hangle hways (way, e) hanswer⟩

end Hearing

/-! ## Agents -/

namespace Agent

/-- What happens to an agent: a connection opens or closes, a frame arrives on one, or old sounds
are dropped. A frame with a sound makes an event of the given name. -/
inductive Step where
  | connect (session : PlayerId) (connection : String) (now : Instant)
  | disconnect (connection : String)
  | receive (id : PlayerId) (connection : String) (frame : List UInt8) (now sent : Instant)
  | prune (now : Instant)

theorem hearing_refreshTerrain (a : Agent) : a.refreshTerrain.bot.hearing = a.bot.hearing := by
  unfold refreshTerrain Bot.withTerrain
  dsimp only
  split <;> rfl

variable [Json.Diagnostics]

def step (a : Agent) : Step → Agent
  | .connect session connection now =>
    match a.line.connect session connection now with
    | .ok line => { a with line }
    | .error _ => a
  | .disconnect connection => { a with line := a.line.disconnect connection }
  | .receive id connection frame now sent => a.receive id connection frame now sent
  | .prune now => { a with bot := a.bot.prune now }

def run (a : Agent) (steps : List Step) : Agent :=
  steps.foldl step a

/-- What a step is to the tracker of sounds: a frame may bring a sound, which is heard from where
the bot stands. -/
def sounds (a : Agent) : Step → List (Hearing.Step Float)
  | .receive id connection frame now sent =>
    match (a.line.receive connection frame now.toMilliseconds sent.toMilliseconds).1 with
    | some (.sound raw) =>
      if a.listening then [.hear id raw a.bot.self.position now] else []
    | _ => []
  | .prune now => [.prune now]
  | _ => []

def soundsOf : Agent → List Step → List (Hearing.Step Float)
  | _, [] => []
  | a, x :: rest => a.sounds x ++ (a.step x).soundsOf rest

theorem hearing_step (a : Agent) (x : Step) :
    (a.step x).bot.hearing = a.bot.hearing.run (a.sounds x) := by
  cases x with
  | prune now => rfl
  | disconnect connection => rfl
  | connect session connection now =>
      unfold step
      dsimp only
      split <;> rfl
  | receive id connection frame now sent =>
      simp only [step, receive, sounds]
      rw [hearing_refreshTerrain]
      cases hreceived :
          a.line.receive connection frame now.toMilliseconds sent.toMilliseconds with
      | mk observation line =>
          unfold observe
          dsimp only
          cases hlistening : a.listening with
          | false =>
              cases observation with
              | none => rfl
              | some o => cases o <;> rfl
          | true =>
              cases observation with
              | none => rfl
              | some o => cases o <;> rfl

theorem hearing_run (a : Agent) (steps : List Step) :
    (a.run steps).bot.hearing = a.bot.hearing.run (a.soundsOf steps) := by
  induction steps generalizing a with
  | nil => rfl
  | cons x rest ih =>
      have hrest := ih (a.step x)
      rw [hearing_step] at hrest
      have happend : a.bot.hearing.run (a.soundsOf (x :: rest)) =
          (a.bot.hearing.run (a.sounds x)).run ((a.step x).soundsOf rest) := List.foldl_append
      rw [happend]
      exact hrest

end Agent

end VoxelScout
