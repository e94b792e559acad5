import Mathlib.Data.List.DropRight
import VoxelScout.Proofs.Sight.Update

/-! # Beliefs and what was observed

A belief is made from the belief before it alone. Here it is compared with the whole
history of its player: the roster entries since the player was last missing from a
snapshot. The last entry decides what is believed, except that a player out of sight is
believed to be where an entry last told, and seen when one last was in plain sight.
-/

namespace VoxelScout.Sight

variable {α : Type}

/-! ## Sightings -/

/-- A roster entry of a player, how well the player was seen, and when. -/
structure Sighting (α : Type) where
  player : Player α
  visibility : Visibility
  time : Instant

namespace Sighting

def direct (e : Sighting α) : Bool :=
  e.visibility == .direct

/-- The entry tells where the player is: in plain sight, or by the name tag of a player
who stands behind cover. -/
def located (e : Sighting α) : Bool :=
  e.visibility == .direct || (e.visibility == .obstructed && !e.player.crouching)

theorem direct_iff {e : Sighting α} : e.direct = true ↔ e.visibility = .direct := by
  simp [direct]

theorem located_iff {e : Sighting α} : e.located = true ↔
    e.visibility = .direct ∨ e.visibility = .obstructed ∧ e.player.crouching = false := by
  simp [located]

end Sighting

open Tracker in
def sightings [Trig α] (config : Config α) (snapshot : Snapshot α) (id : PlayerId) :
    List (Sighting α) :=
  (entriesOf snapshot id).map fun p =>
    ⟨p, classify config snapshot.self p snapshot.world, snapshot.time⟩

open Tracker in
/-- The sightings of a player over the longest row of last snapshots in each of which the
player is present. -/
def history [Trig α] (config : Config α) (snapshots : List (Snapshot α)) (id : PlayerId) :
    List (Sighting α) :=
  (snapshots.rtakeWhile fun s => decide (id ∈ presentIds s)).flatMap fun s =>
    sightings config s id

/-- A belief says what a history of sightings, the last of which is `last`, amounts to. -/
structure Recounts [Scalar α] (h : List (Sighting α)) (last : Sighting α) (b : Belief α) :
    Prop where
  id : b.id = last.player.id
  name : b.name = last.player.name
  visibility : b.visibility = last.visibility
  inLineOfSight : b.inLineOfSight = true ↔ last.visibility = .direct
  lastSeen : b.lastSeen = ((h.findRev? Sighting.direct).map (·.time)).getD Instant.unset
  inSight : last.visibility = .direct →
    b.position = some last.player.position ∧ b.velocity = some last.player.velocity ∧
    b.heldItem = last.player.heldItem ∧
    b.armor = ⟨last.player.head, last.player.torso, last.player.legs, last.player.feet⟩ ∧
    b.crouching = Tri.ofBool last.player.crouching ∧
    b.sprinting = Tri.ofBool last.player.sprinting ∧
    b.onFire = Tri.ofBool last.player.onFire ∧ b.health = Health.ofPoints last.player.health
  outOfSight : last.visibility ≠ .direct →
    b.heldItem = none ∧ b.armor = ⟨none, none, none, none⟩ ∧ b.crouching = .unknown ∧
    b.sprinting = .unknown ∧ b.onFire = .unknown ∧ b.health = .unknown ∧
    b.position = (h.findRev? Sighting.located).map (·.player.position) ∧
    b.velocity = if last.located then some last.player.velocity
      else b.position.map fun _ => Vec.zero

/-- No belief recounts the empty history, and a belief recounts any other. -/
def Recounted [Scalar α] (h : List (Sighting α)) : Option (Belief α) → Prop
  | none => h = []
  | some b => ∃ last, h.getLast? = some last ∧ Recounts h last b

/-! ## One more sighting -/

theorem findRev?_concat (p : Sighting α → Bool) (h : List (Sighting α)) (e : Sighting α) :
    (h ++ [e]).findRev? p = if p e then some e else h.findRev? p := by
  simp only [List.findRev?_eq_find?_reverse, List.reverse_append, List.reverse_singleton,
    List.singleton_append, List.find?_cons]
  cases p e <;> rfl

theorem Recounted.position [Scalar α] {h : List (Sighting α)} {previous : Option (Belief α)}
    (hp : Recounted h previous) :
    previous.bind (·.position) = (h.findRev? Sighting.located).map (·.player.position) := by
  cases previous with
  | none =>
      have hnil : h = [] := hp
      subst hnil
      rfl
  | some b =>
      obtain ⟨last, hlast, hb⟩ := hp
      obtain ⟨earlier, rfl⟩ := List.getLast?_eq_some_iff.mp hlast
      by_cases hdirect : last.visibility = .direct
      · rw [findRev?_concat, if_pos (Sighting.located_iff.mpr (.inl hdirect))]
        exact (hb.inSight hdirect).1
      · exact (hb.outOfSight hdirect).2.2.2.2.2.2.1

theorem Recounted.lastSeen [Scalar α] {h : List (Sighting α)} {previous : Option (Belief α)}
    (hp : Recounted h previous) :
    (previous.map (·.lastSeen)).getD Instant.unset =
      ((h.findRev? Sighting.direct).map (·.time)).getD Instant.unset := by
  cases previous with
  | none =>
      have hnil : h = [] := hp
      subst hnil
      rfl
  | some b =>
      obtain ⟨last, _, hb⟩ := hp
      exact hb.lastSeen

/-- The step of the whole development: observing an entry over a belief that recounts a
history recounts the history with that entry. -/
theorem Recounted.observe [Scalar α] {h : List (Sighting α)} {previous : Option (Belief α)}
    (hp : Recounted h previous) (e : Sighting α) :
    Recounts (h ++ [e]) e (Belief.observe e.player e.visibility previous e.time) := by
  obtain ⟨player, visibility, time⟩ := e
  by_cases hdirect : visibility = .direct
  · subst hdirect
    rw [Belief.observe_direct]
    refine ⟨rfl, rfl, rfl, by simp, ?_, ?_, fun hne => absurd rfl hne⟩
    · rw [findRev?_concat, if_pos (Sighting.direct_iff.mpr rfl)]
      rfl
    · intro _
      exact ⟨rfl, rfl, rfl, rfl, rfl, rfl, rfl, rfl⟩
  have hnot : ¬Sighting.direct ⟨player, visibility, time⟩ = true :=
    mt Sighting.direct_iff.mp hdirect
  by_cases hstands : visibility = .obstructed ∧ player.crouching = false
  · have hlocated : Sighting.located ⟨player, visibility, time⟩ = true :=
      Sighting.located_iff.mpr (.inr hstands)
    obtain ⟨rfl, hcrouch⟩ := hstands
    rw [Belief.observe_standing hcrouch, hp.lastSeen]
    refine ⟨rfl, rfl, rfl, by simp, ?_, fun h => absurd h hdirect, ?_⟩
    · rw [findRev?_concat, if_neg hnot]
    · intro _
      rw [findRev?_concat, if_pos hlocated, if_pos hlocated]
      exact ⟨rfl, rfl, rfl, rfl, rfl, rfl, rfl, rfl⟩
  · have hlocated : ¬Sighting.located ⟨player, visibility, time⟩ = true :=
      mt Sighting.located_iff.mp (not_or.mpr ⟨hdirect, hstands⟩)
    rw [Belief.observe_hidden hdirect hstands, hp.lastSeen, hp.position]
    refine ⟨rfl, rfl, rfl, by simp [hdirect], ?_, fun h => absurd h hdirect, ?_⟩
    · rw [findRev?_concat, if_neg hnot]
    · intro _
      rw [findRev?_concat, if_neg hlocated, if_neg hlocated]
      exact ⟨rfl, rfl, rfl, rfl, rfl, rfl, rfl, rfl⟩

/-! ## One more snapshot -/

section Observation

variable [Trig α]

open Tracker

/-- Several entries of one snapshot lengthen the history one by one. -/
theorem Recounted.renew {h : List (Sighting α)} {previous : Option (Belief α)}
    (hp : Recounted h previous) (config : Config α) (snapshot : Snapshot α)
    (entries : List (Player α)) :
    Recounted (h ++ entries.map fun p =>
        ⟨p, classify config snapshot.self p snapshot.world, snapshot.time⟩)
      (Tracker.renew config snapshot snapshot.time previous entries) := by
  induction entries generalizing h previous with
  | nil => simpa [Tracker.renew] using hp
  | cons p entries ih =>
      let e : Sighting α := ⟨p, classify config snapshot.self p snapshot.world, snapshot.time⟩
      have hnext : Recounted (h ++ [e])
          (some (Belief.observe e.player e.visibility previous e.time)) :=
        ⟨e, by simp, hp.observe e⟩
      have hrest := ih hnext
      rw [List.append_assoc, List.singleton_append] at hrest
      exact hrest

theorem history_concat (config : Config α) (snapshots : List (Snapshot α)) (s : Snapshot α)
    (id : PlayerId) :
    history config (snapshots ++ [s]) id =
      if entriesOf s id = [] then [] else history config snapshots id ++ sightings config s id := by
  unfold history
  rw [List.rtakeWhile_concat]
  simp only [decide_eq_true_eq, mem_presentIds, ne_eq, ite_not]
  split
  · rfl
  · rw [List.flatMap_append, List.flatMap_singleton]

/-- A tracked player is present in the last snapshot, so an empty history means an empty
row of snapshots or a player who is missing from the last one. -/
theorem run_recounted (config : Config α) (seen : List (Snapshot α × Instant))
    (timed : ∀ s ∈ seen, s.1.time ≠ Instant.unset) (id : PlayerId) :
    Recounted (history config.withDefaults (seen.map (·.1)) id)
      (((new config).run seen).player? id) := by
  induction seen using List.reverseRecOn with
  | nil => simp [run, new, player?, Recounted, history]
  | append_singleton seen s ih =>
      have hbefore := ih fun s' hs' => timed s' (List.mem_append_left [s] hs')
      have hstep : InStep ((new config).run seen) := (InStep.new config).run seen
      have hnow : s.1.time ≠ Instant.unset := timed s (by simp)
      rw [run_concat, hstep.update_player?, List.map_append, List.map_singleton,
        history_concat, Instant.orElse_of_ne hnow, run_config]
      split
      · rfl
      · exact hbefore.renew config.withDefaults s.1 (entriesOf s.1 id)

end Observation

/-! ## Beliefs from histories -/

/-- A history leaves nothing of a belief open. -/
theorem Recounts.unique [Scalar α] {h : List (Sighting α)} {last : Sighting α}
    {b b' : Belief α} (hb : Recounts h last b) (hb' : Recounts h last b') : b = b' := by
  have hsight : b.inLineOfSight = b'.inLineOfSight := by
    rw [Bool.eq_iff_iff, hb.inLineOfSight, hb'.inLineOfSight]
  have hid := hb.id.trans hb'.id.symm
  have hname := hb.name.trans hb'.name.symm
  have hvisibility := hb.visibility.trans hb'.visibility.symm
  have hseen := hb.lastSeen.trans hb'.lastSeen.symm
  cases b
  cases b'
  by_cases hdirect : last.visibility = .direct
  · have h₁ := hb.inSight hdirect
    have h₂ := hb'.inSight hdirect
    simp_all
  · have h₁ := hb.outOfSight hdirect
    have h₂ := hb'.outOfSight hdirect
    simp_all

/-- After every run of updates at given times, a belief is held about a player exactly
when it recounts the history of that player. -/
theorem run_player?_eq_some_iff_recounts [Trig α] (config : Config α)
    (seen : List (Snapshot α × Instant)) (timed : ∀ s ∈ seen, s.1.time ≠ Instant.unset)
    (id : PlayerId) (b : Belief α) :
    ((Tracker.new config).run seen).player? id = some b ↔
      ∃ last, (history config.withDefaults (seen.map (·.1)) id).getLast? = some last ∧
        Recounts (history config.withDefaults (seen.map (·.1)) id) last b := by
  have hrun := run_recounted config seen timed id
  constructor
  · intro hb
    rw [hb] at hrun
    exact hrun
  · rintro ⟨last, hlast, hb⟩
    cases hheld : ((Tracker.new config).run seen).player? id with
    | none =>
        rw [hheld] at hrun
        have hnil : history config.withDefaults (seen.map (·.1)) id = [] := hrun
        rw [hnil] at hlast
        cases hlast
    | some b' =>
        rw [hheld] at hrun
        obtain ⟨last', hlast', hb'⟩ := hrun
        obtain rfl : last' = last := Option.some.inj (hlast'.symm.trans hlast)
        rw [hb'.unique hb]

/-! ## A player who takes cover -/

theorem entriesOf_glimpse (time : Instant) (world : World Float) {p : Player Float}
    (hid : p.id = ⟨7⟩) : Tracker.entriesOf (glimpse time world p) ⟨7⟩ = [p] := by
  simp [Tracker.entriesOf, Tracker.present, ignored, glimpse, Pose.initial, hid, PlayerId.nil]

/-- Seen sprinting in the open and then crouching behind a wall, the player is believed to
rest where the first glimpse showed, last seen at its time. -/
theorem run_player?_passerby :
    let seen := [(glimpse ⟨5⟩ World.empty (passerby 8 ⟨1, 0, 0⟩), Instant.unset),
      (glimpse ⟨6⟩ walled (passerby 2 ⟨0, 0, 3⟩), Instant.unset)]
    (∀ s ∈ seen, s.1.time ≠ Instant.unset) ∧
      ((Tracker.new ⟨10, 360⟩).run seen).player? ⟨7⟩ =
        some { id := ⟨7⟩, name := "Kim", visibility := .obstructed, position := some Vec.zero,
               velocity := some Vec.zero, lastSeen := ⟨5⟩ } := by
  intro seen
  have htimed : ∀ s ∈ seen, s.1.time ≠ Instant.unset := by
    simp [seen, glimpse, Instant.unset]
  have hhistory : history (Config.withDefaults ⟨10, 360⟩) (seen.map (·.1)) ⟨7⟩ =
      [⟨passerby 8 ⟨1, 0, 0⟩, .direct, ⟨5⟩⟩, ⟨passerby 2 ⟨0, 0, 3⟩, .obstructed, ⟨6⟩⟩] := by
    have hopen : classify (Config.withDefaults ⟨10, 360⟩)
        { (Pose.initial : Pose Float) with height := 1 } (passerby 8 ⟨1, 0, 0⟩) World.empty =
          .direct := by
      decide +kernel
    have hcovered : classify (Config.withDefaults ⟨10, 360⟩)
        { (Pose.initial : Pose Float) with height := 1 } (passerby 2 ⟨0, 0, 3⟩) walled =
          .obstructed := by
      decide +kernel
    have hsplit : seen.map (·.1) = [] ++ [glimpse ⟨5⟩ World.empty (passerby 8 ⟨1, 0, 0⟩)] ++
        [glimpse ⟨6⟩ walled (passerby 2 ⟨0, 0, 3⟩)] := rfl
    rw [hsplit, history_concat, history_concat, entriesOf_glimpse _ _ rfl,
      entriesOf_glimpse _ _ rfl]
    simp only [sightings, entriesOf_glimpse _ _ (p := passerby _ _) rfl]
    simp [history, glimpse, hopen, hcovered]
  refine ⟨htimed, (run_player?_eq_some_iff_recounts ⟨10, 360⟩ seen htimed ⟨7⟩ _).mpr ?_⟩
  rw [hhistory]
  refine ⟨_, rfl, rfl, rfl, rfl, by simp, rfl, fun h => by simp at h, fun _ => ?_⟩
  exact ⟨rfl, rfl, rfl, rfl, rfl, rfl, rfl, rfl⟩

end VoxelScout.Sight
