import Mathlib.Data.List.Forall2
import VoxelScout.Proofs.Sight.Update

/-! # Fog of war

Two runs of the tracker are compared. Their snapshots have to agree on what a bot may
know: who is listed under which name, how well each player is seen, everything about
players in plain sight up to the measure of their health, and the whereabouts of players
who stand behind cover. Nothing else reaches an answer of the tracker.
-/

namespace VoxelScout.Sight

variable {α : Type}

open Tracker

/-! ## Trackers that answer alike -/

/-- Two trackers in step that hold the same beliefs in the same order. -/
structure Agree (t u : Tracker α) : Prop where
  left : InStep t
  right : InStep u
  config : t.config = u.config
  position : t.position = u.position
  order : t.order.toList = u.order.toList
  player? : ∀ id, t.player? id = u.player? id

theorem Agree.refl {t : Tracker α} (h : InStep t) : Agree t t :=
  ⟨h, h, rfl, rfl, rfl, fun _ => rfl⟩

theorem Agree.beliefs {t u : Tracker α} (h : Agree t u) : t.beliefs = u.beliefs := by
  unfold Tracker.beliefs
  rw [h.order, funext h.player?]

theorem Agree.size {t u : Tracker α} (h : Agree t u) : t.size = u.size := by
  have hlen := congrArg List.length h.order
  simpa [Tracker.size] using hlen

variable [Trig α]

theorem Agree.nearest? {t u : Tracker α} (h : Agree t u) : t.nearest? = u.nearest? := by
  unfold Tracker.nearest?
  rw [h.beliefs, h.position]

/-! ## What a bot may know -/

/-- Two roster entries, each in its own snapshot, that a bot cannot tell apart. -/
structure LookAlike (config : Config α) (s s' : Snapshot α) (p p' : Player α) : Prop where
  id : p.id = p'.id
  name : p.name = p'.name
  visibility : classify config s.self p s.world = classify config s'.self p' s'.world
  inSight : classify config s.self p s.world = .direct →
    p.position = p'.position ∧ p.velocity = p'.velocity ∧ p.heldItem = p'.heldItem ∧
    (p.head = p'.head ∧ p.torso = p'.torso ∧ p.legs = p'.legs ∧ p.feet = p'.feet) ∧
    p.crouching = p'.crouching ∧ p.sprinting = p'.sprinting ∧ p.onFire = p'.onFire ∧
    Health.ofPoints p.health = Health.ofPoints p'.health
  behindCover : classify config s.self p s.world = .obstructed →
    p.crouching = p'.crouching ∧
      (p.crouching = false → p.position = p'.position ∧ p.velocity = p'.velocity)

/-- Two snapshots at the same given time and of the same bot, with rosters that look alike
entry by entry. -/
structure Indistinct (config : Config α) (s s' : Snapshot α) : Prop where
  time : s.time = s'.time
  timed : s.time ≠ Instant.unset
  self : s.self = s'.self
  players : List.Forall₂ (LookAlike config s s') s.players s'.players

/-- An observation reads nothing of an entry but what a bot may know. -/
theorem LookAlike.observe {config : Config α} {s s' : Snapshot α} {p p' : Player α}
    (h : LookAlike config s s' p p') (previous : Option (Belief α)) (now : Instant) :
    Belief.observe p (classify config s.self p s.world) previous now =
      Belief.observe p' (classify config s'.self p' s'.world) previous now := by
  rw [← h.visibility]
  cases hv : classify config s.self p s.world with
  | direct =>
      obtain ⟨hposition, hvelocity, hheld, ⟨hhead, htorso, hlegs, hfeet⟩, hcrouch, hsprint,
        hfire, hhealth⟩ := h.inSight hv
      rw [Belief.observe_direct, Belief.observe_direct, h.id, h.name, hposition, hvelocity,
        hheld, hhead, htorso, hlegs, hfeet, hcrouch, hsprint, hfire, hhealth]
  | obstructed =>
      obtain ⟨hcrouch, hstands⟩ := h.behindCover hv
      cases hc : p.crouching with
      | false =>
          obtain ⟨hposition, hvelocity⟩ := hstands hc
          rw [Belief.observe_standing hc, Belief.observe_standing (hcrouch ▸ hc), h.id, h.name,
            hposition, hvelocity]
      | true =>
          have hc' : p'.crouching = true := hcrouch ▸ hc
          rw [Belief.observe_hidden (by simp) (by simp [hc]),
            Belief.observe_hidden (by simp) (by simp [hc']), h.id, h.name]
  | outOfView =>
      rw [Belief.observe_hidden (by simp) (by simp), Belief.observe_hidden (by simp) (by simp),
        h.id, h.name]

/-! ## One roster -/

theorem renew_congr {config : Config α} {s s' : Snapshot α} {entries entries' : List (Player α)}
    (h : List.Forall₂ (LookAlike config s s') entries entries')
    (previous : Option (Belief α)) (now : Instant) :
    renew config s now previous entries = renew config s' now previous entries' := by
  induction h generalizing previous with
  | nil => rfl
  | cons hp _ ih =>
      unfold renew
      rw [List.foldl_cons, List.foldl_cons, hp.observe]
      exact ih _

/-- The same entries are ignored on both sides. -/
theorem Indistinct.forall₂_present {config : Config α} {s s' : Snapshot α}
    (h : Indistinct config s s') :
    List.Forall₂ (LookAlike config s s') (present s) (present s') := by
  refine List.rel_filter ?_ h.players
  intro p p' hp
  simp [ignored, hp.id, hp.name, h.self]

theorem Indistinct.forall₂_entriesOf {config : Config α} {s s' : Snapshot α}
    (h : Indistinct config s s') (id : PlayerId) :
    List.Forall₂ (LookAlike config s s') (entriesOf s id) (entriesOf s' id) := by
  refine List.rel_filter ?_ h.forall₂_present
  intro p p' hp
  simp [hp.id]

theorem Indistinct.presentIds_eq {config : Config α} {s s' : Snapshot α}
    (h : Indistinct config s s') : presentIds s = presentIds s' := by
  have hids : List.Forall₂ (· = ·) (presentIds s) (presentIds s') :=
    List.rel_map (fun _ _ hp => hp.id) h.forall₂_present
  rwa [List.forall₂_eq_eq_eq] at hids

/-! ## Runs -/

/-- The clocks do not matter where the snapshots say the time. -/
theorem Agree.update {t u : Tracker α} (h : Agree t u) {s s' : Snapshot α}
    (hs : Indistinct t.config s s') (clock clock' : Instant) :
    Agree (t.update s clock) (u.update s' clock') where
  left := h.left.update s clock
  right := h.right.update s' clock'
  config := by rw [update_config, update_config, h.config]
  position := congrArg Pose.position hs.self
  order := by rw [h.left.update_order, h.right.update_order, h.order, hs.presentIds_eq]
  player? id := by
    have hentries := hs.forall₂_entriesOf id
    have hempty : entriesOf s id = [] ↔ entriesOf s' id = [] := by
      rw [← List.length_eq_zero_iff, ← List.length_eq_zero_iff, hentries.length_eq]
    rw [h.left.update_player?, h.right.update_player?, ← hs.time,
      Instant.orElse_of_ne hs.timed, Instant.orElse_of_ne hs.timed, ← h.config, ← h.player?,
      renew_congr hentries]
    simp only [hempty]

theorem Agree.run {config : Config α} {t u : Tracker α} (h : Agree t u)
    (hconfig : t.config = config) {seen seen' : List (Snapshot α × Instant)}
    (hseen : List.Forall₂ (fun s s' => Indistinct config s.1 s'.1) seen seen') :
    Agree (t.run seen) (u.run seen') := by
  induction hseen generalizing t u with
  | nil => exact h
  | @cons s s' seen seen' hs _ ih =>
      have hnext : Agree (t.update s.1 s.2) (u.update s'.1 s'.2) :=
        h.update (hconfig ▸ hs) s.2 s'.2
      exact ih hnext (by rw [update_config, hconfig])

/-- After runs over snapshots that a bot cannot tell apart, two trackers of the same
settings give the same answers. -/
theorem run_answers_of_indistinct (config : Config α)
    {seen seen' : List (Snapshot α × Instant)}
    (hseen : List.Forall₂ (fun s s' => Indistinct config.withDefaults s.1 s'.1) seen seen') :
    let t := (Tracker.new config).run seen
    let u := (Tracker.new config).run seen'
    t.beliefs = u.beliefs ∧ t.size = u.size ∧ t.nearest? = u.nearest? ∧
      ∀ id, t.player? id = u.player? id := by
  have h : Agree ((Tracker.new config).run seen) ((Tracker.new config).run seen') :=
    (Agree.refl (InStep.new config)).run rfl hseen
  exact ⟨h.beliefs, h.size, h.nearest?, h.player?⟩

/-! ## A player behind a wall -/

/-- Neither the points within a measure of health nor where a player crouches behind the
wall, and with what, makes a difference. -/
theorem run_answers_passerby :
    let seen := [(glimpse ⟨5⟩ World.empty { passerby 8 Vec.zero with health := some 19 },
        Instant.unset),
      (glimpse ⟨6⟩ walled (passerby 2 Vec.zero), Instant.unset)]
    let seen' := [(glimpse ⟨5⟩ World.empty { passerby 12 Vec.zero with health := some 17 },
        Instant.unset),
      (glimpse ⟨6⟩ walled { passerby 3 ⟨0, 1, 0⟩ with
        position := ⟨3, 0, 0⟩, heldItem := some { name := "bow" }, health := some 1 },
        Instant.unset)]
    List.Forall₂ (fun s s' => Indistinct (Config.withDefaults ⟨10, 360⟩) s.1 s'.1) seen seen' ∧
      ((Tracker.new ⟨10, 360⟩).run seen).player? ⟨7⟩ =
        ((Tracker.new ⟨10, 360⟩).run seen').player? ⟨7⟩ := by
  intro seen seen'
  have hseen : List.Forall₂ (fun s s' => Indistinct (Config.withDefaults ⟨10, 360⟩) s.1 s'.1)
      seen seen' := by
    refine .cons ⟨rfl, by decide, rfl, .cons ?_ .nil⟩
      (.cons ⟨rfl, by decide, rfl, .cons ?_ .nil⟩ .nil)
    · refine ⟨rfl, rfl, by decide +kernel, ?_, ?_⟩
      · intro _
        exact ⟨rfl, rfl, rfl, ⟨rfl, rfl, rfl, rfl⟩, by decide, by decide, by decide,
          by decide +kernel⟩
      · intro h
        revert h
        decide +kernel
    · refine ⟨rfl, rfl, by decide +kernel, ?_, ?_⟩
      · intro h
        revert h
        decide +kernel
      · intro _
        exact ⟨by decide, fun h => absurd h (by decide)⟩
  exact ⟨hseen, (run_answers_of_indistinct ⟨10, 360⟩ hseen).2.2.2 ⟨7⟩⟩

end VoxelScout.Sight
