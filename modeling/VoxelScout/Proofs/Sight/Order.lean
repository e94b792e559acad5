import VoxelScout.Proofs.Sight.Update

/-! # Who is tracked, and in which order

The tracked players are those of the last roster, first seen first. A player who is
missing from one roster is forgotten altogether: whatever was believed before, the tracker
goes on as if it had never seen the player.
-/

namespace VoxelScout.Sight.Tracker

variable {α : Type}

/-! ## The roster that counts -/

theorem ignored_eq_false_iff (self : Pose α) (p : Player α) :
    ignored self p = false ↔ p.id ≠ PlayerId.nil ∧ p.id ≠ self.id ∧
      ¬(self.name ≠ "" ∧ p.name = self.name) := by
  simp [ignored, and_assoc]

theorem mem_presentIds_iff {snapshot : Snapshot α} {id : PlayerId} :
    id ∈ presentIds snapshot ↔ ∃ p ∈ snapshot.players, p.id = id ∧ p.id ≠ PlayerId.nil ∧
      p.id ≠ snapshot.self.id ∧ ¬(snapshot.self.name ≠ "" ∧ p.name = snapshot.self.name) := by
  unfold presentIds present
  rw [List.mem_map]
  constructor
  · rintro ⟨p, hp, hid⟩
    obtain ⟨hmem, hkept⟩ := List.mem_filter.mp hp
    exact ⟨p, hmem, hid, (ignored_eq_false_iff snapshot.self p).mp (by simpa using hkept)⟩
  · rintro ⟨p, hmem, hid, hkept⟩
    have hkept' := (ignored_eq_false_iff snapshot.self p).mpr hkept
    exact ⟨p, List.mem_filter.mpr ⟨hmem, by simp [hkept']⟩, hid⟩

/-! ## Listing the beliefs -/

/-- Nobody in the order is without a belief, so the list of beliefs has no gaps. -/
theorem InStep.map_some_beliefs {t : Tracker α} (h : InStep t) :
    t.beliefs.map some = t.order.toList.map t.player? := by
  have hall : ∀ id ∈ t.order.toList, (t.player? id).isSome :=
    fun id hid => (h.isSome_iff id).mpr hid
  unfold beliefs
  generalize t.order.toList = ids at hall
  induction ids with
  | nil => rfl
  | cons id ids ih =>
      obtain ⟨b, hb⟩ := Option.isSome_iff_exists.mp (hall id List.mem_cons_self)
      have hrest := ih fun other hother => hall other (List.mem_cons_of_mem id hother)
      rw [List.filterMap_cons_some hb, List.map_cons, List.map_cons, hrest, hb]

theorem InStep.size_eq_length_beliefs {t : Tracker α} (h : InStep t) :
    t.size = t.beliefs.length := by
  have hlen := congrArg List.length h.map_some_beliefs
  simpa [size] using hlen.symm

section Observation

variable [Trig α]

/-! ## Presence after one update -/

theorem InStep.mem_update_order {t : Tracker α} (h : InStep t) (snapshot : Snapshot α)
    (clock : Instant) (id : PlayerId) :
    id ∈ (t.update snapshot clock).order ↔ id ∈ presentIds snapshot := by
  rw [← Array.mem_toList_iff, h.update_order, List.mem_append, List.mem_eraseDups,
    List.mem_filter, List.mem_filter]
  by_cases hid : id ∈ t.order.toList <;> simp [hid]

/-- Who comes to be tracked by an update stands behind everybody who was tracked before. -/
theorem InStep.newcomer_behind {t : Tracker α} (h : InStep t) (snapshot : Snapshot α)
    (clock : Instant) {id : PlayerId} (hnew : id ∉ t.order) (hhere : id ∈ presentIds snapshot) :
    ∃ newcomers, (t.update snapshot clock).order.toList =
        (t.order.toList.filter fun other => other ∈ presentIds snapshot) ++ newcomers ∧
      id ∈ newcomers := by
  refine ⟨_, h.update_order snapshot clock, ?_⟩
  rw [List.mem_eraseDups, List.mem_filter]
  exact ⟨hhere, by simpa using hnew⟩

/-! ## Forgetting -/

/-- What a run makes of one player depends on the tracker only through the belief about
that player. -/
theorem run_player?_congr {t u : Tracker α} (ht : InStep t) (hu : InStep u)
    (hconfig : t.config = u.config) {id : PlayerId} (hid : t.player? id = u.player? id)
    (seen : List (Snapshot α × Instant)) : (t.run seen).player? id = (u.run seen).player? id := by
  induction seen generalizing t u with
  | nil => exact hid
  | cons s seen ih =>
      have hnext : (t.update s.1 s.2).player? id = (u.update s.1 s.2).player? id := by
        rw [ht.update_player?, hu.update_player?, hconfig, hid]
      rw [run_cons, run_cons]
      exact ih (ht.update s.1 s.2) (hu.update s.1 s.2)
        (by rw [update_config, update_config, hconfig]) hnext

/-- A player missing from one snapshot is to the tracker as one never seen. -/
theorem run_player?_of_gap (config : Config α) (before after : List (Snapshot α × Instant))
    (gap : Snapshot α × Instant) {id : PlayerId} (hgap : id ∉ presentIds gap.1) :
    ((new config).run (before ++ gap :: after)).player? id =
      ((new config).run after).player? id := by
  have hbefore : InStep ((new config).run before) := (InStep.new config).run before
  have hnone : (((new config).run before).update gap.1 gap.2).player? id = none := by
    rw [hbefore.update_player?, if_pos (not_not.mp (mt mem_presentIds.mpr hgap))]
  rw [run_append, run_cons]
  apply run_player?_congr (hbefore.update gap.1 gap.2) (InStep.new config)
  · rw [update_config, run_config]
  · rw [hnone]
    simp [new, player?]

/-! ## The whole run -/

/-- Along every run the order lists the tracked players of the last roster once each. An update
keeps the order of those who stay and appends the others as the roster names them; who was missing
from a snapshot comes back as one never seen. -/
theorem run_tracks_last_roster (config : Config α) (seen : List (Snapshot α × Instant)) :
    let t := (new config).run seen
    (t.order.toList.Nodup ∧ (∀ id, id ∈ t.order ↔ id ∈ t.players) ∧
      ∀ (id : PlayerId) (b : Belief α), t.players[id]? = some b → b.id = id) ∧
    (∀ last, seen.getLast? = some last → ∀ id, id ∈ t.order ↔
      ∃ p ∈ last.1.players, p.id = id ∧ p.id ≠ PlayerId.nil ∧ p.id ≠ last.1.self.id ∧
        ¬(last.1.self.name ≠ "" ∧ p.name = last.1.self.name)) ∧
    (∀ snapshot clock, (t.update snapshot clock).order.toList =
      (t.order.toList.filter fun id => id ∈ presentIds snapshot) ++
        ((presentIds snapshot).filter fun id => id ∉ t.order.toList).eraseDups) ∧
    (t.beliefs.map some = t.order.toList.map t.player? ∧ t.size = t.beliefs.length) ∧
    (∀ before gap after id, seen = before ++ gap :: after → id ∉ presentIds gap.1 →
      t.player? id = ((new config).run after).player? id) ∧
    (∀ snapshot clock id, id ∉ t.order → id ∈ presentIds snapshot →
      ∃ newcomers, (t.update snapshot clock).order.toList =
          (t.order.toList.filter fun other => other ∈ presentIds snapshot) ++ newcomers ∧
        id ∈ newcomers) := by
  intro t
  have h : InStep t := (InStep.new config).run seen
  refine ⟨⟨h.nodup, h.mem_order, h.own_id⟩, ?_, h.update_order,
    ⟨h.map_some_beliefs, h.size_eq_length_beliefs⟩, ?_, ?_⟩
  · intro last hlast id
    obtain ⟨earlier, rfl⟩ := List.getLast?_eq_some_iff.mp hlast
    have hearlier : InStep ((new config).run earlier) := (InStep.new config).run earlier
    have ht : t = ((new config).run earlier).update last.1 last.2 :=
      run_concat (new config) earlier last
    rw [ht, hearlier.mem_update_order, mem_presentIds_iff]
  · rintro before gap after id rfl hgap
    exact run_player?_of_gap config before after gap hgap
  · intro snapshot clock id hnew hhere
    exact h.newcomer_behind snapshot clock hnew hhere

end Observation

end VoxelScout.Sight.Tracker
