import Mathlib.Data.List.Basic
import Mathlib.Data.List.Nodup
import VoxelScout.Scalar.Binary64
import VoxelScout.Sight.Tracker

/-! # One update of the tracker, and runs of updates

The tracker keeps its beliefs twice over: by player, and as an order of players that is
compacted in place. Every statement below is about `update` itself. A sweep is reduced to
a filter of the order, the fold over a roster to one fold for each player, and the two
structures are shown to stay in step along every run.
-/

namespace VoxelScout

theorem Instant.orElse_of_ne {t : Instant} (h : t ≠ Instant.unset) (clock : Instant) :
    t.orElse clock = t := by
  simp [Instant.orElse, Instant.isUnset, h]

namespace Belief

variable {α : Type} [Scalar α]

/-! ## One observation -/

theorem observe_direct (p : Player α) (previous : Option (Belief α)) (now : Instant) :
    observe p .direct previous now =
      { id := p.id
        name := p.name
        visibility := .direct
        position := some p.position
        velocity := some p.velocity
        heldItem := p.heldItem
        armor := ⟨p.head, p.torso, p.legs, p.feet⟩
        crouching := Tri.ofBool p.crouching
        sprinting := Tri.ofBool p.sprinting
        onFire := Tri.ofBool p.onFire
        health := Health.ofPoints p.health
        inLineOfSight := true
        lastSeen := now } := rfl

theorem observe_standing {p : Player α} (hstands : p.crouching = false)
    (previous : Option (Belief α)) (now : Instant) :
    observe p .obstructed previous now =
      { id := p.id
        name := p.name
        visibility := .obstructed
        position := some p.position
        velocity := some p.velocity
        lastSeen := (previous.map (·.lastSeen)).getD Instant.unset } := by
  simp [observe, hstands]

/-- Of a hidden player nothing but identifier and name is looked at. -/
theorem observe_hidden {p : Player α} {visibility : Visibility} (hdirect : visibility ≠ .direct)
    (hhidden : ¬(visibility = .obstructed ∧ p.crouching = false))
    (previous : Option (Belief α)) (now : Instant) :
    observe p visibility previous now =
      { id := p.id
        name := p.name
        visibility
        position := previous.bind (·.position)
        velocity := (previous.bind (·.position)).map fun _ => Vec.zero
        lastSeen := (previous.map (·.lastSeen)).getD Instant.unset } := by
  have hcase : (visibility == .obstructed && !p.crouching) = false := by
    simpa using hhidden
  simp [observe, hdirect, hcase]

theorem observe_id (p : Player α) (visibility : Visibility) (previous : Option (Belief α))
    (now : Instant) : (observe p visibility previous now).id = p.id := by
  unfold observe
  dsimp only
  split
  · rfl
  · split <;> rfl

end Belief

namespace Sight.Tracker

variable {α : Type}

/-! ## Sweeping -/

/-- What is still to be read at a place within the order. -/
theorem drop_order_of_lt (t : Tracker α) {read : Nat} (h : read < t.order.size) :
    t.order.toList.drop read = t.order[read] :: t.order.toList.drop (read + 1) :=
  List.drop_eq_getElem_cons (by simpa using h)

theorem drop_order_of_not_lt (t : Tracker α) {read : Nat} (h : ¬read < t.order.size) :
    t.order.toList.drop read = [] :=
  List.drop_eq_nil_iff.mpr (by simpa using h)

/-- Moving a player up to a place that was read already keeps all that is still to be
read. -/
theorem drop_order_set (t : Tracker α) {read write : Nat} (h : write ≤ read) (id : PlayerId) :
    (t.order.setIfInBounds write id).toList.drop (read + 1) =
      t.order.toList.drop (read + 1) := by
  rw [Array.toList_setIfInBounds]
  exact List.drop_set_of_lt (by omega)

/-- The compaction in place is a filter of the order. -/
theorem sweepFrom_order (keep : PlayerId → Bool) (read write : Nat) (t : Tracker α)
    (h : write ≤ read) :
    (t.sweepFrom keep read write).order.toList =
      t.order.toList.take write ++ (t.order.toList.drop read).filter keep := by
  fun_induction sweepFrom keep read write t with
  | case1 read write t hread id hkeep ih =>
      have hwrite : write < t.order.toList.length := by
        rw [Array.length_toList]
        omega
      have hfront : (t.order.setIfInBounds write id).toList.take (write + 1) =
          t.order.toList.take write ++ [id] := by
        rw [Array.toList_setIfInBounds, List.take_add_one,
          List.take_set_of_le (Nat.le_refl write), List.getElem?_set_self hwrite]
        rfl
      rw [ih (by omega), t.drop_order_of_lt hread, List.filter_cons_of_pos hkeep]
      simp only [t.drop_order_set h, hfront, List.append_assoc, List.singleton_append, id]
  | case2 read write t hread id hkeep ih =>
      rw [ih (by omega), t.drop_order_of_lt hread, List.filter_cons_of_neg hkeep]
  | case3 read write t hread =>
      simp [t.drop_order_of_not_lt hread]

/-- A sweep drops the beliefs about the players it passes and does not keep. -/
theorem sweepFrom_player? (keep : PlayerId → Bool) (read write : Nat) (t : Tracker α)
    (h : write ≤ read) (id : PlayerId) :
    (t.sweepFrom keep read write).player? id =
      if id ∈ t.order.toList.drop read ∧ keep id = false then none else t.player? id := by
  fun_induction sweepFrom keep read write t with
  | case1 read write t hread next hkeep ih =>
      rw [ih (by omega), t.drop_order_of_lt hread]
      simp only [t.drop_order_set h, List.mem_cons, player?]
      grind
  | case2 read write t hread next hkeep ih =>
      rw [ih (by omega), t.drop_order_of_lt hread]
      simp only [player?, List.mem_cons, Std.HashMap.getElem?_erase]
      grind
  | case3 read write t hread =>
      simp [t.drop_order_of_not_lt hread, player?]

@[simp] theorem sweepFrom_config (keep : PlayerId → Bool) (read write : Nat) (t : Tracker α) :
    (t.sweepFrom keep read write).config = t.config := by
  fun_induction sweepFrom keep read write t <;> simp_all

theorem sweep_order (keep : PlayerId → Bool) (t : Tracker α) :
    (t.sweepFrom keep 0 0).order.toList = t.order.toList.filter keep := by
  rw [sweepFrom_order keep 0 0 t (Nat.le_refl 0)]
  simp

/-! ## The two structures in step -/

/-- The order lists every tracked player once, and a belief is kept under its own player. -/
structure InStep (t : Tracker α) : Prop where
  nodup : t.order.toList.Nodup
  mem_order : ∀ id, id ∈ t.order ↔ id ∈ t.players
  own_id : ∀ id b, t.player? id = some b → b.id = id

theorem InStep.isSome_iff {t : Tracker α} (h : InStep t) (id : PlayerId) :
    (t.player? id).isSome ↔ id ∈ t.order.toList := by
  rw [player?, Std.HashMap.isSome_getElem?_iff_mem, ← h.mem_order, Array.mem_toList_iff]

/-- What it takes to be in step, in terms of what the tracker answers. -/
theorem InStep.of_player? {t : Tracker α} (hnodup : t.order.toList.Nodup)
    (hmem : ∀ id, (t.player? id).isSome ↔ id ∈ t.order.toList)
    (hid : ∀ id b, t.player? id = some b → b.id = id) : InStep t where
  nodup := hnodup
  mem_order id := by
    rw [← Array.mem_toList_iff, ← hmem, player?, Std.HashMap.isSome_getElem?_iff_mem]
  own_id := hid

theorem InStep.new [Scalar α] (config : Config α) : InStep (Tracker.new config) where
  nodup := List.nodup_nil
  mem_order id := by simp [Tracker.new]
  own_id id b h := by simp [Tracker.new, player?] at h

/-- A sweep of everything keeps exactly the beliefs it is told to keep. -/
theorem InStep.sweep_player? {t : Tracker α} (h : InStep t) (keep : PlayerId → Bool)
    (id : PlayerId) :
    (t.sweepFrom keep 0 0).player? id = if keep id then t.player? id else none := by
  have hpassed := h.isSome_iff id
  rw [sweepFrom_player? keep 0 0 t (Nat.le_refl 0), List.drop_zero]
  cases keep id with
  | true => simp
  | false =>
      cases hid : t.player? id with
      | none => simp
      | some b => simp [← hpassed, hid]

theorem InStep.sweep {t : Tracker α} (h : InStep t) (keep : PlayerId → Bool) :
    InStep (t.sweepFrom keep 0 0) := by
  refine .of_player? ?_ ?_ ?_
  · rw [sweep_order]
    exact h.nodup.filter keep
  · intro id
    rw [sweep_order, h.sweep_player?, List.mem_filter, ← h.isSome_iff]
    cases keep id <;> simp
  · intro id b hb
    rw [h.sweep_player?] at hb
    split at hb
    · exact h.own_id id b hb
    · cases hb

/-! ## What a roster says about one player -/

def entriesOf (snapshot : Snapshot α) (id : PlayerId) : List (Player α) :=
  (present snapshot).filter fun p => p.id == id

/-- The players that a snapshot shows, in the order of the roster. -/
def presentIds (snapshot : Snapshot α) : List PlayerId :=
  (present snapshot).map fun p => p.id

theorem mem_presentIds {snapshot : Snapshot α} {id : PlayerId} :
    id ∈ presentIds snapshot ↔ entriesOf snapshot id ≠ [] := by
  simp [presentIds, entriesOf, List.filter_eq_nil_iff]

theorem any_present_eq (snapshot : Snapshot α) (id : PlayerId) :
    ((present snapshot).any fun p => p.id == id) = decide (id ∈ presentIds snapshot) := by
  rw [Bool.eq_iff_iff, decide_eq_true_iff, List.any_eq_true]
  simp [presentIds]

section Observation

variable [Trig α]

/-- The belief about one player after roster entries about that player. -/
def renew (config : Config α) (snapshot : Snapshot α) (now : Instant)
    (previous : Option (Belief α)) (entries : List (Player α)) : Option (Belief α) :=
  entries.foldl (fun previous p =>
    some (Belief.observe p (classify config snapshot.self p snapshot.world) previous now)) previous

/-! ## One roster entry -/

theorem observe_player? (snapshot : Snapshot α) (now : Instant) (t : Tracker α) (p : Player α)
    (id : PlayerId) :
    (t.observe snapshot now p).player? id =
      if p.id = id then
        some (Belief.observe p (classify t.config snapshot.self p snapshot.world)
          (t.player? id) now)
      else t.player? id := by
  simp only [observe, player?, Std.HashMap.getElem?_insert, beq_iff_eq]
  split
  · next h => rw [h]
  · rfl

theorem observe_order (snapshot : Snapshot α) (now : Instant) (t : Tracker α) (p : Player α) :
    (t.observe snapshot now p).order.toList =
      if (t.player? p.id).isSome then t.order.toList else t.order.toList ++ [p.id] := by
  unfold observe player?
  split <;> simp_all

@[simp] theorem observe_config (snapshot : Snapshot α) (now : Instant) (t : Tracker α)
    (p : Player α) : (t.observe snapshot now p).config = t.config := rfl

theorem InStep.observe {t : Tracker α} (h : InStep t) (snapshot : Snapshot α) (now : Instant)
    (p : Player α) : InStep (t.observe snapshot now p) := by
  have hp := h.isSome_iff p.id
  refine .of_player? ?_ ?_ ?_
  · rw [observe_order]
    split
    · exact h.nodup
    · next hnew =>
        rw [hp] at hnew
        rw [← List.concat_eq_append]
        exact h.nodup.concat hnew
  · intro id
    have hid := h.isSome_iff id
    rw [observe_order, observe_player?]
    by_cases heq : p.id = id
    · subst heq
      rw [if_pos rfl]
      split
      · next hold => simpa using hp.mp hold
      · simp
    · rw [if_neg heq, hid]
      split
      · rfl
      · simp [Ne.symm heq]
  · intro id b hb
    rw [observe_player?] at hb
    split at hb
    · next heq =>
        obtain rfl := Option.some.inj hb
        rw [Belief.observe_id, heq]
    · exact h.own_id id b hb

/-! ## A whole roster -/

theorem foldl_observe_config (snapshot : Snapshot α) (now : Instant) (roster : List (Player α))
    (t : Tracker α) : (roster.foldl (observe snapshot now) t).config = t.config := by
  induction roster generalizing t with
  | nil => rfl
  | cons p roster ih => rw [List.foldl_cons, ih, observe_config]

/-- Entries about other players leave a belief alone. -/
theorem foldl_observe_player? (snapshot : Snapshot α) (now : Instant) (roster : List (Player α))
    (t : Tracker α) (id : PlayerId) :
    (roster.foldl (observe snapshot now) t).player? id =
      renew t.config snapshot now (t.player? id) (roster.filter fun p => p.id == id) := by
  induction roster generalizing t with
  | nil => rfl
  | cons p roster ih =>
      rw [List.foldl_cons, ih, observe_config, observe_player?]
      by_cases h : p.id = id
      · rw [if_pos h, List.filter_cons_of_pos (by simpa using h)]
        rfl
      · rw [if_neg h, List.filter_cons_of_neg (by simpa using h)]

theorem InStep.foldl_observe {t : Tracker α} (h : InStep t) (snapshot : Snapshot α)
    (now : Instant) (roster : List (Player α)) :
    InStep (roster.foldl (Tracker.observe snapshot now) t) := by
  induction roster generalizing t with
  | nil => exact h
  | cons p roster ih => exact ih (h.observe snapshot now p)

/-- Players who are not tracked yet are appended where the roster names them first. -/
theorem InStep.foldl_observe_order {t : Tracker α} (h : InStep t) (snapshot : Snapshot α)
    (now : Instant) (roster : List (Player α)) :
    (roster.foldl (Tracker.observe snapshot now) t).order.toList =
      t.order.toList ++ ((roster.map (·.id)).filter fun id => id ∉ t.order.toList).eraseDups := by
  induction roster generalizing t with
  | nil => simp
  | cons p roster ih =>
      rw [List.foldl_cons, ih (h.observe snapshot now p), observe_order, List.map_cons]
      by_cases hp : p.id ∈ t.order.toList
      · rw [if_pos ((h.isSome_iff p.id).mpr hp), List.filter_cons_of_neg (by simpa using hp)]
      · rw [if_neg (mt (h.isSome_iff p.id).mp hp), List.filter_cons_of_pos (by simpa using hp),
          List.eraseDups_cons, List.filter_filter, List.append_assoc, List.singleton_append]
        congr 4
        funext id
        simp [beq_eq_decide, Bool.and_comm]

/-! ## One update -/

theorem update_config (t : Tracker α) (snapshot : Snapshot α) (clock : Instant) :
    (t.update snapshot clock).config = t.config := by
  simp only [update, sweepFrom_config, foldl_observe_config]

theorem InStep.update {t : Tracker α} (h : InStep t) (snapshot : Snapshot α) (clock : Instant) :
    InStep (t.update snapshot clock) := by
  have hroster := h.foldl_observe snapshot (snapshot.time.orElse clock) (present snapshot)
  obtain ⟨hnodup, hmem, hid⟩ :=
    hroster.sweep fun id => (present snapshot).any fun p => p.id == id
  exact ⟨hnodup, hmem, hid⟩

/-- An update renews the belief about a player from the entries about that player alone,
and forgets a player without entries. -/
theorem InStep.update_player? {t : Tracker α} (h : InStep t) (snapshot : Snapshot α)
    (clock : Instant) (id : PlayerId) :
    (t.update snapshot clock).player? id =
      if entriesOf snapshot id = [] then none
      else renew t.config snapshot (snapshot.time.orElse clock) (t.player? id)
        (entriesOf snapshot id) := by
  have hroster := h.foldl_observe snapshot (snapshot.time.orElse clock) (present snapshot)
  have hswept := hroster.sweep_player? (fun id => (present snapshot).any fun p => p.id == id) id
  rw [any_present_eq, foldl_observe_player?] at hswept
  have hsame : (t.update snapshot clock).player? id = _ := hswept
  rw [hsame]
  simp only [decide_eq_true_eq, mem_presentIds, ne_eq, ite_not]
  rfl

/-- An update keeps the tracked players who are present in their order, and appends the
others who are present in the order in which the roster names them first. -/
theorem InStep.update_order {t : Tracker α} (h : InStep t) (snapshot : Snapshot α)
    (clock : Instant) :
    (t.update snapshot clock).order.toList =
      (t.order.toList.filter fun id => id ∈ presentIds snapshot) ++
        ((presentIds snapshot).filter fun id => id ∉ t.order.toList).eraseDups := by
  have hswept := sweep_order (fun id => (present snapshot).any fun p => p.id == id)
    ((present snapshot).foldl (Tracker.observe snapshot (snapshot.time.orElse clock)) t)
  rw [h.foldl_observe_order] at hswept
  have hsame : (t.update snapshot clock).order.toList = _ := hswept
  have hkept : ∀ id ∈ ((presentIds snapshot).filter fun id => id ∉ t.order.toList).eraseDups,
      decide (id ∈ presentIds snapshot) = true := by
    intro id hid
    exact decide_eq_true (List.mem_filter.mp (List.mem_eraseDups.mp hid)).1
  rw [hsame]
  simp only [any_present_eq, List.filter_append]
  rw [← presentIds, List.filter_eq_self.mpr hkept]

/-! ## Runs of updates -/

/-- The tracker after snapshots in a row, each with the clock of its update. -/
def run (t : Tracker α) (seen : List (Snapshot α × Instant)) : Tracker α :=
  seen.foldl (fun t s => t.update s.1 s.2) t

theorem run_cons (t : Tracker α) (s : Snapshot α × Instant) (seen : List (Snapshot α × Instant)) :
    t.run (s :: seen) = (t.update s.1 s.2).run seen := rfl

theorem run_append (t : Tracker α) (seen later : List (Snapshot α × Instant)) :
    t.run (seen ++ later) = (t.run seen).run later :=
  List.foldl_append

theorem run_concat (t : Tracker α) (seen : List (Snapshot α × Instant))
    (s : Snapshot α × Instant) : t.run (seen ++ [s]) = (t.run seen).update s.1 s.2 :=
  run_append t seen [s]

theorem run_config (t : Tracker α) (seen : List (Snapshot α × Instant)) :
    (t.run seen).config = t.config := by
  induction seen generalizing t with
  | nil => rfl
  | cons s seen ih => rw [run_cons, ih, update_config]

theorem InStep.run {t : Tracker α} (h : InStep t) (seen : List (Snapshot α × Instant)) :
    InStep (t.run seen) := by
  induction seen generalizing t with
  | nil => exact h
  | cons s seen ih => exact ih (h.update s.1 s.2)

end Observation

end Sight.Tracker

/-! ## One bot and one player, to try statements on -/

namespace Sight

def glimpse (time : Instant) (world : World Float) (p : Player Float) : Snapshot Float :=
  ⟨time, { (Pose.initial : Pose Float) with height := 1 }, [p], world⟩

/-- Terrain in which every ray ends where it starts. -/
def walled : World Float where
  raycast origin _ _ := some ⟨"stone", origin, true⟩
  blockAt p := ⟨"stone", p, true⟩

def passerby (status : UInt8) (velocity : Vec Float) : Player Float :=
  { (Player.blank : Player Float) with id := ⟨7⟩, name := "Kim", height := 2, status, velocity }

end Sight

end VoxelScout
