import VoxelScout.Proofs.Scalar.Order
import VoxelScout.Proofs.Sight.Order

/-! # The nearest player

The tracker names the player believed to be nearest to where the bot stood at the last
snapshot. The search is a scan for the nearest over the beliefs, first seen first. Beliefs
without a position take no part in it: the answer would be the same if no roster had ever
listed their players.
-/

namespace VoxelScout

open Scalar

namespace Belief

variable {α : Type}

def located (b : Belief α) : Bool :=
  b.position.isSome

def distanceFrom? [Trig α] (origin : Vec α) (b : Belief α) : Option α :=
  b.position.map origin.distance

theorem located_of_liesAt [Trig α] {origin : Vec α} {b : Belief α} {d : α}
    (h : LiesAt (distanceFrom? origin) b d) : b.located = true := by
  obtain ⟨position, hposition, -⟩ := Option.map_eq_some_iff.mp h.1
  rw [located, hposition]
  rfl

end Belief

namespace Sight.Tracker

variable {α : Type}

/-! ## Beliefs and their players -/

theorem InStep.mem_beliefs {t : Tracker α} (h : InStep t) {b : Belief α} :
    b ∈ t.beliefs ↔ t.player? b.id = some b := by
  unfold beliefs
  rw [List.mem_filterMap]
  constructor
  · rintro ⟨id, -, hb⟩
    rw [h.own_id id b hb]
    exact hb
  · intro hb
    exact ⟨b.id, (h.isSome_iff b.id).mp (Option.isSome_of_eq_some hb), hb⟩

/-! ## The search -/

section Search

variable [Trig α]

/-- Looking for the nearest player is a scan for the nearest. -/
theorem foldl_closer (origin : Vec α) (beliefs : List (Belief α)) :
    beliefs.foldl (closer origin) none =
      scanNearest (Belief.distanceFrom? origin) id beliefs := by
  unfold scanNearest
  congr 1
  funext best b
  unfold closer Belief.distanceFrom? keepNearer
  cases b.position with
  | none => rfl
  | some position => cases best <;> rfl

/-- Beliefs without a position can be left out of the search. -/
theorem foldl_closer_filter_located (origin : Vec α) (beliefs : List (Belief α)) :
    (beliefs.filter Belief.located).foldl (closer origin) none =
      beliefs.foldl (closer origin) none := by
  rw [List.foldl_filter]
  apply List.foldl_ext
  intro best b _
  unfold Belief.located closer
  cases b.position <;> rfl

/-- The answer hangs on nothing but the place of the bot and the beliefs with a position, in
their order. -/
theorem nearest?_congr {t u : Tracker α} (hposition : u.position = t.position)
    (hlocated : u.beliefs.filter Belief.located = t.beliefs.filter Belief.located) :
    u.nearest? = t.nearest? := by
  unfold nearest?
  rw [← foldl_closer_filter_located u.position, hposition, hlocated,
    foldl_closer_filter_located]

variable [Ordered α] {t : Tracker α} {r : Belief α}

theorem nearest?_eq_some_iff :
    t.nearest? = some r ↔
      ∃ d, FirstNearest (Belief.distanceFrom? t.position) t.beliefs r d := by
  unfold nearest?
  rw [foldl_closer, Option.map_eq_some_iff]
  constructor
  · rintro ⟨⟨d, b⟩, hscan, rfl⟩
    obtain ⟨_, hfirst, rfl⟩ := scanNearest_eq_some_iff.mp hscan
    exact ⟨d, hfirst⟩
  · rintro ⟨d, hfirst⟩
    exact ⟨(d, r), scanNearest_eq_some_iff.mpr ⟨r, hfirst, rfl⟩, rfl⟩

theorem isSome_nearest?_iff :
    t.nearest?.isSome = true ↔
      ∃ b ∈ t.beliefs, ∃ d, LiesAt (Belief.distanceFrom? t.position) b d := by
  rw [Option.isSome_iff_exists]
  constructor
  · rintro ⟨r, hr⟩
    obtain ⟨d, before, after, hsplit, hd, -⟩ := nearest?_eq_some_iff.mp hr
    exact ⟨r, by simp [hsplit], d, hd⟩
  · rintro ⟨b, hb, d, hd⟩
    obtain ⟨r, e, hfirst⟩ := exists_firstNearest hb hd
    exact ⟨r, nearest?_eq_some_iff.mpr ⟨e, hfirst⟩⟩

theorem mem_beliefs_of_nearest? (h : t.nearest? = some r) :
    r ∈ t.beliefs ∧ r.located = true := by
  obtain ⟨d, before, after, hsplit, hd, -⟩ := nearest?_eq_some_iff.mp h
  exact ⟨by simp [hsplit], Belief.located_of_liesAt hd⟩

end Search

/-! ## Rosters with players left out -/

def restrict (keep : PlayerId → Bool) (snapshot : Snapshot α) : Snapshot α :=
  { snapshot with players := snapshot.players.filter fun p => keep p.id }

theorem present_restrict (keep : PlayerId → Bool) (snapshot : Snapshot α) :
    present (restrict keep snapshot) = (present snapshot).filter fun p => keep p.id := by
  unfold present restrict
  rw [List.filter_filter, List.filter_filter]
  congr 1
  funext p
  exact Bool.and_comm _ _

theorem presentIds_restrict (keep : PlayerId → Bool) (snapshot : Snapshot α) :
    presentIds (restrict keep snapshot) = (presentIds snapshot).filter keep := by
  unfold presentIds
  rw [present_restrict, List.filter_map]
  rfl

theorem entriesOf_restrict {keep : PlayerId → Bool} {id : PlayerId} (hid : keep id = true)
    (snapshot : Snapshot α) : entriesOf (restrict keep snapshot) id = entriesOf snapshot id := by
  unfold entriesOf
  rw [present_restrict, List.filter_filter]
  apply List.filter_congr
  intro p _
  by_cases hp : p.id = id
  · simp [hp, hid]
  · simp [hp]

/-- Which of several equal members is kept does not matter to a filter. -/
theorem eraseDups_filter {β : Type} [BEq β] [LawfulBEq β] (keep : β → Bool) :
    ∀ l : List β, (l.filter keep).eraseDups = l.eraseDups.filter keep
  | [] => rfl
  | a :: l => by
      have hrest := eraseDups_filter keep (l.filter fun b => !b == a)
      cases ha : keep a with
      | true =>
          rw [List.filter_cons_of_pos ha, List.eraseDups_cons, List.eraseDups_cons,
            List.filter_cons_of_pos ha, ← hrest, List.filter_filter, List.filter_filter]
          simp only [Bool.and_comm]
      | false =>
          -- what is not kept takes with it only what is not kept either
          have hsame : (l.filter fun b => !b == a).filter keep = l.filter keep := by
            rw [List.filter_filter]
            apply List.filter_congr
            intro b _
            by_cases hb : b = a
            · simp [hb, ha]
            · simp [hb]
          rw [List.filter_cons_of_neg (by simp [ha]), List.eraseDups_cons,
            List.filter_cons_of_neg (by simp [ha]), ← hrest, hsame]
termination_by l => l.length
decreasing_by exact Nat.lt_succ_of_le (List.length_filter_le _ _)

/-! ## Trackers that miss some players -/

/-- The tracker `u` holds what `t` holds about the players to keep, and nothing else. -/
structure Restricts (keep : PlayerId → Bool) (t u : Tracker α) : Prop where
  whole : InStep t
  part : InStep u
  config : u.config = t.config
  position : u.position = t.position
  order : u.order.toList = t.order.toList.filter keep
  player? : ∀ id, keep id = true → u.player? id = t.player? id

variable {keep : PlayerId → Bool} {t u : Tracker α}

theorem Restricts.new [Scalar α] (keep : PlayerId → Bool) (config : Config α) :
    Restricts keep (Tracker.new config) (Tracker.new config) :=
  ⟨InStep.new config, InStep.new config, rfl, rfl, rfl, fun _ _ => rfl⟩

theorem Restricts.beliefs (h : Restricts keep t u) :
    u.beliefs = t.beliefs.filter fun b => keep b.id := by
  unfold Tracker.beliefs
  rw [h.order, List.filterMap_filter, List.filter_filterMap]
  apply List.filterMap_congr
  intro id _
  have hown : (t.player? id).filter (fun b => keep b.id) =
      if keep id then t.player? id else none := by
    cases hb : t.player? id with
    | none => simp
    | some b => rw [Option.filter_some, h.whole.own_id id b hb]
  rw [hown]
  split
  · next hid => exact h.player? id hid
  · rfl

section Observation

variable [Trig α]

theorem Restricts.update (h : Restricts keep t u) (snapshot : Snapshot α) (clock : Instant) :
    Restricts keep (t.update snapshot clock) (u.update (restrict keep snapshot) clock) where
  whole := h.whole.update snapshot clock
  part := h.part.update (restrict keep snapshot) clock
  config := by rw [update_config, update_config, h.config]
  position := rfl
  order := by
    rw [h.whole.update_order, h.part.update_order, presentIds_restrict, h.order,
      List.filter_append, ← eraseDups_filter]
    simp only [List.filter_filter]
    congr 2
    · funext id
      cases hid : keep id <;> simp [hid]
    · apply List.filter_congr
      intro id _
      cases hid : keep id <;> simp [hid]
  player? id hid := by
    rw [h.whole.update_player?, h.part.update_player?, entriesOf_restrict hid, h.config,
      h.player? id hid]
    rfl

theorem Restricts.run (h : Restricts keep t u) (seen : List (Snapshot α × Instant)) :
    Restricts keep (t.run seen) (u.run (seen.map fun s => (restrict keep s.1, s.2))) := by
  induction seen generalizing t u with
  | nil => exact h
  | cons s seen ih => exact ih (h.update s.1 s.2)

/-- Players without a known position can be missing altogether. -/
theorem Restricts.nearest? (h : Restricts keep t u)
    (hunplaced : ∀ id b, keep id = false → t.player? id = some b → b.position = none) :
    u.nearest? = t.nearest? := by
  apply nearest?_congr h.position
  rw [h.beliefs, List.filter_filter]
  apply List.filter_congr
  intro b hb
  cases hkeep : keep b.id with
  | true => simp
  | false => simp [Belief.located, hunplaced b.id b hkeep (h.whole.mem_beliefs.mp hb)]

/-! ## The whole run -/

/-- Where the bot stands after snapshots in a row: where the last one puts it. -/
def standpoint (seen : List (Snapshot α × Instant)) : Vec α :=
  (seen.getLast?.map fun last => last.1.self.position).getD Vec.zero

theorem run_position (config : Config α) (seen : List (Snapshot α × Instant)) :
    ((new config).run seen).position = standpoint seen := by
  rcases List.eq_nil_or_concat seen with rfl | ⟨earlier, last, rfl⟩
  · rfl
  · rw [List.concat_eq_append, run_concat, standpoint, List.getLast?_concat]
    rfl

end Observation

/-- After every run the tracker names the first of the nearest among the players believed to be
somewhere below infinity. Players without a known position play no part, not even if the rosters
had never listed them. -/
theorem run_nearest?_eq_some_iff_firstNearest [Trig α] [Ordered α] (config : Config α)
    (seen : List (Snapshot α × Instant)) :
    let t := (new config).run seen
    let distance? := Belief.distanceFrom? (standpoint seen)
    (t.nearest?.isSome = true ↔ ∃ b ∈ t.beliefs, ∃ d, LiesAt distance? b d) ∧
    (∀ r, t.nearest? = some r ↔ ∃ d, FirstNearest distance? t.beliefs r d) ∧
    (∀ r, t.nearest? = some r → r.position ≠ none ∧ t.player? r.id = some r) ∧
    (∀ u : Tracker α, u.position = t.position →
      u.beliefs.filter Belief.located = t.beliefs.filter Belief.located →
      u.nearest? = t.nearest?) ∧
    (∀ keep : PlayerId → Bool,
      (∀ id b, keep id = false → t.player? id = some b → b.position = none) →
      ((new config).run (seen.map fun s => (restrict keep s.1, s.2))).nearest? = t.nearest?) := by
  intro t
  have h : InStep t := (InStep.new config).run seen
  have hposition : t.position = standpoint seen := run_position config seen
  rw [← hposition]
  refine ⟨isSome_nearest?_iff, fun r => nearest?_eq_some_iff, fun r hr => ?_,
    fun u => nearest?_congr, fun keep hunplaced => ?_⟩
  · obtain ⟨hmem, hlocated⟩ := mem_beliefs_of_nearest? hr
    exact ⟨Option.isSome_iff_ne_none.mp hlocated, h.mem_beliefs.mp hmem⟩
  · exact ((Restricts.new keep config).run seen).nearest? hunplaced

def tiedRoster : Snapshot Float :=
  ⟨⟨0⟩, { (Pose.initial : Pose Float) with id := ⟨9⟩ },
    [{ (Player.blank : Player Float) with id := ⟨1⟩, position := ⟨0, 0, -3⟩ },
      { (Player.blank : Player Float) with id := ⟨2⟩, position := ⟨3, 0, 0⟩ }], World.empty⟩

theorem run_nearest?_eq_some_iff_firstNearest_tied :
    let t := (new Config.standard).run [(tiedRoster, ⟨0⟩)]
    ∃ r d, t.nearest? = some r ∧ r.position ≠ none ∧
      FirstNearest (Belief.distanceFrom? (standpoint [(tiedRoster, ⟨0⟩)])) t.beliefs r d := by
  intro t
  obtain ⟨hsome, hnamed, hknown, -⟩ :=
    run_nearest?_eq_some_iff_firstNearest Config.standard [(tiedRoster, ⟨0⟩)]
  have hnew : (new Config.standard : Tracker Float).player? ⟨1⟩ = none := by
    simp [new, player?]
  have hplayer : t.player? ⟨1⟩ = renew Config.standard.withDefaults tiedRoster ⟨0⟩ none
      (tiedRoster.players.take 1) := by
    have hupdate := (InStep.new Config.standard).update_player? tiedRoster ⟨0⟩ ⟨1⟩
    rw [if_neg (by decide), hnew] at hupdate
    exact hupdate
  have hlies : ∃ b, t.player? ⟨1⟩ = some b ∧ b.id = ⟨1⟩ ∧
      ∃ d, LiesAt (Belief.distanceFrom? (standpoint [(tiedRoster, ⟨0⟩)])) b d := by
    rw [hplayer]
    have hsight : classify Config.standard.withDefaults tiedRoster.self tiedRoster.players[0]
        tiedRoster.world = .direct := by
      decide +kernel
    refine ⟨Belief.observe tiedRoster.players[0] .direct none ⟨0⟩, ?_, rfl, _, rfl, ?_⟩
    · rw [← hsight]
      rfl
    · decide +kernel
  obtain ⟨b, hb, hid, d, hd⟩ := hlies
  have hmem : b ∈ t.beliefs :=
    ((InStep.new Config.standard).run [(tiedRoster, ⟨0⟩)]).mem_beliefs.mpr (hid ▸ hb)
  obtain ⟨r, hr⟩ := Option.isSome_iff_exists.mp (hsome.mpr ⟨b, hmem, d, hd⟩)
  obtain ⟨e, hfirst⟩ := (hnamed r).mp hr
  exact ⟨r, e, hr, (hknown r hr).1, hfirst⟩

end Sight.Tracker

end VoxelScout
