import Mathlib.Data.List.Basic
import Mathlib.Data.List.Find
import Mathlib.Data.List.Induction
import VoxelScout.Bot
import VoxelScout.Proofs.Sight.Order
import VoxelScout.Scalar.Binary64

/-! # Roster entries that sight ignores

Sight ignores the entry of the bot itself, told by identifier or name, and entries without
an identifier. The swing knows the bot by its identifier only. The two agree as long as the
other entries that sight ignores stand outside the view and share no identifier with a
player who is tracked; an entry that stands in the view can be hit, or shield others.
-/

namespace VoxelScout.Combat

open Sight (ignored)
open Sight.Tracker (present)

variable {α : Type} [Trig α]

namespace Tracker

/-! ## Who is under the crosshair -/

/-- An entry of the roster is passed over or becomes the best target so far. -/
theorem nearer_cases (config : Config α) (self : Pose α) (best : Option (α × PlayerId))
    (p : Player α) :
    nearer config self best p = best ∨
      ∃ d, nearer config self best p = some (d, p.id) ∧ p.id ≠ self.id := by
  unfold nearer
  by_cases hself : p.id = self.id
  · simp [hself]
  · cases p.box.entry? self.eye self.view config.maxReach with
    | none => simp
    | some d =>
        cases best with
        | none => by_cases hd : Scalar.belowTop d = true <;> simp [hself, hd]
        | some least => by_cases hd : d < least.1 <;> simp [hself, hd]

theorem exists_of_foldl_nearer {config : Config α} {self : Pose α} {players : List (Player α)}
    {d : α} {id : PlayerId} (h : players.foldl (nearer config self) none = some (d, id)) :
    ∃ p ∈ players, p.id = id ∧ p.id ≠ self.id := by
  induction players using List.reverseRecOn generalizing d id with
  | nil => cases h
  | append_singleton players p ih =>
      rw [List.foldl_append, List.foldl_cons, List.foldl_nil] at h
      rcases nearer_cases config self (players.foldl (nearer config self) none) p with
        hsame | ⟨d', hbest, hself⟩
      · obtain ⟨q, hq, hid⟩ := ih (hsame.symm.trans h)
        exact ⟨q, List.mem_append_left _ hq, hid⟩
      · rw [hbest] at h
        cases h
        exact ⟨p, by simp, rfl, hself⟩

theorem exists_of_underCrosshair {t : Tracker α} {id : PlayerId}
    (h : t.underCrosshair = some id) : ∃ p ∈ t.players, p.id = id ∧ p.id ≠ t.self.id := by
  unfold underCrosshair at h
  split at h
  · cases h
  · next d best hbest =>
      split at h
      · cases h
      · cases h
        exact exists_of_foldl_nearer hbest

/-- A swing hits whoever is under the crosshair, with the bot's hand free and the first
entry of that player within reach. -/
theorem canAttack_eq_true_iff (t : Tracker α) (target : PlayerId) :
    t.canAttack target = true ↔ t.self.usingItem = false ∧
      (∃ victim, (t.players.find? fun p => p.id == target) = some victim ∧
        ¬t.config.maxReach < victim.box.distance t.self.eye) ∧
      t.underCrosshair = some target := by
  unfold canAttack
  cases t.self.usingItem with
  | true => simp
  | false =>
      cases t.players.find? fun p => p.id == target with
      | none => simp
      | some victim => simp

/-! ## Leaving out entries -/

/-- Roster entries that do not come into the choice of a target can be left out. -/
theorem underCrosshair_filter {t : Tracker α} {keep : Player α → Bool}
    (h : ∀ p ∈ t.players, keep p = false →
      p.id = t.self.id ∨ p.box.entry? t.self.eye t.self.view t.config.maxReach = none) :
    underCrosshair { t with players := t.players.filter keep } = t.underCrosshair := by
  have hfold : (t.players.filter keep).foldl (nearer t.config t.self) none =
      t.players.foldl (nearer t.config t.self) none := by
    rw [List.foldl_filter]
    apply List.foldl_ext
    intro best p hp
    cases hkeep : keep p with
    | true => rfl
    | false =>
        unfold nearer
        rcases h p hp hkeep with hself | hmiss
        · simp [hself]
        · simp [hmiss]
  unfold underCrosshair
  rw [hfold]

theorem canAttack_filter {t : Tracker α} {keep : Player α → Bool}
    (h : ∀ p ∈ t.players, keep p = false → p.id = t.self.id ∨
      p.box.entry? t.self.eye t.self.view t.config.maxReach = none)
    (hshared : ∀ p ∈ t.players, keep p = false → ∀ q ∈ t.players, keep q = true → q.id ≠ p.id)
    (target : PlayerId) :
    canAttack { t with players := t.players.filter keep } target = t.canAttack target := by
  have hunder := underCrosshair_filter h
  rw [Bool.eq_iff_iff, canAttack_eq_true_iff, canAttack_eq_true_iff, hunder]
  by_cases htarget : t.underCrosshair = some target
  · -- somebody kept is under the crosshair, so no entry left out bears the identifier
    obtain ⟨q, hq, hid, -⟩ := exists_of_underCrosshair (hunder.trans htarget)
    obtain ⟨hq, hkeep⟩ := List.mem_filter.mp hq
    have hfind : ((t.players.filter keep).find? fun p => p.id == target) =
        t.players.find? fun p => p.id == target := by
      rw [List.find?_filter]
      apply List.find?_congr
      intro p hp
      cases hp' : keep p with
      | true => simp only [true_and, Bool.decide_eq_true]
      | false => simpa [hid] using (hshared p hp hp' q hq hkeep).symm
    rw [hfind]
  · simp [htarget]

end Tracker

/-! ## After a tick -/

/-- An entry is out of the way of a swing: it bears the bot's own identifier, or the view
does not meet it within reach and no player whom sight tracks bears its identifier. -/
def OutOfTheWay (config : Config α) (snapshot : Snapshot α) (p : Player α) : Prop :=
  p.id = snapshot.self.id ∨
    (p.box.entry? snapshot.self.eye snapshot.self.view config.maxReach = none ∧
      ∀ q ∈ present snapshot, q.id ≠ p.id)

/-- As long as the entries which sight ignores are out of the way, a swing hits after a tick
whom it would hit if the roster did not list them. -/
theorem canAttack_tick_present {σ : Type} (host : Option (Host σ α)) (b : Bot α) (s : σ)
    (snapshot : Snapshot α) (now : Instant)
    (h : ∀ p ∈ snapshot.players, ignored snapshot.self p = true →
      OutOfTheWay b.combat.config snapshot p) (target : PlayerId) :
    (b.tick host s { snapshot with players := present snapshot } now).1.combat.canAttack target =
      (b.tick host s snapshot now).1.combat.canAttack target := by
  let t := (b.tick host s snapshot now).1.combat
  change Tracker.canAttack { t with players := t.players.filter fun p => !ignored t.self p }
    target = t.canAttack target
  have haway (p : Player α) (hp : p ∈ snapshot.players)
      (hkeep : (!ignored snapshot.self p) = false) :
      OutOfTheWay b.combat.config snapshot p :=
    h p hp (by simpa using hkeep)
  apply Tracker.canAttack_filter
  · intro p hp hkeep
    rcases haway p hp hkeep with hself | ⟨hmiss, -⟩
    · exact .inl hself
    · exact .inr hmiss
  · intro p hp hkeep q hq hq'
    rcases haway p hp hkeep with hself | ⟨-, hshared⟩
    · -- sight ignores whoever bears the identifier of the bot
      intro hid
      have htracked : (!ignored snapshot.self q) = true := hq'
      rw [Bool.not_eq_true', Sight.Tracker.ignored_eq_false_iff] at htracked
      exact htracked.2.1 (hid.trans hself)
    · exact hshared q (List.mem_filter.mpr ⟨hq, hq'⟩)

/-! ## Three scenes -/

def newcomer : Bot Float :=
  Bot.new ⟨Sight.Config.standard, Hearing.Config.standard, Combat.Config.standard⟩ 0 ⟨0⟩

def ahead (id : BitVec 128) (name : String) (z : Float) : Player Float :=
  { (Player.blank : Player Float) with id := ⟨id⟩, name, position := ⟨0, 0, z⟩ }

def lookout (id : BitVec 128) (name : String) (players : List (Player Float)) : Snapshot Float :=
  ⟨⟨0⟩, { (Pose.initial : Pose Float) with id := ⟨id⟩, name }, players, World.empty⟩

/-- The entry of the bot itself and one behind it that has no identifier yet do not keep the
bot from hitting the player in front. -/
theorem canAttack_tick_present_behind :
    let snapshot := lookout 1 "bot" [ahead 1 "bot" 0, ahead 0 "" 2, ahead 2 "Kim" (-2)]
    (∀ p ∈ snapshot.players, ignored snapshot.self p = true →
      OutOfTheWay newcomer.combat.config snapshot p) ∧
    (newcomer.tick (σ := Unit) none () { snapshot with players := present snapshot }
      ⟨0⟩).1.combat.canAttack ⟨2⟩ = true := by
  intro snapshot
  have haway : ∀ p ∈ snapshot.players, ignored snapshot.self p = true →
      OutOfTheWay newcomer.combat.config snapshot p := by
    have htracked : ignored snapshot.self (ahead 2 "Kim" (-2)) = false := by decide
    simp only [snapshot, lookout, List.forall_mem_cons]
    refine ⟨fun _ => .inl rfl, fun _ => .inr ⟨by decide +kernel, by decide +kernel⟩, ?_, by simp⟩
    exact fun hignored => absurd (hignored.symm.trans htracked) (by decide)
  refine ⟨haway, ?_⟩
  rw [canAttack_tick_present none newcomer () snapshot ⟨0⟩ haway ⟨2⟩]
  decide +kernel

/-- Listed under its name only, the bot stands in its own way; and an entry that has no
identifier yet can be hit, and shields the player behind. -/
theorem canAttack_tick_ignored_ahead :
    let swing := fun (snapshot : Snapshot Float) target =>
      (newcomer.tick (none : Option (Host Unit Float)) () snapshot ⟨0⟩).1.combat.canAttack target
    let unnamed := lookout 0 "bot" [ahead 1 "bot" 0, ahead 2 "Kim" (-2)]
    let ghostly := lookout 1 "bot" [ahead 0 "" (-1), ahead 2 "Kim" (-2)]
    (swing unnamed ⟨2⟩ = false ∧
      swing { unnamed with players := present unnamed } ⟨2⟩ = true) ∧
    (swing ghostly ⟨0⟩ = true ∧
      swing { ghostly with players := present ghostly } ⟨0⟩ = false) ∧
    (swing ghostly ⟨2⟩ = false ∧
      swing { ghostly with players := present ghostly } ⟨2⟩ = true) := by
  decide +kernel

end VoxelScout.Combat
