import VoxelScout.Proofs.Combat.Bystanders
import VoxelScout.Proofs.Scalar.Order
import VoxelScout.Proofs.Terrain.Obstruction

/-! # Whom a swing hits

The search for the player under the crosshair is a scan for the nearest: of all entries but the
bot's own whose box the view enters within reach, it finds the first one at the least distance.
So a swing can hit one player at most, and never the bot.
-/

namespace VoxelScout

open Scalar

/-! ## Entering a box -/

namespace Box

variable {α : Type} [Scalar α]

/-- The entry of a clipped span is the entry it had before, or one further along the ray. -/
theorem Span.entry_of_clip {span span' : Span α} {o d lo hi : α}
    (h : span.clip o d lo hi = some span') :
    span'.entry = span.entry ∨ span.entry < span'.entry := by
  unfold Span.clip at h
  split at h
  · split at h
    · cases h
    · split at h
      · cases h
      · cases h
        exact .inl rfl
  · -- the nearer face of the slab becomes the entry if it lies further along the ray
    have hlater (near : α) : (if span.entry < near then near else span.entry) = span.entry ∨
        span.entry < if span.entry < near then near else span.entry := by
      by_cases hfurther : span.entry < near
      · simp [hfurther]
      · simp [hfurther]
    simp only [Option.ite_none_left_eq_some, Option.some.injEq] at h
    obtain ⟨-, rfl⟩ := h
    exact hlater _

variable [Ordered α]

theorem Span.isNumber_entry_of_clip {span span' : Span α} {o d lo hi : α}
    (h : span.clip o d lo hi = some span') (hnumber : isNumber span.entry = true) :
    isNumber span'.entry = true := by
  rcases Span.entry_of_clip h with hsame | hfurther
  · rw [hsame]
    exact hnumber
  · exact Ordered.isNumber_of_lt hfurther

/-- The distance at which a ray enters a box is a number, whatever the ray and the box. -/
theorem isNumber_of_entry? {box : Box α} {origin direction : Vec α} {reach d : α}
    (h : box.entry? origin direction reach = some d) : isNumber d = true := by
  simp only [ entry?, Option.bind_eq_bind, Option.bind_eq_some_iff, Option.pure_def] at h
  obtain ⟨_, hx, _, hy, _, hz, h⟩ := h
  cases h
  have hentry := Span.isNumber_entry_of_clip hx Ordered.isNumber_zero
  exact Span.isNumber_entry_of_clip hz (Span.isNumber_entry_of_clip hy hentry)

end Box

/-! ## The player under the crosshair -/

namespace Combat.Tracker

variable {α : Type} [Trig α]

/-- Where the view meets a roster entry, if it does within reach and the entry is not the bot's
own. -/
def meeting? (t : Tracker α) (p : Player α) : Option α :=
  if p.id = t.self.id then none else p.box.entry? t.self.eye t.self.view t.config.maxReach

/-- The view meets the roster entry, which is not the bot's own, at a distance within reach and
below infinity. -/
def Meets (t : Tracker α) (p : Player α) (d : α) : Prop :=
  p.id ≠ t.self.id ∧ p.box.entry? t.self.eye t.self.view t.config.maxReach = some d ∧
    belowTop d = true

/-- Of all roster entries that the view meets, `p` is the first one at the least distance. -/
def MeetsFirst (t : Tracker α) (p : Player α) (d : α) : Prop :=
  ∃ before after, t.players = before ++ p :: after ∧ t.Meets p d ∧
    (∀ q ∈ before, ∀ e, t.Meets q e → d < e) ∧ ∀ q ∈ after, ∀ e, t.Meets q e → d ≤ e

variable {t : Tracker α} {p q : Player α} {d e : α}

theorem liesAt_meeting?_iff : LiesAt t.meeting? p d ↔ t.Meets p d := by
  unfold LiesAt meeting? Meets
  by_cases hself : p.id = t.self.id
  · simp [hself]
  · simp [hself]

theorem firstNearest_meeting?_iff :
    FirstNearest t.meeting? t.players p d ↔ t.MeetsFirst p d := by
  simp only [FirstNearest, MeetsFirst, liesAt_meeting?_iff]

/-- Looking for the player under the crosshair is a scan for the nearest. -/
theorem foldl_nearer (t : Tracker α) :
    t.players.foldl (nearer t.config t.self) none =
      scanNearest t.meeting? Player.id t.players := by
  unfold scanNearest
  congr 1
  funext best p
  unfold nearer meeting? keepNearer
  by_cases hself : p.id = t.self.id
  · simp [hself]
  · simp only [hself, beq_iff_eq, if_false]
    cases p.box.entry? t.self.eye t.self.view t.config.maxReach with
    | none => rfl
    | some d => cases best <;> rfl

theorem MeetsFirst.ne_self (h : t.MeetsFirst p d) : p.id ≠ t.self.id := by
  obtain ⟨_, _, -, hmeets, -⟩ := h
  exact hmeets.1

variable [Ordered α]

theorem foldl_nearer_eq_some_iff {id : PlayerId} :
    t.players.foldl (nearer t.config t.self) none = some (d, id) ↔
      ∃ p, t.MeetsFirst p d ∧ p.id = id := by
  simp only [foldl_nearer, scanNearest_eq_some_iff, firstNearest_meeting?_iff]

/-- Once the view meets an entry, exactly one is the first of the nearest. -/
theorem existsUnique_meetsFirst (hp : p ∈ t.players) (hd : t.Meets p d) :
    ∃! first : Player α × α, t.MeetsFirst first.1 first.2 := by
  obtain ⟨q, e, hfirst⟩ := exists_firstNearest hp (liesAt_meeting?_iff.mpr hd)
  refine ⟨(q, e), firstNearest_meeting?_iff.mp hfirst, ?_⟩
  rintro ⟨q', e'⟩ hother
  obtain ⟨rfl, rfl⟩ := (firstNearest_meeting?_iff.mpr hother).unique hfirst
  rfl

end Combat.Tracker

/-! ## The swing -/

namespace Combat

open Tracker

/-- A swing hits a player exactly if the hand is free, the first entry of that player is within
reach, and the first of the nearest entries that the view meets is that player's, with no block
before it. No two players can be hit, and the bot never. -/
theorem canAttack_iff_meetsFirst {α : Type} [Trig α] [Ordered α] (t : Tracker α) :
    (∀ target, t.canAttack target = true ↔
      t.self.usingItem = false ∧
      (∃ victim, (t.players.find? fun p => p.id == target) = some victim ∧
        ¬t.config.maxReach < victim.box.distance t.self.eye) ∧
      ∃ p d, t.MeetsFirst p d ∧ p.id = target ∧
        t.world.raycast t.self.eye t.self.view d = none) ∧
    (∀ p ∈ t.players, ∀ d, t.Meets p d →
      ∃! first : Player α × α, t.MeetsFirst first.1 first.2) ∧
    (∀ (box : Box α) (origin direction : Vec α) (reach d : α),
      box.entry? origin direction reach = some d → isNumber d = true) ∧
    (∀ target target', t.canAttack target = true → t.canAttack target' = true →
      target = target') ∧
    t.canAttack t.self.id = false := by
  have hunder (target : PlayerId) : t.underCrosshair = some target ↔
      ∃ p d, t.MeetsFirst p d ∧ p.id = target ∧
        t.world.raycast t.self.eye t.self.view d = none := by
    simp only [underCrosshair_eq_some_iff, foldl_nearer_eq_some_iff, Option.not_isSome_iff_eq_none]
    constructor
    · rintro ⟨d, ⟨p, hfirst, hid⟩, hclear⟩
      exact ⟨p, d, hfirst, hid, hclear⟩
    · rintro ⟨p, d, hfirst, hid, hclear⟩
      exact ⟨d, ⟨p, hfirst, hid⟩, hclear⟩
  refine ⟨fun target => by rw [canAttack_eq_true_iff, hunder],
    fun p hp d hd => existsUnique_meetsFirst hp hd,
    fun box origin direction reach d => Box.isNumber_of_entry?, ?_, ?_⟩
  · intro target target' h h'
    rw [canAttack_eq_true_iff] at h h'
    exact Option.some.inj (h.2.2.symm.trans h'.2.2)
  · rw [Bool.eq_false_iff]
    intro h
    obtain ⟨p, d, hfirst, hid, -⟩ := (hunder _).mp ((canAttack_eq_true_iff ..).mp h).2.2
    exact hfirst.ne_self hid

def rowAhead : Tracker Float :=
  { (Tracker.new Config.standard ⟨0⟩ : Tracker Float) with
    players := [ahead 2 "Kim" (-2), ahead 3 "Lou" (-1)], world := World.empty }

theorem canAttack_iff_meetsFirst_rowAhead :
    rowAhead.canAttack ⟨3⟩ = true ∧ rowAhead.canAttack ⟨2⟩ = false ∧
      ∃ p d, rowAhead.MeetsFirst p d ∧ p.id = ⟨3⟩ := by
  have hit : rowAhead.canAttack ⟨3⟩ = true := by decide +kernel
  obtain ⟨hmeaning, -, -, hunique, -⟩ := canAttack_iff_meetsFirst rowAhead
  refine ⟨hit, Bool.eq_false_iff.mpr fun hother => ?_, ?_⟩
  · exact absurd (hunique _ _ hit hother) (by decide)
  · obtain ⟨-, -, p, d, hfirst, hid, -⟩ := (hmeaning _).mp hit
    exact ⟨p, d, hfirst, hid⟩

end Combat

end VoxelScout
