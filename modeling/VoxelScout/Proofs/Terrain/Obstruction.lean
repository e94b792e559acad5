import VoxelScout.Proofs.Combat.Bystanders
import VoxelScout.Proofs.Terrain.LastUpdate

/-! # Terrain only hides

A ray that is stopped is still stopped when more cells are solid. So more solid cells can hide
a player who was seen and keep a swing from hitting, and nothing else, and cells that are not
solid make no difference at all.
-/

namespace VoxelScout

/-! ## Rays -/

namespace Terrain.Walk

variable {α : Type} [Scalar α] {solid solid' : Voxel → Option String}

def firstBlock (solid : Voxel → Option String) (origin direction : Vec α) (reach : α) :
    Option (Block α) :=
  if reach ≤ 0 then none
  else
    (firstSolid solid reach (budget direction reach) 0 (start origin direction)).map
      fun (v, name) => ⟨name, v.corner, true⟩

/-- However many cells a walk may visit, it finds something if it did with fewer solid cells. -/
theorem firstSolid_isSome_mono (h : ∀ v, (solid v).isSome = true → (solid' v).isSome = true)
    (reach : α) {fuel : Nat} {t : α} {w : Walk α}
    (hfound : (firstSolid solid reach fuel t w).isSome = true) :
    (firstSolid solid' reach fuel t w).isSome = true := by
  induction fuel generalizing t w with
  | zero => cases hfound
  | succ fuel ih =>
      unfold firstSolid at hfound ⊢
      by_cases ht : t ≤ reach
      · rw [if_pos ht] at hfound ⊢
        cases hcell' : solid' w.cell with
        | some name => rfl
        | none =>
            have hcell : solid w.cell = none := by
              have hle := h w.cell
              simpa [hcell'] using hle
            rw [hcell] at hfound
            cases hcross : w.cross with
            | none => simp [hcross] at hfound
            | some next =>
                simp only [hcross] at hfound ⊢
                by_cases htop : Scalar.isTop next.1 = true
                · simp [htop] at hfound
                · simp only [htop] at hfound ⊢
                  exact ih hfound
      · simp [ht] at hfound

theorem firstSolid_none (reach : α) (fuel : Nat) (t : α) (w : Walk α) :
    firstSolid (fun _ => none) reach fuel t w = none := by
  induction fuel generalizing t w with
  | zero => rfl
  | succ fuel ih =>
      unfold firstSolid
      split
      · cases w.cross with
        | none => rfl
        | some next =>
            simp only [ih]
            split <;> rfl
      · rfl

end Terrain.Walk

/-! ## Grids -/

namespace Grid

variable {α : Type} [Scalar α]

theorem get?_of_size_eq_zero {g : Grid} (hsize : g.size = 0) (v : Voxel) : g.get? v = none := by
  obtain ⟨voxels, hvoxels, hcard⟩ := g.exists_card_eq_size
  rw [hsize, eq_comm, Finset.card_eq_zero] at hcard
  have hnot := (hvoxels v).not.mp (by simp [hcard])
  simpa using hnot

/-- That rays through a grid without any block are not followed makes no difference. -/
theorem raycast_eq (g : Grid) (origin direction : Vec α) (reach : α) :
    g.raycast origin direction reach =
      Terrain.Walk.firstBlock g.solidAt origin direction reach := by
  by_cases hsize : g.size = 0
  · have hsolid : g.solidAt = fun _ => none := by
      funext v
      rw [solidAt, get?_of_size_eq_zero hsize]
    simp [raycast, Terrain.Walk.firstBlock, hsize, hsolid, Terrain.Walk.firstSolid_none]
  · simp [raycast, Terrain.Walk.firstBlock, hsize]

/-- Whoever looks out of a solid cell sees nothing but the block around the eyes. -/
theorem raycast_isSome_of_solid (g : Grid) {origin : Vec α} {name : String}
    (hsolid : g.solidAt (Voxel.containing origin) = some name) {direction : Vec α} {reach : α}
    (hreach : ¬reach ≤ 0) (hstart : 0 ≤ reach) :
    (g.raycast origin direction reach).isSome = true := by
  obtain ⟨fuel, hbudget⟩ : ∃ fuel, Terrain.Walk.budget direction reach = fuel + 1 := ⟨_, rfl⟩
  have hcell : g.solidAt (Terrain.Walk.start origin direction).cell = some name := hsolid
  rw [raycast_eq, Terrain.Walk.firstBlock, if_neg hreach, hbudget, Terrain.Walk.firstSolid,
    if_pos hstart, hcell]
  rfl

/-- Every solid cell of the one grid is a solid cell of the other. -/
def Clearer (g g' : Grid) : Prop :=
  ∀ v, (g.solidAt v).isSome = true → (g'.solidAt v).isSome = true

theorem Clearer.raycast_isSome {g g' : Grid} (h : g.Clearer g') {origin direction : Vec α}
    {reach : α} (hfound : (g.raycast origin direction reach).isSome = true) :
    (g'.raycast origin direction reach).isSome = true := by
  rw [raycast_eq] at hfound ⊢
  unfold Terrain.Walk.firstBlock at hfound ⊢
  by_cases hreach : reach ≤ 0
  · simp [hreach] at hfound
  · rw [if_neg hreach, Option.isSome_map] at hfound ⊢
    exact Terrain.Walk.firstSolid_isSome_mono h reach hfound

theorem solidAt_set (g : Grid) (u : BlockUpdate) (v : Voxel) :
    (g.set u).solidAt v =
      if u.voxel = v then ((cellOf u).filter (·.solid)).map (·.name) else g.solidAt v := by
  rw [solidAt, get?_set]
  by_cases hu : u.voxel = v
  · rw [if_pos hu, if_pos hu]
    cases cellOf u with
    | none => rfl
    | some cell => cases hsolid : cell.solid <;> simp [hsolid]
  · rw [if_neg hu, if_neg hu, solidAt]

/-- Updates without solid cells leave the solid cells alone, if they are about others. -/
theorem solidAt_apply {g : Grid} {updates : List BlockUpdate}
    (h : ∀ u ∈ updates, g.solidAt u.voxel = none ∧ ∀ cell, cellOf u = some cell →
      cell.solid = false) (v : Voxel) : (g.apply updates).solidAt v = g.solidAt v := by
  induction updates generalizing g with
  | nil => rfl
  | cons u rest ih =>
      obtain ⟨hbefore, hafter⟩ := h u List.mem_cons_self
      have hset (v : Voxel) : (g.set u).solidAt v = g.solidAt v := by
        rw [solidAt_set]
        split
        · next hu =>
            rw [← hu, hbefore]
            cases hcell : cellOf u with
            | none => rfl
            | some cell => simp [hafter cell hcell]
        · rfl
      have hrest : ∀ u' ∈ rest, (g.set u).solidAt u'.voxel = none ∧
          ∀ cell, cellOf u' = some cell → cell.solid = false := by
        intro u' hu'
        rw [hset]
        exact h u' (List.mem_cons_of_mem u hu')
      rw [apply, List.foldl_cons, ← apply, ih hrest, hset]

end Grid

/-! ## Sight and swings in other terrain -/

section Observers

variable {α : Type} [Trig α]

/-- Whatever ray the one terrain stops, the other stops. -/
def World.Clearer (w w' : World α) : Prop :=
  ∀ origin direction reach, (w.raycast origin direction reach).isSome = true →
    (w'.raycast origin direction reach).isSome = true

/-- Of the terrain sight asks only whether the line to the player is stopped. -/
theorem Sight.classify_congr {w w' : World α} {self : Pose α} {p : Player α}
    (h : (w'.raycast self.eye (p.center.sub self.eye).normalize
      (p.center.sub self.eye).norm).isSome =
        (w.raycast self.eye (p.center.sub self.eye).normalize
          (p.center.sub self.eye).norm).isSome) (config : Config α) :
    classify config self p w' = classify config self p w := by
  unfold classify
  simp only [h]

theorem Sight.classify_of_clearer {w w' : World α} (h : w.Clearer w') (config : Config α)
    (self : Pose α) (p : Player α) :
    classify config self p w' = classify config self p w ∨
      classify config self p w = .direct ∧ classify config self p w' = .obstructed := by
  have hray := h self.eye (p.center.sub self.eye).normalize (p.center.sub self.eye).norm
  rcases Bool.eq_or_eq_not (w'.raycast self.eye (p.center.sub self.eye).normalize
      (p.center.sub self.eye).norm).isSome (w.raycast self.eye (p.center.sub self.eye).normalize
      (p.center.sub self.eye).norm).isSome with hsame | hdiffers
  · exact .inl (classify_congr hsame config)
  · -- then the line is stopped by the terrain with more solid cells
    unfold classify
    grind

namespace Combat.Tracker

theorem underCrosshair_eq_some_iff {t : Tracker α} {id : PlayerId} :
    t.underCrosshair = some id ↔
      ∃ d, t.players.foldl (nearer t.config t.self) none = some (d, id) ∧
        ¬(t.world.raycast t.self.eye t.self.view d).isSome = true := by
  unfold underCrosshair
  cases t.players.foldl (nearer t.config t.self) none with
  | none => simp
  | some best =>
      cases hray : t.world.raycast t.self.eye t.self.view best.1 <;>
        simp [hray, Prod.ext_iff]

theorem underCrosshair_of_clearer {w w' : World α} (h : w.Clearer w') {t : Tracker α}
    {id : PlayerId} (hunder : underCrosshair { t with world := w' } = some id) :
    underCrosshair { t with world := w } = some id := by
  rw [underCrosshair_eq_some_iff] at hunder ⊢
  obtain ⟨d, hbest, hray⟩ := hunder
  exact ⟨d, hbest, mt (h _ _ d) hray⟩

theorem canAttack_of_clearer {w w' : World α} (h : w.Clearer w') {t : Tracker α}
    {target : PlayerId} (hcan : canAttack { t with world := w' } target = true) :
    canAttack { t with world := w } target = true := by
  rw [canAttack_eq_true_iff] at hcan ⊢
  obtain ⟨hfree, hreach, hunder⟩ := hcan
  exact ⟨hfree, hreach, underCrosshair_of_clearer h hunder⟩

theorem canAttack_congr {w w' : World α} (h : w'.raycast = w.raycast) (t : Tracker α)
    (target : PlayerId) :
    canAttack { t with world := w' } target = canAttack { t with world := w } target := by
  have hunder : underCrosshair { t with world := w' } = underCrosshair { t with world := w } := by
    rw [underCrosshair, underCrosshair, h]
  rw [canAttack, canAttack, hunder]

end Combat.Tracker

/-- Whoever looks out of a solid cell sees nobody. -/
theorem Grid.classify_ne_direct_of_solid (g : Grid) {self : Pose α} {name : String}
    (hsolid : g.solidAt (Voxel.containing self.eye) = some name) {p : Player α}
    (hapart : ¬(p.center.sub self.eye).norm ≤ 0) (hstart : 0 ≤ (p.center.sub self.eye).norm)
    (config : Sight.Config α) : Sight.classify config self p g.world ≠ .direct := by
  have hray : ((g.world : World α).raycast self.eye (p.center.sub self.eye).normalize
      (p.center.sub self.eye).norm).isSome = true :=
    g.raycast_isSome_of_solid hsolid hapart hstart
  unfold Sight.classify
  simp only [hray]
  split
  · simp
  · split <;> simp

/-- Neither rays nor sight nor swings can tell the one grid from the other. -/
structure Grid.Interchangeable (α : Type) [Trig α] (g g' : Grid) : Prop where
  raycast : ∀ (origin direction : Vec α) (reach : α),
    g'.raycast origin direction reach = g.raycast origin direction reach
  classify : ∀ (config : Sight.Config α) (self : Pose α) (p : Player α),
    Sight.classify config self p g'.world = Sight.classify config self p g.world
  canAttack : ∀ (t : Combat.Tracker α) (target : PlayerId),
    Combat.Tracker.canAttack { t with world := g'.world } target =
      Combat.Tracker.canAttack { t with world := g.world } target

theorem Grid.interchangeable_of_solidAt {g g' : Grid} (h : ∀ v, g'.solidAt v = g.solidAt v) :
    Interchangeable α g g' := by
  have hray : (g'.world : World α).raycast = g.world.raycast := by
    funext origin direction reach
    change g'.raycast origin direction reach = g.raycast origin direction reach
    rw [raycast_eq, raycast_eq, funext h]
  exact ⟨fun origin direction reach => congrFun (congrFun (congrFun hray origin) direction) reach,
    fun config _ _ => Sight.classify_congr (by rw [hray]) config,
    Combat.Tracker.canAttack_congr hray⟩

end Observers

/-- More solid cells stop more rays, however many cells a walk may visit, and can only hide
whom the bot saw and keep it from hitting whom it would hit. With the same solid cells all is
the same, and so cells that are not solid do not matter. -/
theorem terrain_only_hides {α : Type} [Trig α] {g g' : Grid} (h : g.Clearer g') :
    (∀ (origin direction : Vec α) (reach : α),
      (g.raycast origin direction reach).isSome = true →
        (g'.raycast origin direction reach).isSome = true) ∧
    (∀ (fuel : Nat) (reach t : α) (w : Terrain.Walk α),
      (Terrain.Walk.firstSolid g.solidAt reach fuel t w).isSome = true →
        (Terrain.Walk.firstSolid g'.solidAt reach fuel t w).isSome = true) ∧
    (∀ (config : Sight.Config α) (self : Pose α) (p : Player α),
      Sight.classify config self p g'.world = Sight.classify config self p g.world ∨
        Sight.classify config self p g.world = .direct ∧
          Sight.classify config self p g'.world = .obstructed) ∧
    (∀ (t : Combat.Tracker α) (target : PlayerId),
      Combat.Tracker.canAttack { t with world := g'.world } target = true →
        Combat.Tracker.canAttack { t with world := g.world } target = true) ∧
    ((∀ v, g'.solidAt v = g.solidAt v) → g.Interchangeable α g') ∧
    ∀ updates : List BlockUpdate,
      (∀ u ∈ updates, g.solidAt u.voxel = none ∧
        ∀ cell, Grid.cellOf u = some cell → cell.solid = false) →
      g.Interchangeable α (g.apply updates) := by
  have hworld : World.Clearer (α := α) g.world g'.world :=
    fun _ _ _ hfound => h.raycast_isSome hfound
  refine ⟨fun _ _ _ => h.raycast_isSome,
    fun _ reach _ _ => Terrain.Walk.firstSolid_isSome_mono h reach,
    Sight.classify_of_clearer hworld, fun _ _ => Combat.Tracker.canAttack_of_clearer hworld,
    Grid.interchangeable_of_solidAt, fun updates hupdates => ?_⟩
  exact Grid.interchangeable_of_solidAt (Grid.solidAt_apply hupdates)

/-- Water around the eyes of a bot hides nobody and does not keep it from hitting. Stone in its
place hides the player in front, and still does after dirt was put somewhere else. -/
theorem terrain_only_hides_stone :
    let self : Pose Float := { (Pose.initial : Pose Float) with id := ⟨1⟩ }
    let p := Combat.ahead 2 "Kim" (-2)
    let t := { Combat.newcomer.combat with self, players := [p] }
    let pond := Grid.empty.apply [⟨Voxel.containing self.eye, "water", none⟩]
    let rock := pond.set ⟨Voxel.containing self.eye, "stone", none⟩
    let hill := rock.set ⟨⟨7, 64, 7⟩, "dirt", none⟩
    rock.Clearer hill ∧
    Sight.classify Sight.Config.standard self p pond.world = .direct ∧
    Combat.Tracker.canAttack { t with world := pond.world } ⟨2⟩ = true ∧
    Sight.classify Sight.Config.standard self p rock.world = .obstructed ∧
    Sight.classify Sight.Config.standard self p hill.world = .obstructed := by
  intro self p t pond rock hill
  have hopen (v : Voxel) : Grid.empty.solidAt v = none := by
    rw [Grid.solidAt, Grid.get?_empty]
  have hray : (Grid.empty.world : World Float).raycast = World.empty.raycast := by
    funext origin direction reach
    change Grid.empty.raycast origin direction reach = none
    rw [Grid.raycast_eq, funext hopen, Terrain.Walk.firstBlock, Terrain.Walk.firstSolid_none]
    exact ite_self none
  have hwater : ∀ u ∈ [(⟨Voxel.containing self.eye, "water", none⟩ : BlockUpdate)],
      Grid.empty.solidAt u.voxel = none ∧ ∀ cell, Grid.cellOf u = some cell →
        cell.solid = false := by
    intro u hu
    obtain rfl := List.mem_singleton.mp hu
    refine ⟨hopen _, fun cell hcell => ?_⟩
    cases hcell
    decide
  have hpond : pond.Clearer rock := by
    intro v hv
    rw [Grid.solidAt_apply hwater, hopen] at hv
    cases hv
  have hdirt : rock.Clearer hill := by
    intro v hv
    rw [Grid.solidAt_set]
    split
    · decide
    · exact hv
  have hstone : rock.solidAt (Voxel.containing self.eye) = some "stone" := by
    rw [Grid.solidAt_set, if_pos rfl]
    decide
  obtain ⟨-, -, -, -, -, hplants⟩ :=
    terrain_only_hides (α := Float) (fun _ hv => hv : Grid.empty.Clearer Grid.empty)
  have hsame := hplants _ hwater
  have hdirect : Sight.classify Sight.Config.standard self p pond.world = .direct := by
    rw [hsame.classify, Sight.classify_congr (by rw [hray])]
    decide +kernel
  obtain ⟨-, -, hrock, -⟩ := terrain_only_hides (α := Float) hpond
  have hhidden : Sight.classify Sight.Config.standard self p rock.world = .obstructed := by
    rcases hrock Sight.Config.standard self p with hseen | ⟨-, hhidden⟩
    · exact absurd (hseen.trans hdirect) (rock.classify_ne_direct_of_solid hstone
        (by decide +kernel) (by decide +kernel) _)
    · exact hhidden
  obtain ⟨-, -, hhill, -⟩ := terrain_only_hides (α := Float) hdirt
  refine ⟨hdirt, hdirect, ?_, hhidden, ?_⟩
  · rw [hsame.canAttack, Combat.Tracker.canAttack_congr hray]
    decide +kernel
  · rcases hhill Sight.Config.standard self p with hstays | ⟨-, hhidden⟩
    · exact hstays.trans hhidden
    · exact hhidden

end VoxelScout
