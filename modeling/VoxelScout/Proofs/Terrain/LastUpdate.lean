import Mathlib.Data.Finset.Card
import Mathlib.Data.List.DropRight
import Mathlib.Data.List.Induction
import VoxelScout.Terrain.Raycast

/-! # The last update of a cell decides

A grid is what the last update of each cell since the last reset has made of it, whatever
came before, whatever happened to other cells in between and however the updates are split
into batches. Blocks, the number of cells and rays can be told from these updates.
-/

namespace VoxelScout

/-! ## Edits -/

namespace Grid

inductive Edit where
  | set (voxel : Voxel) (name : String)
  | apply (updates : List BlockUpdate)
  | reset
  deriving DecidableEq, Repr

def Edit.updates : Edit → List BlockUpdate
  | .set voxel name => [{ voxel, name }]
  | .apply updates => updates
  | .reset => []

def edit (g : Grid) : Edit → Grid
  | .set voxel name => g.set { voxel, name }
  | .apply updates => g.apply updates
  | .reset => empty

def after (edits : List Edit) : Grid :=
  edits.foldl edit empty

/-- The updates since the last reset, in order. -/
def news (edits : List Edit) : List BlockUpdate :=
  (edits.rtakeWhile (· ≠ .reset)).flatMap Edit.updates

/-- The last of some updates that is about a cell. -/
def last? (updates : List BlockUpdate) (v : Voxel) : Option BlockUpdate :=
  updates.findRev? fun u => u.voxel == v

def Fills (u : BlockUpdate) : Prop :=
  u.name ≠ "" ∧ u.name ≠ "air"

theorem cellOf_of_fills {u : BlockUpdate} (hu : Fills u) :
    cellOf u = some ⟨u.name, u.solid.getD (Terrain.occludes u.name)⟩ := by
  simp [cellOf, hu.1, hu.2]

theorem cellOf_of_not_fills {u : BlockUpdate} (hu : ¬Fills u) : cellOf u = none := by
  have hair : ¬u.name = "" → u.name = "air" := by
    simpa [Fills] using hu
  simpa [cellOf] using hair

theorem cellOf_isSome {u : BlockUpdate} : (cellOf u).isSome = true ↔ Fills u := by
  by_cases hu : Fills u
  · simp [cellOf_of_fills hu, hu]
  · simp [cellOf_of_not_fills hu, hu]

/-! ## Cells -/

theorem get?_empty (v : Voxel) : empty.get? v = none := by
  simp [get?, empty]

theorem get?_set (g : Grid) (u : BlockUpdate) (v : Voxel) :
    (g.set u).get? v = if u.voxel = v then cellOf u else g.get? v := by
  unfold set
  cases hcell : cellOf u with
  | none => simp [get?, Std.HashMap.getElem?_erase]
  | some cell => simp [get?, Std.HashMap.getElem?_insert]

theorem last?_append (updates more : List BlockUpdate) (v : Voxel) :
    last? (updates ++ more) v = (last? more v).or (last? updates v) := by
  simp only [last?, List.findRev?_eq_find?_reverse, List.reverse_append, List.find?_append]

theorem get?_apply (g : Grid) (updates : List BlockUpdate) (v : Voxel) :
    (g.apply updates).get? v = ((last? updates v).map cellOf).getD (g.get? v) := by
  induction updates using List.reverseRecOn with
  | nil => rfl
  | append_singleton updates u ih =>
      rw [apply, List.foldl_append, List.foldl_cons, List.foldl_nil, ← apply, get?_set, ih,
        last?_append]
      by_cases hu : u.voxel = v <;> simp [last?, List.findRev?, hu]

theorem news_concat (edits : List Edit) (e : Edit) :
    news (edits ++ [e]) = if e = .reset then [] else news edits ++ e.updates := by
  by_cases he : e = .reset <;> simp [news, he]

theorem edit_eq (g : Grid) {e : Edit} (he : e ≠ .reset) : g.edit e = g.apply e.updates := by
  cases e with
  | set voxel name => rfl
  | apply updates => rfl
  | reset => exact absurd rfl he

/-- A cell holds what its last update since the last reset has put into it. -/
theorem get?_after (edits : List Edit) (v : Voxel) :
    (after edits).get? v = (last? (news edits) v).bind cellOf := by
  induction edits using List.reverseRecOn with
  | nil => exact get?_empty v
  | append_singleton edits e ih =>
      rw [after, List.foldl_append, List.foldl_cons, List.foldl_nil, ← after, news_concat]
      by_cases he : e = .reset
      · rw [if_pos he, he]
        exact get?_empty v
      · rw [if_neg he, edit_eq _ he, get?_apply, ih, last?_append]
        cases last? e.updates v <;> rfl

/-! ## What can be told from the cells -/

/-- The cells that hold a block can be counted. -/
theorem exists_card_eq_size (g : Grid) :
    ∃ voxels : Finset Voxel, (∀ v, v ∈ voxels ↔ (g.get? v).isSome = true) ∧
      g.size = voxels.card := by
  refine ⟨g.cells.keys.toFinset, fun v => ?_, ?_⟩
  · simp [get?]
  · rw [List.toFinset_card_of_nodup g.cells.nodup_keys, Std.HashMap.length_keys, size]

theorem size_congr {g g' : Grid} (h : ∀ v, g'.get? v = g.get? v) : g'.size = g.size := by
  obtain ⟨voxels, hvoxels, hsize⟩ := g.exists_card_eq_size
  obtain ⟨voxels', hvoxels', hsize'⟩ := g'.exists_card_eq_size
  have hsame : voxels' = voxels := by
    ext v
    rw [hvoxels, hvoxels', h]
  rw [hsize, hsize', hsame]

theorem solidAt_congr {g g' : Grid} (h : ∀ v, g'.get? v = g.get? v) : g'.solidAt = g.solidAt := by
  funext v
  rw [solidAt, solidAt, h]

variable {α : Type} [Scalar α]

theorem blockAt_congr {g g' : Grid} (h : ∀ v, g'.get? v = g.get? v) (p : Vec α) :
    g'.blockAt p = g.blockAt p := by
  rw [blockAt, blockAt, h]

theorem raycast_congr {g g' : Grid} (h : ∀ v, g'.get? v = g.get? v)
    (origin direction : Vec α) (reach : α) :
    g'.raycast origin direction reach = g.raycast origin direction reach := by
  rw [raycast, raycast, size_congr h, solidAt_congr h]

/-- Of each cell the last update since the last reset decides: which block is found at any
point of the cell, and whether the cell counts. Histories with the same last updates give
grids that answer the same. -/
theorem after_last_update_wins (α : Type) [Scalar α] (edits : List Edit) :
    (∀ (p : Vec α) u, last? (news edits) (Voxel.containing p) = some u → Fills u →
      (after edits).blockAt p = ⟨u.name, (Voxel.containing p).corner,
        u.solid.getD (Terrain.occludes u.name)⟩) ∧
    (∀ p : Vec α, (∀ u, last? (news edits) (Voxel.containing p) = some u → ¬Fills u) →
      (after edits).blockAt p = ⟨"air", (Voxel.containing p).corner, false⟩) ∧
    (∃ voxels : Finset Voxel, (after edits).size = voxels.card ∧
      ∀ v, v ∈ voxels ↔ ∃ u, last? (news edits) v = some u ∧ Fills u) ∧
    ∀ edits', (∀ v, last? (news edits') v = last? (news edits) v) →
      (after edits').size = (after edits).size ∧
      (∀ p : Vec α, (after edits').blockAt p = (after edits).blockAt p) ∧
      ∀ (origin direction : Vec α) (reach : α),
        (after edits').raycast origin direction reach =
          (after edits).raycast origin direction reach := by
  refine ⟨fun p u hu hfills => ?_, fun p hair => ?_, ?_, fun edits' hsame => ?_⟩
  · have hcell := get?_after edits (Voxel.containing p)
    rw [hu, Option.bind_some, cellOf_of_fills hfills] at hcell
    rw [blockAt, hcell]
  · have hcell : (after edits).get? (Voxel.containing p) = none := by
      rw [get?_after, Option.bind_eq_none_iff]
      exact fun u hu => cellOf_of_not_fills (hair u hu)
    rw [blockAt, hcell]
  · obtain ⟨voxels, hvoxels, hsize⟩ := (after edits).exists_card_eq_size
    refine ⟨voxels, hsize, fun v => ?_⟩
    rw [hvoxels, get?_after, Option.isSome_bind]
    cases last? (news edits) v with
    | none => simp
    | some u => simp [cellOf_isSome]
  · have hcells : ∀ v, (after edits').get? v = (after edits).get? v := by
      intro v
      rw [get?_after, get?_after, hsame]
    exact ⟨size_congr hcells, blockAt_congr hcells, raycast_congr hcells⟩

/-- Neither what came before the reset counts nor the flag of the update before the last. -/
example :
    let v : Voxel := ⟨0, 64, 0⟩
    last? (news [.set v "stone", .reset, .apply [⟨v, "water", some true⟩, ⟨v, "water", none⟩],
      .set ⟨1, 64, 0⟩ "dirt"]) v = some ⟨v, "water", none⟩ := by
  decide

end Grid

end VoxelScout
