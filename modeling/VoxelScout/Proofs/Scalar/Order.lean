import Mathlib
import VoxelScout.Proofs.Scalar.Value

/-! # Scalars in order

The numbers of a scalar type are ordered, up to equal ones, and what is no number compares with
nothing. Under these laws a scan that keeps the nearest so far ends with the first of the
nearest.
-/

namespace VoxelScout

namespace Scalar

/-- The laws of comparing scalars. -/
class Ordered (α : Type) [Scalar α] : Prop where
  lt_irrefl (a : α) : ¬a < a
  lt_trans {a b c : α} : a < b → b < c → a < c
  /-- A number is above the lower or below the upper one of two that are apart. -/
  lt_or_lt {a b c : α} : isNumber b = true → a < c → a < b ∨ b < c
  le_iff {a b : α} : a ≤ b ↔ isNumber a = true ∧ isNumber b = true ∧ ¬b < a
  belowTop_of_lt {a b : α} : a < b → belowTop a = true
  isNumber_of_lt {a b : α} : a < b → isNumber b = true
  isNumber_zero : isNumber (0 : α) = true

section Scan

variable {α β γ : Type} [Scalar α]

/-- An item takes the place of the nearest one so far if it is strictly nearer. The first one
has to be below the top. -/
def keepNearer (best : Option (α × γ)) (d : α) (c : γ) : Option (α × γ) :=
  match best with
  | none => if belowTop d then some (d, c) else none
  | some (least, _) => if d < least then some (d, c) else best

/-- The distance of the nearest item, and what is kept of it. Items without a distance are
passed over. -/
def scanNearest (distance? : β → Option α) (keep : β → γ) (items : List β) : Option (α × γ) :=
  items.foldl (fun best x =>
    match distance? x with
    | none => best
    | some d => keepNearer best d (keep x)) none

def LiesAt (distance? : β → Option α) (x : β) (d : α) : Prop :=
  distance? x = some d ∧ belowTop d = true

/-- Of all items that lie at a distance, `x` is the first one at the least. -/
def FirstNearest (distance? : β → Option α) (items : List β) (x : β) (d : α) : Prop :=
  ∃ before after, items = before ++ x :: after ∧ LiesAt distance? x d ∧
    (∀ y ∈ before, ∀ e, LiesAt distance? y e → d < e) ∧
    ∀ y ∈ after, ∀ e, LiesAt distance? y e → d ≤ e

variable {distance? : β → Option α} {keep : β → γ} {items : List β}

theorem isNumber_of_belowTop {a : α} (h : belowTop a = true) : isNumber a = true :=
  (Bool.and_eq_true_iff.mp h).1

theorem scanNearest_concat (items : List β) (z : β) :
    scanNearest distance? keep (items ++ [z]) =
      match distance? z with
      | none => scanNearest distance? keep items
      | some d => keepNearer (scanNearest distance? keep items) d (keep z) := by
  rw [scanNearest, List.foldl_append]
  rfl

theorem FirstNearest.concat {x z : β} {d : α} (h : FirstNearest distance? items x d)
    (hz : ∀ e, LiesAt distance? z e → d ≤ e) : FirstNearest distance? (items ++ [z]) x d := by
  obtain ⟨before, after, rfl, hx, hbefore, hafter⟩ := h
  refine ⟨before, after ++ [z], by simp, hx, hbefore, fun y hy => ?_⟩
  rcases List.mem_append.mp hy with hy | hy
  · exact hafter y hy
  · obtain rfl := List.mem_singleton.mp hy
    exact hz

/-- What a scan ends with: nothing if no item lies at a distance, and else what is kept of the
first of the nearest. -/
inductive Found (distance? : β → Option α) (keep : β → γ) (items : List β) :
    Option (α × γ) → Prop where
  | nothing (h : ∀ x ∈ items, ∀ d, ¬LiesAt distance? x d) : Found distance? keep items none
  | first {x : β} {d : α} (h : FirstNearest distance? items x d) :
      Found distance? keep items (some (d, keep x))

/-- An item that lies at no distance is passed over. -/
theorem Found.concat_of_not {best : Option (α × γ)} {z : β}
    (h : Found distance? keep items best) (hz : ∀ d, ¬LiesAt distance? z d) :
    Found distance? keep (items ++ [z]) best := by
  cases h with
  | nothing h =>
      refine .nothing fun x hx => ?_
      rcases List.mem_append.mp hx with hx | hx
      · exact h x hx
      · obtain rfl := List.mem_singleton.mp hx
        exact hz
  | first h => exact .first (h.concat fun e he => absurd he (hz e))

variable [Ordered α]

theorem lt_of_lt_of_le {a b c : α} (hab : a < b) (hbc : b ≤ c) : a < c := by
  obtain ⟨-, hc, hnot⟩ := Ordered.le_iff.mp hbc
  exact (Ordered.lt_or_lt hc hab).resolve_right hnot

/-- What is strictly nearer than the first of the nearest takes its place. -/
theorem FirstNearest.concat_of_lt {x z : β} {d e : α} (h : FirstNearest distance? items x d)
    (hz : distance? z = some e) (hlt : e < d) : FirstNearest distance? (items ++ [z]) z e := by
  obtain ⟨before, after, rfl, hx, hbefore, hafter⟩ := h
  refine ⟨_, [], rfl, ⟨hz, Ordered.belowTop_of_lt hlt⟩, fun y hy e' he' => ?_, by simp⟩
  rcases List.mem_append.mp hy with hy | hy
  · exact Ordered.lt_trans hlt (hbefore y hy e' he')
  · rcases List.mem_cons.mp hy with rfl | hy
    · obtain rfl : d = e' := Option.some.inj (hx.1.symm.trans he'.1)
      exact hlt
    · exact lt_of_lt_of_le hlt (hafter y hy e' he')

theorem Found.concat {best : Option (α × γ)} {z : β} {e : α}
    (h : Found distance? keep items best) (hz : distance? z = some e) :
    Found distance? keep (items ++ [z]) (keepNearer best e (keep z)) := by
  cases h with
  | nothing h =>
      by_cases he : belowTop e = true
      · rw [keepNearer, if_pos he]
        exact .first ⟨items, [], rfl, ⟨hz, he⟩, fun y hy e' he' => absurd he' (h y hy e'), by simp⟩
      · rw [keepNearer, if_neg he]
        refine Found.concat_of_not (.nothing h) fun d hd => he ?_
        rw [Option.some.inj (hz.symm.trans hd.1)]
        exact hd.2
  | @first x d h =>
      by_cases hlt : e < d
      · rw [keepNearer, if_pos hlt]
        exact .first (h.concat_of_lt hz hlt)
      · rw [keepNearer, if_neg hlt]
        refine .first (h.concat fun e' he' => ?_)
        obtain rfl : e = e' := Option.some.inj (hz.symm.trans he'.1)
        obtain ⟨-, -, -, hleast, -⟩ := h
        exact Ordered.le_iff.mpr
          ⟨isNumber_of_belowTop hleast.2, isNumber_of_belowTop he'.2, hlt⟩

theorem scanNearest_found (distance? : β → Option α) (keep : β → γ) (items : List β) :
    Found distance? keep items (scanNearest distance? keep items) := by
  induction items using List.reverseRecOn with
  | nil => exact .nothing (by simp)
  | append_singleton items z ih =>
      rw [scanNearest_concat]
      cases hz : distance? z with
      | none => exact ih.concat_of_not fun d hd => nomatch hz.symm.trans hd.1
      | some e => exact ih.concat hz

theorem FirstNearest.unique {x x' : β} {d d' : α} (h : FirstNearest distance? items x d)
    (h' : FirstNearest distance? items x' d') : x = x' ∧ d = d' := by
  obtain ⟨before, after, rfl, hx, hbefore, hafter⟩ := h
  obtain ⟨before', after', hsplit, hx', hbefore', hafter'⟩ := h'
  rcases List.append_eq_append_iff.mp hsplit with ⟨_ | ⟨y, between⟩, heq, hrest⟩ |
      ⟨_ | ⟨y, between⟩, heq, hrest⟩
  · obtain ⟨rfl, rfl⟩ := List.cons.inj hrest
    exact ⟨rfl, Option.some.inj (hx.1.symm.trans hx'.1)⟩
  · -- the first one stands before the second, which cannot be strictly nearer
    obtain ⟨rfl, rfl⟩ := List.cons.inj hrest
    have hless : d' < d := hbefore' _ (by simp [heq]) d hx
    have hleast : d ≤ d' := hafter _ (by simp) d' hx'
    exact absurd hless (Ordered.le_iff.mp hleast).2.2
  · obtain ⟨rfl, rfl⟩ := List.cons.inj hrest
    exact ⟨rfl, Option.some.inj (hx.1.symm.trans hx'.1)⟩
  · obtain ⟨rfl, rfl⟩ := List.cons.inj hrest
    have hless : d < d' := hbefore _ (by simp [heq]) d' hx'
    have hleast : d' ≤ d := hafter' _ (by simp) d hx
    exact absurd hless (Ordered.le_iff.mp hleast).2.2

theorem exists_firstNearest {x : β} {d : α} (hx : x ∈ items) (hd : LiesAt distance? x d) :
    ∃ y e, FirstNearest distance? items y e := by
  have hfound := scanNearest_found distance? id items
  generalize scanNearest distance? id items = best at hfound
  cases hfound with
  | nothing h => exact absurd hd (h x hx d)
  | first h => exact ⟨_, _, h⟩

theorem scanNearest_eq_some_iff {d : α} {c : γ} :
    scanNearest distance? keep items = some (d, c) ↔
      ∃ x, FirstNearest distance? items x d ∧ keep x = c := by
  have hfound := scanNearest_found distance? keep items
  constructor
  · intro h
    rw [h] at hfound
    cases hfound with
    | first hfirst => exact ⟨_, hfirst, rfl⟩
  · rintro ⟨x, hx, rfl⟩
    generalize scanNearest distance? keep items = best at hfound
    cases hfound with
    | nothing h =>
        obtain ⟨before, after, rfl, hd, -⟩ := hx
        exact absurd hd (h x (by simp) d)
    | first h =>
        obtain ⟨rfl, rfl⟩ := hx.unique h
        rfl

end Scan

end Scalar

/-! ## Floating point numbers -/

namespace Binary64

open Scalar

theorem isNumber_iff {x : Float} : isNumber x = true ↔ x.isNaN = false := by
  rw [isNumber, beq_iff]
  simp

theorem rank_inf : rank inf = ⊤ :=
  rfl

theorem isTop_of_lt {x y : Float} (h : x < y) : isTop x = false := by
  rw [Bool.eq_false_iff]
  intro htop
  have hrank : rank x = ⊤ := (beq_iff.mp htop).2.2
  exact not_top_lt (hrank ▸ (lt_iff.mp h).2.2)

instance : Ordered Float where
  lt_irrefl _ h := lt_irrefl _ (lt_iff.mp h).2.2
  lt_trans hab hbc := by
    obtain ⟨ha, -, hab⟩ := lt_iff.mp hab
    obtain ⟨-, hc, hbc⟩ := lt_iff.mp hbc
    exact lt_iff.mpr ⟨ha, hc, hab.trans hbc⟩
  lt_or_lt {a b c} hb hac := by
    obtain ⟨ha, hc, hac⟩ := lt_iff.mp hac
    have hb := isNumber_iff.mp hb
    exact (lt_or_ge (rank a) (rank b)).imp (fun h => lt_iff.mpr ⟨ha, hb, h⟩)
      fun h => lt_iff.mpr ⟨hb, hc, h.trans_lt hac⟩
  le_iff {a b} := by
    rw [le_iff, isNumber_iff, isNumber_iff]
    refine and_congr_right fun ha => and_congr_right fun hb => ?_
    rw [lt_iff, not_and, not_and, not_lt]
    exact ⟨fun h _ _ => h, fun h => h hb ha⟩
  belowTop_of_lt h :=
    Bool.and_eq_true_iff.mpr ⟨isNumber_iff.mpr (lt_iff.mp h).1, by rw [isTop_of_lt h]; rfl⟩
  isNumber_of_lt h := isNumber_iff.mpr (lt_iff.mp h).2.1
  isNumber_zero := isNumber_iff.mpr rfl

end Binary64

end VoxelScout
