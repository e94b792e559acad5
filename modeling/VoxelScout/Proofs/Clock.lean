import VoxelScout.Clock

/-! # The range of durations

A difference of instants stops at the ends of the range of durations, a product of 64-bit words
wraps around. Either way a duration that is in range is left as it is, but only the first keeps
longer spans of time longer.
-/

namespace VoxelScout

namespace Duration

theorem saturate_mono {a b : Int} (h : a ≤ b) : saturate a ≤ saturate b := by
  have hends : shortest ≤ longest := by decide
  unfold saturate
  grind

theorem le_saturate {d e : Int} (hd : d ≤ longest) (h : d ≤ e) : d ≤ saturate e := by
  have hends : shortest ≤ longest := by decide
  unfold saturate
  grind

theorem wrap_le_longest (d : Int) : wrap d ≤ longest := by
  have hlt : Int.bmod d (Nat.pow 2 64) < (((Nat.pow 2 64 : Nat) : Int) + 1) / 2 :=
    Int.bmod_lt (by decide)
  have hhalf : (((Nat.pow 2 64 : Nat) : Int) + 1) / 2 = longest + 1 := by decide
  rw [hhalf] at hlt
  exact Int.lt_add_one_iff.mp hlt

/-- A span of time that is not negative survives in 64 bits exactly if it is no longer than
the longest duration. -/
theorem wrap_eq_self_iff {d : Int} (hd : 0 ≤ d) : wrap d = d ↔ d ≤ longest := by
  constructor
  · intro h
    rw [← h]
    exact wrap_le_longest d
  · intro h
    have hhalf : ((Nat.pow 2 64 : Nat) : Int) / 2 = longest + 1 := by decide
    have hodd : (((Nat.pow 2 64 : Nat) : Int) + 1) / 2 = longest + 1 := by decide
    have hpos : (0 : Int) < longest + 1 := by decide
    exact Int.bmod_eq_of_le (by omega) (by omega)

end Duration

theorem Instant.since_mono {t₁ t₂ : Instant} (h : t₁.nanos ≤ t₂.nanos) (s : Instant) :
    t₁.since s ≤ t₂.since s :=
  Duration.saturate_mono (by omega)

end VoxelScout
