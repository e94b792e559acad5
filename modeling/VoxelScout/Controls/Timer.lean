import VoxelScout.Clock
import VoxelScout.Controls.Axis

/-! # Timed controls

A control is held down for a while and then let go. The timer remembers until when each
control is held; a control that is not held has no such instant. Every change comes with
the events that tell the host about it, a press or a release.
-/

namespace VoxelScout.Controls

structure Event where
  axis : Axis
  pressed : Bool
  deriving DecidableEq, Repr

structure Timer where
  expiries : Vector Instant 7
  deriving DecidableEq, Repr

namespace Timer

def idle : Timer :=
  ⟨Vector.replicate 7 Instant.unset⟩

/-- Until when a control is held; `Instant.unset` when it is not. -/
def expiry (t : Timer) (axis : Axis) : Instant :=
  t.expiries[axis.index]

def active (t : Timer) (axis : Axis) : Bool :=
  !(t.expiry axis).isUnset

def setExpiry (t : Timer) (axis : Axis) (instant : Instant) : Timer :=
  ⟨t.expiries.set axis.index instant⟩

/-- Holds a control for a duration from now on. An earlier end is overwritten. -/
def activate (t : Timer) (axis : Axis) (now : Instant) (d : Duration) : Timer × List Event :=
  (t.setExpiry axis (now.add d), [⟨axis, true⟩])

def release (t : Timer) (axes : List Axis) : Timer × List Event :=
  (axes.foldl (fun t a => t.setExpiry a Instant.unset) t, axes.map fun a => ⟨a, false⟩)

/-- The controls whose time is over: those held until before `now`. -/
def expired (t : Timer) (now : Instant) : List Axis :=
  Axis.all.filter fun a => t.active a && (t.expiry a).before now

def held (t : Timer) : List Axis :=
  Axis.all.filter t.active

def tick (t : Timer) (now : Instant) : Timer × List Event :=
  t.release (t.expired now)

def releaseAll (t : Timer) : Timer × List Event :=
  t.release t.held

end Timer

end VoxelScout.Controls
