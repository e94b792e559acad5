import VoxelScout.Geometry.Vec
import VoxelScout.Random

/-! # Points on a spherical cap

A point seen from an origin is blurred by turning it about the origin through at most a
given angle. Its distance is kept, and every direction within the angle is equally
likely.
-/

namespace VoxelScout.Cap

open Scalar

variable {α : Type} [Trig α]

def alignment : α :=
  0.9999

/-- Two directions that complete a direction `s` of length one to an orthonormal basis:
the first one is perpendicular to `s` and to an axis that `s` is not close to. -/
def basis (s : Vec α) : Vec α × Vec α :=
  let helper : Vec α := if alignment < abs s.x then ⟨0, 1, 0⟩ else ⟨1, 0, 0⟩
  let u := (helper.cross s).unit
  (u, s.cross u)

/-- The point at distance `r` from the origin whose direction makes an angle of cosine
`cosTheta` with `s`, turned about `s` by `phi`. -/
def point (origin s : Vec α) (r phi cosTheta : α) : Vec α :=
  let sinTheta := Trig.sqrt (larger 0 (1 - cosTheta * cosTheta))
  let (u, v) := basis s
  let p := ((u.scale (r * sinTheta * Trig.cos phi)).add (v.scale (r * sinTheta * Trig.sin phi))).add
    (s.scale (r * cosTheta))
  origin.add p

def fullTurn : α :=
  2 * Trig.pi

/-- The source as heard from the origin, and the random source after the two draws. A
source at the origin is heard exactly, and nothing is drawn. -/
def blur (source origin : Vec α) (maxDegrees : α) (random : Random) : Vec α × Random :=
  let relative := source.sub origin
  let r := relative.norm
  if r == 0 then (origin, random)
  else
    let s := relative.scale (1 / r)
    let cosMax := Trig.cos (Trig.radians maxDegrees)
    let (phi, random) := random.uniform 0 fullTurn
    let (cosTheta, random) := random.uniform cosMax 1
    (point origin s r phi cosTheta, random)

end VoxelScout.Cap
