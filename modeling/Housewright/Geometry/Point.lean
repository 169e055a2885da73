import Housewright.Tolerance

/-!
# Points and vectors

Points lie in the plan, `Point3` adds an elevation.

* `Point.distance` is the Euclidean distance, an error when a square overflows.
* `Point.agrees` is equality up to a tolerance, and `Point.gridKey` rounds a point to a
  grid.  `distinct` counts points the way a set keyed by the grid does: a point is new
  unless an earlier one has the same key and agrees with it.
-/

namespace Housewright

/-- A point in the plan. -/
structure Point (α : Type) where
  x : α
  y : α
  deriving BEq, Repr, Inhabited

/-- A direction or displacement in the plan. -/
structure Vec (α : Type) where
  x : α
  y : α
  deriving BEq, Repr, Inhabited

/-- A point with an elevation. -/
structure Point3 (α : Type) where
  x : α
  y : α
  z : α
  deriving BEq, Repr, Inhabited

variable {α : Type} [Scalar α]

namespace Vec

/-- The vector from one point to another. -/
def between (p q : Point α) : Vec α := ⟨q.x - p.x, q.y - p.y⟩

/-- The length of a vector. -/
def length (v : Vec α) : α := Scalar.hypot v.x v.y

/-- The oriented area of the parallelogram of two vectors. -/
def cross (u v : Vec α) : α := u.x * v.y - u.y * v.x

/-- The vector turned left by a right angle. -/
def left (v : Vec α) : Vec α := ⟨-v.y, v.x⟩

/-- The vector turned right by a right angle. -/
def right (v : Vec α) : Vec α := ⟨v.y, -v.x⟩

/-- The zero vector. -/
def zero : Vec α := ⟨0.0, 0.0⟩

/-- The vector divided by a number. -/
def divide (v : Vec α) (d : α) : Computed (Vec α) := do
  return ⟨← Scalar.divide v.x d, ← Scalar.divide v.y d⟩

/-- The vector scaled to length one, and the zero vector for one that is too short. -/
def unit (v : Vec α) : Computed (Vec α) :=
  if v.length < Tolerance.geometry then .ok zero else v.divide v.length

end Vec

namespace Point

/-- The point reached from `p` along `v`, `t` times. -/
def shift (p : Point α) (v : Vec α) (t : α) : Point α := ⟨p.x + v.x * t, p.y + v.y * t⟩

/-- Euclidean distance. -/
def distance (p q : Point α) : Computed α := do
  return Scalar.sqrt ((← Scalar.square (p.x - q.x)) + (← Scalar.square (p.y - q.y)))

/-- Two numbers are close if they are equal, or differ by at most a millionth or by at most
`10⁻⁹` of the larger one. -/
def close (a b : α) : Bool :=
  let d := Scalar.abs (b - a)
  a == b || Scalar.isFinite a && Scalar.isFinite b &&
    (decide (d ≤ Scalar.abs (1e-9 * b)) || decide (d ≤ Scalar.abs (1e-9 * a)) ||
      decide (d ≤ 1e-6))

/-- Equality up to the tolerance of `close`. -/
def agrees (p q : Point α) : Bool := close p.x q.x && close p.y q.y

/-- The point rounded to six decimal places. -/
def gridKey (p : Point α) : Point α := ⟨Scalar.roundTo 6 p.x, Scalar.roundTo 6 p.y⟩

/-- One point of every group that shares a key and agrees, the first to come. -/
def distinct (points : List (Point α)) : List (Point α) :=
  points.foldl
    (fun kept p =>
      if kept.any fun q => q.gridKey == p.gridKey && q.agrees p then kept else kept ++ [p])
    []

/-- The index of the first point that agrees. -/
def firstMatch? (points : List (Point α)) (p : Point α) : Option Nat :=
  points.findIdx? fun q => q.agrees p

end Point

namespace Point3

/-- Euclidean distance in space. -/
def distance (p q : Point3 α) : Computed α := do
  let x ← Scalar.square (p.x - q.x)
  let y ← Scalar.square (p.y - q.y)
  let z ← Scalar.square (p.z - q.z)
  return Scalar.sqrt (x + y + z)

end Point3

end Housewright
