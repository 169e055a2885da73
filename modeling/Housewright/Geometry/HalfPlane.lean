import Housewright.Geometry.Ring

/-!
# Half-planes and clipping

A half-plane is bounded by the directed line from `a` to `b` and keeps one side of it.
The side of a point `p` is the sign of `(p - a) × (b - a)`: `left` keeps the points where
it is not negative, `right` those where it is not positive, both up to a tolerance.

`Ring.clip` cuts a ring with a half-plane, edge by edge: the end of an edge is kept if it
lies inside, and where an edge changes sides the point on the line is added.  Nearly
parallel edges and hits beyond the edge add none.  `Ring.clipAll` cuts with one plane
after the other.
-/

namespace Housewright

/-- One side of a directed line. -/
inductive Side where
  | left
  | right
  deriving DecidableEq, Repr

/-- The other side. -/
def Side.opposite : Side → Side
  | .left => .right
  | .right => .left

@[simp] theorem Side.opposite_opposite (s : Side) : s.opposite.opposite = s := by
  cases s <;> rfl

/-- The half-plane on one side of the directed line from `a` to `b`. -/
structure HalfPlane (α : Type) where
  a : Point α
  b : Point α
  keep : Side
  deriving BEq, Repr

variable {α : Type} [Scalar α]

/-- The side of `p` seen along the line from `a` to `b`. -/
def sideOfLine (p a b : Point α) : α := (p.x - a.x) * (b.y - a.y) - (p.y - a.y) * (b.x - a.x)

/-- Whether the half-plane keeps a point, up to the tolerance. -/
def HalfPlane.keeps (h : HalfPlane α) (eps : α) (p : Point α) : Bool :=
  match h.keep with
  | .left => decide (-eps ≤ sideOfLine p h.a h.b)
  | .right => decide (sideOfLine p h.a h.b ≤ eps)

/-- Where the segment from `p` to `q` meets the line through `a` and `b`. -/
def segmentMeetsLine? (p q a b : Point α) : Computed (Option (Point α)) :=
  let r := Vec.between p q
  let s := Vec.between a b
  let denominator := r.x * s.y - r.y * s.x
  if Scalar.abs denominator < Tolerance.geometry then .ok none
  else do
    let w := Vec.between p a
    let t ← Scalar.divide (w.x * s.y - w.y * s.x) denominator
    if t < -Tolerance.geometry ∨ 1.0 + Tolerance.geometry < t then return none
    else return some ⟨p.x + t * r.x, p.y + t * r.y⟩

namespace Ring

/-- What the edge from `p` to `q` adds to the clipped ring. -/
def clipEdge (h : HalfPlane α) (eps : α) (p q : Point α) : Computed (List (Point α)) := do
  match h.keeps eps p, h.keeps eps q with
  | true, true => return [q]
  | true, false => return (← segmentMeetsLine? p q h.a h.b).toList
  | false, true => return (← segmentMeetsLine? p q h.a h.b).toList ++ [q]
  | false, false => return []

/-- The part of the ring that the half-plane keeps; fewer than three vertices if there is
none. -/
def clip (r : Ring α) (h : HalfPlane α) (eps : α) : Computed (Ring α) := do
  let points := (← r.edgesInto.mapM fun (p, q) => clipEdge h eps p q).flatten
  if points.length < 3 then return points else withoutRepeats eps points

/-- The square around the origin that regions are clipped from. -/
def referenceSquare (h : α) : Ring α := [⟨-h, -h⟩, ⟨h, -h⟩, ⟨h, h⟩, ⟨-h, h⟩]

/-- The rings left after each of the half-planes in turn. -/
def clipAll (eps : α) (r : Ring α) : List (HalfPlane α) → Computed (List (Ring α))
  | [] => .ok []
  | h :: rest => do
    let clipped ← r.clip h eps
    return clipped :: (← clipAll eps clipped rest)

end Ring

end Housewright
