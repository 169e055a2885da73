import Housewright.Geometry.Ring

/-!
# Points in polygons

`Ring.contains` decides by ray casting whether a point lies in a ring: a ray to the right
is cut by an odd number of edges.  Points within `eps` of an edge count as inside;
`distanceToSegment` measures that.  Rings of fewer than three vertices contain nothing.
-/

namespace Housewright

variable {α : Type} [Scalar α]

/-- The distance from a point to the segment from `a` to `b`. -/
def distanceToSegment (p a b : Point α) : Computed α :=
  let ab := Vec.between a b
  let squared := ab.x * ab.x + ab.y * ab.y
  if squared < Tolerance.geometry * Tolerance.geometry then p.distance a
  else do
    let t ← Scalar.divide ((p.x - a.x) * ab.x + (p.y - a.y) * ab.y) squared
    let t := Scalar.clampUnit t
    return Scalar.hypot (p.x - (a.x + t * ab.x)) (p.y - (a.y + t * ab.y))

/-- Whether the ray from `p` to the right crosses the edge from `b` to `a`. -/
def crossesRay (p a b : Point α) : Computed Bool :=
  if decide (p.y < a.y) != decide (p.y < b.y) then do
    let x := (← Scalar.divide ((b.x - a.x) * (p.y - a.y)) (b.y - a.y)) + a.x
    return decide (p.x < x)
  else .ok false

/-- Goes through the edges, with `inside` telling whether the ray was cut an odd number of
times so far, and stops at an edge that the point lies on. -/
def containsFrom (eps : α) (p : Point α) (inside : Bool) :
    List (Point α × Point α) → Computed Bool
  | [] => .ok inside
  | (b, a) :: rest => do
    if (← distanceToSegment p a b) ≤ eps then return true
    containsFrom eps p (inside != (← crossesRay p a b)) rest

/-- Whether the point lies in the ring or within `eps` of it. -/
def Ring.contains (r : Ring α) (p : Point α) (eps : α) : Computed Bool :=
  if r.length < 3 then .ok false else containsFrom eps p false r.edgesInto

end Housewright
