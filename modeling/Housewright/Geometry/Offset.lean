import Housewright.Geometry.Ring

/-!
# Offsetting a ring

`offsetInward` moves every edge of a ring inward by a distance (outward if the distance
is negative) and joins the moved edges at the corners.  A corner becomes the point where
the two moved edges meet, its mitre.  Corners whose edges are nearly parallel, and those
whose mitre would run too far away, become two points instead, the ends of both moved
edges.  Corners at an edge without length disappear.
-/

namespace Housewright

variable {α : Type} [Scalar α]

/-- Where the lines `p + s·d` and `q + t·e` meet.  Nearly parallel lines have no stable
answer, and `p` stands in for it. -/
def meetingPoint (p : Point α) (d : Vec α) (q : Point α) (e : Vec α) : Computed (Point α) :=
  let det := d.cross e
  if Scalar.abs det < Tolerance.geometry then .ok p
  else do
    let w := Vec.between p q
    return p.shift d (← Scalar.divide (w.x * e.y - w.y * e.x) det)

namespace Ring

/-- The points that one corner is moved to.  `inward` turns an edge's direction into its
inward normal. -/
def offsetCorner (inward : Vec α → Vec α) (distance : α) (c : Corner α) :
    Computed (List (Point α)) := do
  let e ← (Vec.between c.before c.apex).unit
  let f ← (Vec.between c.apex c.after).unit
  if e == Vec.zero || f == Vec.zero then return []
  let p := c.apex.shift (inward e) distance
  let q := c.apex.shift (inward f) distance
  if Scalar.abs (e.cross f) < Tolerance.geometry then return [p, q]
  let mitre ← meetingPoint p e q f
  if Tolerance.mitreLimit * Scalar.abs distance < (← mitre.distance c.apex) then return [p, q]
  else return [mitre]

/-- The moved corners in order, before points that coincide are dropped. -/
def offsetPoints (r : Ring α) (distance : α) : Computed (List (Point α)) := do
  let inward := if r.isCounterClockwise then Vec.left else Vec.right
  return (← r.corners.mapM (offsetCorner inward distance)).flatten

/-- The ring with every edge moved inward by `distance`, outward if it is negative. -/
def offsetInward (r : Ring α) (distance : α) : Computed (Ring α) :=
  if r.length < 3 || distance == 0.0 then .ok r
  else do withoutRepeats Tolerance.geometry (← r.offsetPoints distance)

end Ring

end Housewright
