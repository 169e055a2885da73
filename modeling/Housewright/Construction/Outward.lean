import Housewright.Geometry.Containment

/-!
# Which side of an edge is outside

The edge of a footprint starts at `a` and runs along a unit vector; a span of it is given
by two distances from `a`.  The normal that the ring's direction suggests is taken when a
probe just beyond the middle of the span lies outside of the ring, else the other one if
its probe does.  When both probes lie inside, more probes vote: from the quarter points
too, and twice as far out.
-/

namespace Housewright

variable {α : Type} [Scalar α]

/-- Whether the probe from `origin` along `normal` leaves the ring. -/
def Ring.probesOutside (r : Ring α) (normal : Vec α) (origin : Point α) (distance : α) :
    Computed Bool := do
  return !(← r.contains (origin.shift normal distance) Tolerance.onEdge)

/-- How many of some probes, each an origin and a distance, leave the ring. -/
def Ring.countOutside (r : Ring α) (normal : Vec α) (probes : List (Point α × α)) :
    Computed Nat := do
  return (← probes.mapM fun (origin, distance) =>
    r.probesOutside normal origin distance).countP id

/-- The probes that vote about a span: from its middle and its quarter points, at the
probe distance and at twice that. -/
def votingProbes (a : Point α) (tangent : Vec α) (uMin uMax distance : α) :
    List (Point α × α) :=
  let span := uMax - uMin
  [uMin + span * 0.25, (uMin + uMax) / 2.0, uMin + span * 0.75].flatMap fun u =>
    [(a.shift tangent u, distance), (a.shift tangent u, 2.0 * distance)]

/-- The normal of an edge that points out of the ring. -/
def Ring.outwardNormal (r : Ring α) (a : Point α) (tangent : Vec α) (uMin uMax distance : α) :
    Computed (Vec α) := do
  let (preferred, other) :=
    if r.isCounterClockwise then (tangent.right, tangent.left) else (tangent.left, tangent.right)
  let middle := a.shift tangent ((uMin + uMax) / 2.0)
  let preferredOutside ← r.probesOutside preferred middle distance
  let otherOutside ← r.probesOutside other middle distance
  if preferredOutside then return preferred
  if otherOutside then return other
  let probes := votingProbes a tangent uMin uMax distance
  let votes ← r.countOutside preferred probes
  let against ← r.countOutside other probes
  return if votes < against then other else preferred

end Housewright
