import Housewright.Geometry.Ring

/-!
# The canonical form of a ring

Two rings can describe the same area with other starting vertices, another direction, or
extra vertices along their edges.  `Ring.canonical` undoes all three: vertices that stand
(nearly) on the line of their neighbours are dropped, the ring is turned to the wanted
direction, and it starts at its least vertex.
-/

namespace Housewright.Ring

variable {α : Type} [Scalar α]

/-- Corners whose triangle is not larger than this are flat. -/
def flatArea : α := 1e-9

/-- Whether a corner adds no area. -/
def Corner.isFlat (c : Corner α) : Bool :=
  decide (Scalar.abs (signedArea [c.before, c.apex, c.after]) ≤ flatArea)

/-- The ring with one flat vertex dropped at a time, the first one, while more than three
remain.  At most `n` are dropped. -/
def dropFlat : Nat → Ring α → Ring α
  | 0, r => r
  | n + 1, r =>
    if r.length ≤ 3 then r
    else
      match r.corners.findIdx? Corner.isFlat with
      | none => r
      | some i => dropFlat n (r.eraseIdx i)

/-- Order of points by `x`, then `y`. -/
def precedes (p q : Point α) : Bool := decide (p.x < q.x) || (p.x == q.x && decide (p.y < q.y))

/-- The ring rotated so that its least vertex comes first. -/
def fromLeast (r : Ring α) : Ring α :=
  match r with
  | [] => []
  | p :: rest =>
    let best := (rest.zipIdx 1).foldl (fun b q => if precedes q.1 b.1 then q else b) (p, 0)
    r.drop best.2 ++ r.take best.2

/-- The canonical form of a ring, counter-clockwise or clockwise. -/
def canonical (counterClockwise : Bool) (r : Ring α) : Ring α :=
  let r := dropFlat r.length r
  let turned := if decide (r.signedArea < 0.0) == counterClockwise then r.reverse else r
  fromLeast turned

end Housewright.Ring
