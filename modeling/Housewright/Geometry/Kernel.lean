import Housewright.Geometry.Ring

/-!
# Operations on areas

`AreaKernel` is what roofs need to know about areas: how to make a ring simple, what is
left of an area when another one is taken away, and how an area falls into triangles.
All that is built on it holds for any kernel.

`Ring.triangulate` names the corners of the triangles by their indices in the ring.  A
corner is looked up by its coordinates rounded to nine decimal places; the last vertex
with these coordinates is meant, and the nearest one if there is none.
-/

namespace Housewright

/-- A connected area: what an outer ring encloses without some holes. -/
structure AreaPiece (α : Type) where
  outer : Ring α
  holes : List (Ring α)

/-- A triangle by its corners. -/
structure Triangle (α : Type) where
  a : Point α
  b : Point α
  c : Point α

/-- A triangle by the indices of its corners. -/
structure IndexTriple where
  i : Nat
  j : Nat
  k : Nat
  deriving DecidableEq, Repr

/-- The operations on areas that take more than arithmetic on coordinates. -/
structure AreaKernel (α : Type) where
  /-- A simple ring around the area that a ring encloses. -/
  repair : Ring α → Computed (Ring α)
  /-- The pieces of the first area that the second does not cover. -/
  difference : Ring α → Ring α → Computed (List (AreaPiece α))
  /-- Triangles between the vertices of a ring that make up its area. -/
  triangles : Ring α → Computed (List (Triangle α))

variable {α : Type} [Scalar α]

/-- The area of a triangle, whichever way it is run.  It is seen from the first corner, so that
little is lost far from the origin. -/
def Triangle.area (t : Triangle α) : α :=
  Scalar.abs (((t.b.x - t.a.x) * (t.a.y - t.c.y) + (t.c.x - t.a.x) * (t.b.y - t.a.y)) / 2.0)

/-- The point rounded to nine decimal places. -/
def Point.cornerKey (p : Point α) : Point α := ⟨Scalar.roundTo 9 p.x, Scalar.roundTo 9 p.y⟩

namespace Ring

/-- The index of the last vertex with the rounded coordinates of `p`. -/
def lastIndexOf? (r : Ring α) (p : Point α) : Option Nat :=
  (r.zipIdx.reverse.find? fun v => v.1.cornerKey == p.cornerKey).map (·.2)

/-- The index of the vertex nearest to `p`, the first of several. -/
def nearestIndex (r : Ring α) (p : Point α) : Nat :=
  let away (q : Point α) : α := (Vec.between p q).length
  match r.zipIdx with
  | [] => 0
  | v :: rest => (rest.foldl (fun best w => if away w.1 < away best.1 then w else best) v).2

/-- The index of the vertex that a corner stands for. -/
def indexOf (r : Ring α) (p : Point α) : Nat := (r.lastIndexOf? p).getD (r.nearestIndex p)

/-- The corners of a triangle by index, counter-clockwise as far as the shoelace sum tells.
Nothing for a triangle that is too small, or two of whose corners have the same index. -/
def indexTriangle? (r : Ring α) (t : Triangle α) : Option IndexTriple :=
  if t.area ≤ Tolerance.geometry * Tolerance.geometry then none
  else
    let i := r.indexOf t.a
    let j := r.indexOf t.b
    let k := r.indexOf t.c
    if i = j ∨ i = k ∨ j = k then none
    else if signedArea ([i, j, k].filterMap (r[·]?)) < 0.0 then some ⟨i, k, j⟩
    else some ⟨i, j, k⟩

/-- The triangles that a ring falls into.  Fewer than three vertices have none. -/
def triangulate (kernel : AreaKernel α) (r : Ring α) : Computed (List IndexTriple) :=
  if r.length < 3 then .ok []
  else do return (← kernel.triangles r).filterMap r.indexTriangle?

end Ring

end Housewright
