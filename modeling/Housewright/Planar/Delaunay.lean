import Housewright.Planar.Ears

/-!
# Fat triangles

Two triangles with a common side form a quadrangle, which the other diagonal divides too
if the quadrangle is convex.  The side is flipped to that diagonal if the corner on the
other side lies within the circle through a triangle.  `fatten` goes through the
triangles in order and flips until nothing changes.  Corners that lie on the circle, up
to a tolerance, leave the side as it is.
-/

namespace Housewright

/-- Positive if `p` lies inside of the circle through a counter-clockwise triangle. -/
def inCircle (a b c p : ExactPoint) : Rat :=
  let u := p.toward a
  let v := p.toward b
  let w := p.toward c
  exactDot u u * exactCross v w - exactDot v v * exactCross u w + exactDot w w * exactCross u v

/-- What `inCircle` has to exceed for a side to be flipped. -/
def circleTolerance : Rat := mkRat 1 1000000000000

/-- The sides of a triangle, each with the corner opposite to it. -/
def Triangle.sides (t : Triangle Rat) : List (ExactEdge × ExactPoint) :=
  [(⟨t.a, t.b⟩, t.c), (⟨t.b, t.c⟩, t.a), (⟨t.c, t.a⟩, t.b)]

/-- Whether the side between the clockwise triangles over it, with the corners `p` on its
right and `q` on its left, is better flipped. -/
def wantsFlip (side : ExactEdge) (p q : ExactPoint) : Bool :=
  let sameTurn (x y : Rat) : Bool :=
    decide (0 < x) = decide (0 < y) && decide (x < 0) = decide (y < 0)
  sameTurn (turn p side.start q) (turn q side.finish p)
    && (decide (circleTolerance < inCircle side.start p side.finish q)
      || decide (circleTolerance < inCircle side.finish q side.start p))

/-- The triangle on the other side of an edge, by its index, with its opposite corner. -/
def across? (triangles : List (Triangle Rat)) (i : Nat) (side : ExactEdge) :
    Option (Nat × ExactPoint) :=
  triangles.zipIdx.findSome? fun (t, k) =>
    if k = i then none
    else (t.sides.find? fun s => s.1 = side.reverse).map fun s => (k, s.2)

/-- The triangles with one side of the triangle at an index flipped, if that is better. -/
def flip? (triangles : List (Triangle Rat)) (i j : Nat) : Option (List (Triangle Rat)) := do
  let t ← triangles[i]?
  let (side, p) ← t.sides[j]?
  let (k, q) ← across? triangles i side
  if wantsFlip side p q then
    some ((triangles.set i ⟨q, p, side.start⟩).set k ⟨p, q, side.finish⟩)
  else none

/-- Goes through all sides once; tells whether a side was flipped. -/
def flipOnce (triangles : List (Triangle Rat)) : List (Triangle Rat) × Bool :=
  ((List.range triangles.length).flatMap fun i => [(i, 0), (i, 1), (i, 2)]).foldl
    (fun state ij => match flip? state.1 ij.1 ij.2 with
      | some flipped => (flipped, true)
      | none => state)
    (triangles, false)

/-- Flips sides until nothing changes, at most so many times. -/
def fatten : Nat → List (Triangle Rat) → List (Triangle Rat)
  | 0, triangles => triangles
  | n + 1, triangles =>
    let (flipped, changed) := flipOnce triangles
    if changed then fatten n flipped else flipped

end Housewright
