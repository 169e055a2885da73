import Housewright.Geometry.Point

/-!
# Rings

A ring is a closed polygon given by its vertices in order; the first vertex is not
repeated at the end.  Positive area means counter-clockwise.

* `edges`, `edgesInto` and `corners` are the ring seen as edges and as corners.
* `signedArea` is the shoelace sum.
* `withoutRepeats` drops vertices that are too close to the vertex before them.
* `boundingBox` is the extent of a list of points.
-/

namespace Housewright

/-- A closed polygon, without repeating its first vertex. -/
abbrev Ring (α : Type) := List (Point α)

/-- An upright box. -/
structure Box (α : Type) where
  minX : α
  minY : α
  maxX : α
  maxY : α

namespace Ring

variable {α : Type}

/-- Every vertex with the one after it. -/
def edges : Ring α → List (Point α × Point α)
  | [] => []
  | p :: rest => (p :: rest).zip (rest ++ [p])

/-- A ring has as many edges as vertices. -/
@[simp] theorem length_edges (r : Ring α) : r.edges.length = r.length := by
  cases r <;> simp [edges]

/-- Every vertex with the one before it, as the edge that leads into the vertex. -/
def edgesInto (r : Ring α) : List (Point α × Point α) :=
  match r.getLast? with
  | none => []
  | some last => (last :: r).zip r

/-- A vertex with both of its neighbours. -/
structure Corner (α : Type) where
  before : Point α
  apex : Point α
  after : Point α

/-- All corners of a ring. -/
def corners (r : Ring α) : List (Corner α) :=
  List.zipWith (fun e f => ⟨e.1, f.1, f.2⟩) r.edgesInto r.edges

variable [Scalar α]

/-- Area by the shoelace sum, positive for counter-clockwise rings. -/
def signedArea (r : Ring α) : α :=
  r.edges.foldl (fun area (p, q) => area + (p.x * q.y - q.x * p.y)) 0.0 / 2.0

/-- Whether the ring runs counter-clockwise. -/
def isCounterClockwise (r : Ring α) : Bool := decide (0.0 < r.signedArea)

/-- The points that are farther than `eps` from the point kept last, which is `last` at
first. -/
def keepDistant (eps : α) (last : Point α) : List (Point α) → Computed (List (Point α))
  | [] => .ok []
  | p :: rest => do
    if eps < (← last.distance p) then
      return p :: (← keepDistant eps p rest)
    else keepDistant eps last rest

/-- The ring without vertices that follow another one within `eps`, and without a last
vertex that closes it. -/
def withoutRepeats (eps : α) : Ring α → Computed (Ring α)
  | [] => .ok []
  | p :: rest => do
    let kept ← keepDistant eps p rest
    match kept.getLast? with
    | none => return [p]
    | some last =>
      if (← p.distance last) ≤ eps then return p :: kept.dropLast
      else return p :: kept

/-- The extent of some points, an error if there are none. -/
def boundingBox : List (Point α) → Computed (Box α)
  | [] => .error .noPoints
  | p :: rest => .ok <| rest.foldl
      (fun b q => ⟨Scalar.least b.minX q.x, Scalar.least b.minY q.y,
        Scalar.greatest b.maxX q.x, Scalar.greatest b.maxY q.y⟩)
      ⟨p.x, p.y, p.x, p.y⟩

end Ring

end Housewright
