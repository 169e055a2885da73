import Housewright.Planar.Pieces

/-!
# Repairing a ring and subtracting areas

`Ring.repair` returns a simple ring as it is.  Any other ring encloses the points that it
winds around; if they form a single area, the outer ring of that area is the answer.
`Ring.difference` gives the pieces of one ring's area that another one does not cover.
-/

namespace Housewright

namespace ExactRing

/-- Whether the edges with the given positions among `n` follow one another. -/
def neighbours (n i j : Nat) : Bool := j = (i + 1) % n || i = (j + 1) % n

/-- Whether two edges of a ring with `n` edges share no more than they have to: nothing,
or the vertex between them. -/
def compatible (n : Nat) (e f : ExactEdge × Nat) : Bool :=
  let (e, i) := e
  let (f, j) := f
  if neighbours n i j then
    let (e, f) := if j = (i + 1) % n then (e, f) else (f, e)
    !(turn e.start e.finish f.finish = 0
      && decide (0 < exactDot (e.finish.toward e.start) (e.finish.toward f.finish)))
  else !e.meets f

/-- Whether a ring neither touches nor crosses itself.  Repeated vertices do not matter. -/
def isSimple (r : ExactRing) : Bool :=
  let edges := r.edges.zipIdx
  decide (3 ≤ edges.length)
    && edges.all fun e => edges.all fun f => e.2 = f.2 || compatible edges.length e f

end ExactRing

/-- The exact vertices of a ring, if all coordinates are finite. -/
def Ring.exactVertices? (r : Ring Float) : Option ExactRing := r.mapM exactPoint?

/-- A piece with floating-point vertices. -/
def AreaPiece.nearest (p : AreaPiece Rat) : AreaPiece Float :=
  ⟨p.outer.map Housewright.nearest, p.holes.map (·.map Housewright.nearest)⟩

/-- Whether a ring is simple and its area counts. -/
def Ring.isSound (r : Ring Float) : Bool :=
  match r.exactVertices? with
  | some e =>
    e.isSimple && (decide (leastArea < e.signedArea) || decide (e.signedArea < -leastArea))
  | none => false

/-- The ring itself if it is sound, else the outer ring of the points it winds around.
Vertices without finite coordinates are ignored. -/
def Ring.repair (r : Ring Float) : Computed (Ring Float) :=
  if r.length < 3 then .error (.fewVertices r.length)
  else if r.isSound then .ok r
  else
    match areaPieces (fun w => w ≠ [0]) [r.filterMap exactPoint?] with
    | [p] => .ok p.nearest.outer
    | pieces => .error (.notOneArea pieces.length)

/-- The exact vertices of a ring that is to enclose an area. -/
def Ring.enclosing (r : Ring Float) : Computed ExactRing :=
  if r.length = 1 ∨ r.length = 2 then .error .openRing
  else
    match r.exactVertices? with
    | some e => .ok e
    | none => .error .untriangulable

/-- The pieces of the area of `base` that `cutter` does not cover. -/
def Ring.difference (base cutter : Ring Float) : Computed (List (AreaPiece Float)) := do
  let base ← base.enclosing
  let cutter ← cutter.enclosing
  let uncovered (w : List Int) : Bool := match w with
    | [b, c] => b ≠ 0 && c = 0
    | _ => false
  return (areaPieces uncovered [base, cutter]).map (·.nearest)

end Housewright
