import Housewright.Planar.Exact

/-!
# Arrangements of rings

Rings that cross each other, or themselves, cut the plane into faces.  The arrangement is
the list of pieces that the edges are cut into where they meet; the faces are only seen
from the pieces, by how often each ring winds around a point just beside a piece.
-/

namespace Housewright

namespace ExactEdge

/-- The points of an edge at which other edges meet it. -/
def cuts (e : ExactEdge) (others : List ExactEdge) : List ExactPoint :=
  others.flatMap fun f =>
    if e.crosses f then [e.crossing f]
    else [f.start, f.finish].filter e.contains

/-- The pieces between the points at which other edges meet an edge. -/
def pieces (e : ExactEdge) (others : List ExactEdge) : List ExactEdge :=
  let along (p : ExactPoint) : Rat := exactDot e.direction (e.start.toward p)
  let stops := (e.start :: e.finish :: e.cuts others).mergeSort fun p q =>
    decide (along p ≤ along q)
  (stops.zip (stops.drop 1)).filterMap fun (p, q) => if p = q then none else some ⟨p, q⟩

/-- How much the edge adds to the winding around `p` that is seen along a ray in the
direction `d`: one if it crosses the ray counter-clockwise, minus one if clockwise. -/
def windingAlong (e : ExactEdge) (p : ExactPoint) (d : Vec Rat) : Int :=
  let a := p.toward e.start
  let b := p.toward e.finish
  let sideA := exactCross d a
  let sideB := exactCross d b
  if decide (sideA < 0) = decide (sideB < 0) then 0
  else
    -- how far along the ray, times a positive number
    let reach := (exactDot d a * sideB - exactDot d b * sideA) / (sideB - sideA)
    if reach ≤ 0 then 0 else if sideA < 0 then 1 else -1

/-- One if `f` runs along the piece `e` in its direction, minus one if against it. -/
def sameWay (e f : ExactEdge) : Int :=
  if turn f.start f.finish e.start = 0 ∧ turn f.start f.finish e.finish = 0
      ∧ f.contains (e.start.midpoint e.finish) then
    if 0 < exactDot e.direction f.direction then 1 else -1
  else 0

/-- How often some edges wind around the points just to the right of a piece. -/
def windingOnRight (e : ExactEdge) (edges : List ExactEdge) : Int :=
  let d := e.direction
  edges.foldl (fun w f => w + f.windingAlong (e.start.midpoint e.finish) ⟨d.y, -d.x⟩) 0

/-- How often some edges wind around the points just to the left of a piece. -/
def windingOnLeft (e : ExactEdge) (edges : List ExactEdge) : Int :=
  edges.foldl (fun w f => w + e.sameWay f) (e.windingOnRight edges)

end ExactEdge

/-- All pieces of some edges, each once and in one direction. -/
def arrangement (edges : List ExactEdge) : List ExactEdge :=
  (edges.flatMap fun e => (e.pieces edges).map ExactEdge.undirected).eraseDups

/-- The pieces of the arrangement of some rings that bound an area, directed so that the
area lies on their left.  A face belongs to the area if `inside` accepts the winding
numbers of the rings around it. -/
def boundary (inside : List Int → Bool) (rings : List ExactRing) : List ExactEdge :=
  let edges := rings.map ExactRing.edges
  (arrangement edges.flatten).filterMap fun e =>
    match inside (edges.map e.windingOnLeft), inside (edges.map e.windingOnRight) with
    | true, false => some e
    | false, true => some e.reverse
    | _, _ => none

end Housewright
