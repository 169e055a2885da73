import Housewright.Geometry.Kernel
import Housewright.Planar.Arrangement

/-!
# Areas in connected pieces

The boundary of an area, a list of directed edges with the area on their left, is put
together to pieces.  Where several boundary edges meet in a point, one follows the other
if the area lies between them, so that areas which only touch in a point stay apart.  A
closed chain that visits a point twice falls into simple rings; counter-clockwise rings
enclose pieces, clockwise ones are holes.
-/

namespace Housewright

namespace ExactEdge

/-- How far clockwise from `r` a direction lies, in half turns: before, at and after a
half turn, and at a full turn. -/
def halfTurns (r d : Vec Rat) : Nat :=
  let c := exactCross r d
  if c < 0 then 0
  else if 0 < c then 2
  else if exactDot r d < 0 then 1
  else 3

/-- Whether `d` is met before `d'` on the way clockwise from `r`. -/
def soonerClockwise (r d d' : Vec Rat) : Bool :=
  let h := halfTurns r d
  let h' := halfTurns r d'
  decide (h < h') || (h == h' && decide (exactCross d d' < 0))

/-- The boundary edge that follows `e`: the first one clockwise from where `e` comes. -/
def next (boundary : List ExactEdge) (e : ExactEdge) : ExactEdge :=
  let back := e.finish.toward e.start
  (boundary.filter (·.start = e.finish)).foldl
    (fun best f => if soonerClockwise back f.direction best.direction then f else best) e.reverse

/-- The edges after `e` on its closed chain, up to the edge `first`. -/
def chain (boundary : List ExactEdge) (first : ExactEdge) : Nat → ExactEdge → List ExactEdge
  | 0, _ => []
  | n + 1, e =>
    let f := e.next boundary
    if f = first then [] else f :: chain boundary first n f

end ExactEdge

/-- The closed chains of a boundary, as vertices; at most `n` of them. -/
def chains (boundary : List ExactEdge) : Nat → List ExactEdge → List ExactRing
  | 0, _ => []
  | _, [] => []
  | n + 1, e :: rest =>
    let c := e :: ExactEdge.chain boundary e boundary.length e
    c.map (·.start) :: chains boundary n (rest.filter fun f => !c.contains f)

namespace ExactRing

/-- Cuts off a simple ring whenever a vertex is met again.  `path` holds the vertices
since then, the last one first. -/
def cutLoops (path : List ExactPoint) : ExactRing → List ExactRing
  | [] => [path.reverse]
  | p :: rest =>
    if path.contains p then
      (p :: (path.takeWhile (· ≠ p)).reverse) :: cutLoops (path.dropWhile (· ≠ p)) rest
    else cutLoops (p :: path) rest

/-- The ring without flat vertices that are not among the given points. -/
def dropFlatExcept (kept : List ExactPoint) (r : ExactRing) : ExactRing :=
  let corners := (Ring.corners r).filter fun c =>
    kept.contains c.apex || turn c.before c.apex c.after ≠ 0
  corners.map (·.apex)

/-- Whether a ring encloses another one, given that their edges do not cross. -/
def encloses (r hole : ExactRing) : Bool :=
  match hole.edges with
  | [] => false
  | e :: _ => e.windingOnRight r.edges ≠ 0

end ExactRing

/-- The holes given to the smallest of some pieces that encloses them. -/
def giveHoles (pieces : List (AreaPiece Rat)) (holes : List ExactRing) : List (AreaPiece Rat) :=
  holes.foldl
    (fun pieces hole =>
      let around := pieces.filter fun p => ExactRing.encloses p.outer hole
      let smallest := around.foldl
        (fun (best : Option ExactRing) p =>
          match best with
          | some r => if ExactRing.signedArea p.outer < ExactRing.signedArea r
              then some p.outer else best
          | none => some p.outer) none
      pieces.map fun p =>
        if some p.outer = smallest then { p with holes := p.holes ++ [hole] } else p)
    pieces

/-- The pieces that a boundary encloses. -/
def piecesOf (boundary : List ExactEdge) : List (AreaPiece Rat) :=
  let rings := (chains boundary boundary.length boundary).flatMap (ExactRing.cutLoops [])
  let outers := rings.filter fun r => 0 < ExactRing.signedArea r
  let holes := rings.filter fun r => ExactRing.signedArea r < 0
  giveHoles (outers.map fun r => ⟨r, []⟩) holes

/-- The area of a piece. -/
def AreaPiece.exactArea (p : AreaPiece Rat) : Rat :=
  p.holes.foldl (fun area hole => area + ExactRing.signedArea hole) (ExactRing.signedArea p.outer)

/-- Pieces that are not larger than this do not count. -/
def leastArea : Rat := mkRat 1 1000000

/-- The pieces of the area that `inside` describes in the arrangement of some rings,
without those that are too small.  Vertices of the rings are kept, and points where rings
cross only where the boundary turns. -/
def areaPieces (inside : List Int → Bool) (rings : List ExactRing) : List (AreaPiece Rat) :=
  let clean := ExactRing.dropFlatExcept rings.flatten
  ((piecesOf (boundary inside rings)).filter fun p => leastArea < p.exactArea).map fun p =>
    ⟨clean p.outer, p.holes.map clean⟩

end Housewright
