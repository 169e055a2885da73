import Housewright.Decimal.Binary
import Housewright.Geometry.Ring

/-!
# Exact plane geometry

Shapes that touch or nearly touch cannot be told apart in rounded arithmetic.  The
operations on areas therefore work on points with rational coordinates: a finite
floating-point number is one, `exactPoint?` and `nearest` lead there and back, and turns,
areas and meeting points are computed without any error.
-/

namespace Housewright

/-- A point with rational coordinates. -/
abbrev ExactPoint := Point Rat

instance : DecidableEq ExactPoint := fun p q =>
  if h : p.x = q.x ∧ p.y = q.y then
    .isTrue (by obtain ⟨_, _⟩ := p; obtain ⟨_, _⟩ := q; simp_all)
  else .isFalse (by rintro rfl; exact h ⟨rfl, rfl⟩)

/-! ## Numbers -/

/-- The value of a finite number. -/
def exactNumber? (x : Float) : Option Rat :=
  (Decimal.BinaryForm.ofFloat? x).map fun b =>
    let (top, bottom) := b.ratio
    mkRat (if b.negative then -top else top) bottom

/-- A mantissa of at most 53 digits times `2 ^ e`. -/
def scaleBinary (mantissa : Nat) (e : Int) : Float :=
  let drop := (-e).toNat
  -- the smallest power of two is reached in two steps only
  Float.ofNat mantissa * Float.ofNat (Nat.pow 2 e.toNat) / Float.ofNat (Nat.pow 2 (drop / 2))
    / Float.ofNat (Nat.pow 2 (drop - drop / 2))

/-- The floating-point number nearest to a fraction, an even last digit deciding ties. -/
def nearestNumber (q : Rat) : Float :=
  if q.num = 0 then 0.0
  else
    let top := q.num.natAbs
    -- the last binary digit is worth `2 ^ e`; a mantissa has 53 digits
    let e : Int := max ((top.log2 : Int) - (q.den.log2 : Int) - 53) (-1074)
    let mantissa (e : Int) : Nat :=
      Decimal.roundDiv (top * Nat.pow 2 (-e).toNat) (q.den * Nat.pow 2 e.toNat)
    let e := if mantissa e < Nat.pow 2 53 then e else e + 1
    let size := scaleBinary (mantissa e) e
    if q.num < 0 then -size else size

/-- A point with its exact coordinates, if they are finite. -/
def exactPoint? (p : Point Float) : Option ExactPoint := do
  return ⟨← exactNumber? p.x, ← exactNumber? p.y⟩

/-- The floating-point point nearest to an exact point. -/
def nearest (p : ExactPoint) : Point Float := ⟨nearestNumber p.x, nearestNumber p.y⟩

/-! ## Turns and areas -/

namespace ExactPoint

/-- From one point to another. -/
def toward (p q : ExactPoint) : Vec Rat := ⟨q.x - p.x, q.y - p.y⟩

/-- Points in the order of `x`, then `y`. -/
def precedes (p q : ExactPoint) : Bool := decide (p.x < q.x) || (p.x = q.x && decide (p.y < q.y))

/-- The point half-way between two points. -/
def midpoint (p q : ExactPoint) : ExactPoint := ⟨(p.x + q.x) / 2, (p.y + q.y) / 2⟩

end ExactPoint

/-- The cross product: positive if `v` points to the left of `u`. -/
def exactCross (u v : Vec Rat) : Rat := u.x * v.y - u.y * v.x

/-- The inner product: positive if the directions differ by less than a right angle. -/
def exactDot (u v : Vec Rat) : Rat := u.x * v.x + u.y * v.y

/-- The turn at `b` on the way from `a` to `c`: positive to the left, negative to the
right, zero on a line. -/
def turn (a b c : ExactPoint) : Rat := exactCross (a.toward b) (a.toward c)

/-- A directed straight edge. -/
structure ExactEdge where
  start : ExactPoint
  finish : ExactPoint
  deriving DecidableEq

namespace ExactEdge

/-- From the start of an edge to its end. -/
def direction (e : ExactEdge) : Vec Rat := e.start.toward e.finish

/-- The edge run backwards. -/
def reverse (e : ExactEdge) : ExactEdge := ⟨e.finish, e.start⟩

/-- The edge that runs from the lesser of its ends. -/
def undirected (e : ExactEdge) : ExactEdge :=
  if e.finish.precedes e.start then e.reverse else e

/-- Whether a point lies on an edge, its ends included. -/
def contains (e : ExactEdge) (p : ExactPoint) : Bool :=
  turn e.start e.finish p = 0 && decide (exactDot (p.toward e.start) (p.toward e.finish) ≤ 0)

/-- Whether each of two edges has its ends on both sides of the other. -/
def crosses (e f : ExactEdge) : Bool :=
  decide (turn e.start e.finish f.start * turn e.start e.finish f.finish < 0)
    && decide (turn f.start f.finish e.start * turn f.start f.finish e.finish < 0)

/-- The point that two crossing edges share. -/
def crossing (e f : ExactEdge) : ExactPoint :=
  let a := turn f.start f.finish e.start
  let b := turn f.start f.finish e.finish
  let t := a / (a - b)
  ⟨e.start.x + e.direction.x * t, e.start.y + e.direction.y * t⟩

/-- Whether two edges share a point. -/
def meets (e f : ExactEdge) : Bool :=
  e.crosses f || e.contains f.start || e.contains f.finish || f.contains e.start
    || f.contains e.finish

end ExactEdge

/-- A closed polygon with exact vertices. -/
abbrev ExactRing := List ExactPoint

namespace ExactRing

/-- The edges of a ring that have a length. -/
def edges (r : ExactRing) : List ExactEdge :=
  ((Ring.edges r).filter fun e => e.1 ≠ e.2).map fun e => ⟨e.1, e.2⟩

/-- Area by the shoelace sum, positive for counter-clockwise rings. -/
def signedArea (r : ExactRing) : Rat :=
  (Ring.edges r).foldl (fun area e => area + (e.1.x * e.2.y - e.2.x * e.1.y)) 0 / 2

/-- The ring without vertices that are equal to the vertex before them, and without a last
vertex that closes it. -/
def withoutEqualNeighbours : ExactRing → ExactRing
  | [] => []
  | p :: rest =>
    let kept := p :: (((p :: rest).zip rest).filter fun e => e.1 ≠ e.2).map (·.2)
    if 1 < kept.length ∧ kept.getLast? = some p then kept.dropLast else kept

end ExactRing

end Housewright
