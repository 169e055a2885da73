import Housewright.Geometry.Kernel
import Housewright.Planar.Exact

/-!
# Cutting ears

A clockwise ring is taken apart by cutting one ear after the other: a corner that turns
right and whose triangle holds no other vertex.  `clipEars` keeps the ring as a list that
starts with the corner looked at, and goes on to the next corner after every step, also
after an ear, which keeps the triangles fat.

Corners that do not turn right are passed over.  Of those, a corner two of whose points
coincide is removed.  When twice as many of them as there are vertices have been passed
over without an ear, the ring has none.
-/

namespace Housewright

/-! ## The direction of a ring -/

/-- The highest vertex of a ring that an edge rises to, by its index, with the start of
that edge; the last one if there are several. -/
def ExactRing.summit? (r : ExactRing) : Option (ExactPoint × Nat) :=
  match r with
  | [] => none
  | first :: _ =>
    ((Ring.edges r).zipIdx.foldl
      (fun (best : Option (ExactPoint × Nat) × Rat) e =>
        let ((p, q), i) := e
        if p.y < q.y ∧ best.2 ≤ q.y then (some (p, (i + 1) % r.length), q.y) else best)
      (none, first.y)).1

/-- Whether a ring runs counter-clockwise, as its highest part shows: the turn at its
summit, or the direction of the level edges there. -/
def ExactRing.isCounterClockwise (r : ExactRing) : Bool :=
  match r.summit? with
  | none => false
  | some (before, i) =>
    match r.drop i ++ r.take i with
    | [] => false
    | summit :: rest =>
      let level := rest.takeWhile (·.y = summit.y)
      let last := level.getLast?.getD summit
      match rest.drop level.length with
      | [] => false
      | after :: _ =>
        if last = summit then
          before ≠ summit && after ≠ summit && before ≠ after
            && decide (0 < turn before summit after)
        else decide (last.x < summit.x)

/-- The ring run clockwise from its first vertex. -/
def ExactRing.clockwise (r : ExactRing) : ExactRing :=
  if r.isCounterClockwise then r.take 1 ++ (r.drop 1).reverse else r

/-! ## Ears -/

/-- Whether a clockwise triangle holds a point, its sides included. -/
def Triangle.holds (t : Triangle Rat) (p : ExactPoint) : Bool :=
  decide (turn t.a t.b p ≤ 0) && decide (turn t.b t.c p ≤ 0) && decide (turn t.c t.a p ≤ 0)

/-- Whether the ring comes back to the corner `b` in a way that cuts the corner: on a
path from `p` to `q` through `b` that enters or leaves between its sides, or runs along
both of them. -/
def cutsCorner (a b c p q : ExactPoint) : Bool :=
  let sideA := b.toward a
  let sideC := b.toward c
  let between (d : Vec Rat) : Bool :=
    decide (0 < exactCross sideA d) && decide (0 < exactCross d sideC)
  let along (d side : Vec Rat) : Bool := exactCross d side = 0 && decide (0 < exactDot d side)
  between (b.toward q) || between (b.toward p) || (along (b.toward q) sideA && along (b.toward p) sideC)

/-- Whether the corner from `a` over `b` to `c` is an ear of the ring that goes on with
`rest`. -/
def isEar (a b c : ExactPoint) (rest : List ExactPoint) : Bool :=
  (rest.all fun p => p = a || p = b || p = c || !Triangle.holds ⟨a, b, c⟩ p)
    && ((c :: rest).zip (rest.zip (rest.drop 1 ++ [a]))).all fun (p, v, q) =>
      v ≠ b || !cutsCorner a b c p q

/-- The triangles of a clockwise ring, cut off one by one.  `passed` counts the corners
passed over since the last ear.  Nothing if an ear is missing. -/
def clipEars : Nat → Nat → ExactRing → Option (List (Triangle Rat))
  | n + 1, passed, a :: b :: c :: rest =>
    let skipped := b :: c :: (rest ++ [a])
    let cut := c :: (rest ++ [a])
    if turn a b c < 0 then
      if isEar a b c rest then (clipEars n 0 cut).map (⟨a, b, c⟩ :: ·)
      else clipEars n passed skipped
    else
      let next := if a = b ∨ b = c ∨ a = c then cut else skipped
      if 2 * next.length < passed + 1 then none else clipEars n (passed + 1) next
  | 0, _, _ :: _ :: _ :: _ => none
  | _, _, _ => some []

/-- The triangles that a ring falls into, clockwise.  A ring of `n` vertices takes fewer
steps than are allowed here, or none of the corners it comes back to is an ear. -/
def ExactRing.ears (r : ExactRing) : Option (List (Triangle Rat)) :=
  let r := r.withoutEqualNeighbours
  clipEars (4 * Nat.pow (r.length + 1) 3) 0 r.clockwise

end Housewright
