/-!
# Scalars

Coordinates, lengths and heights are numbers of one type.  All of the geometry is
written over `Scalar`, so the very same definitions run on binary floating point and
can be read in exact arithmetic.

* `Scalar` collects the operations the geometry needs.  It promises no laws: `+` may
  round, `<` may be false both ways.
* `GeometryError` lists what can stop a computation on coordinates, and `Computed`
  is a result that may have been stopped.
* `square` and `divide` are the two operations that can fail on single numbers:
  squaring a finite number may leave the finite range, and dividing by zero has no
  answer.
-/

namespace Housewright

/-- The operations of coordinate arithmetic. -/
class Scalar (α : Type) extends Add α, Sub α, Mul α, Div α, Neg α, LT α, LE α, BEq α,
    OfScientific α, Inhabited α where
  decidableLT : DecidableLT α
  decidableLE : DecidableLE α
  abs : α → α
  sqrt : α → α
  /-- Length of the vector with the two given components. -/
  hypot : α → α → α
  /-- Angle of the vector whose second component comes first. -/
  atan2 : α → α → α
  isNaN : α → Bool
  isFinite : α → Bool
  /-- The nearest number with at most this many decimal places. -/
  roundTo : Nat → α → α

attribute [reducible, instance] Scalar.decidableLT Scalar.decidableLE

/-- What can stop a computation on coordinates. -/
inductive GeometryError where
  /-- The square of a finite number left the finite range. -/
  | overflow
  | zeroDivision
  | indexOutOfRange
  /-- The extent of no points at all was asked for. -/
  | noPoints
  /-- One or two points cannot be closed to a ring. -/
  | openRing
  | fewVertices (count : Nat)
  /-- The enclosed area falls into this many pieces, of which one was expected. -/
  | notOneArea (pieces : Nat)
  /-- No ear was left to cut, or the coordinates are no numbers. -/
  | untriangulable
  deriving DecidableEq, Repr

namespace GeometryError

/-- Whether the error says that the shape is unusable, as opposed to a failure of the
arithmetic itself. -/
def concernsShape : GeometryError → Bool
  | .overflow | .zeroDivision | .indexOutOfRange => false
  | .noPoints | .openRing | .fewVertices _ | .notOneArea _ | .untriangulable => true

/-- What is wrong, in words. -/
def message : GeometryError → String
  | .overflow => "a square is too large"
  | .zeroDivision => "division by zero"
  | .indexOutOfRange => "index out of range"
  | .noPoints => "no points have no extent"
  | .openRing => "one or two points form no ring"
  | .fewVertices n => s!"Ring has only {n} vertices"
  | .notOneArea n => s!"Ring does not enclose a single area ({n} pieces)"
  | .untriangulable => "The shape cannot be triangulated"

end GeometryError

/-- The result of a computation on coordinates. -/
abbrev Computed (β : Type) := Except GeometryError β

namespace Scalar

variable {α : Type} [Scalar α]

/-- The square of a number; an error if it leaves the finite range. -/
def square (x : α) : Computed α :=
  let s := x * x
  if isFinite x && !isFinite s then .error .overflow else .ok s

/-- The quotient of two numbers; an error if the divisor is zero. -/
def divide (x y : α) : Computed α :=
  if y == 0.0 then .error .zeroDivision else .ok (x / y)

/-- The smaller number; the first of two that compare neither way. -/
def least (x y : α) : α := if y < x then y else x

/-- The larger number; the first of two that compare neither way. -/
def greatest (x y : α) : α := if x < y then y else x

/-- The number moved into the unit interval. -/
def clampUnit (t : α) : α := greatest 0.0 (least 1.0 t)

/-- A finite number above zero. -/
def isPositive (x : α) : Bool := isFinite x && decide (0.0 < x)

end Scalar

end Housewright
