import Housewright.Scalar
import Housewright.Decimal.Fixed

/-!
# Binary floating point as scalars

The instance that programs run on.  Apart from the length of a vector all operations are
the ones of `Float`.

`vectorLength` scales both components by one power of two, so that their squares neither
overflow nor vanish, keeps the rounding errors of the squares, and corrects the square
root once by the error that is left.  The power of two is read off the parts of a number
(`binaryExponent`), and `timesPowerOfTwo` puts the parts together again.
-/

namespace Housewright.Binary64

/-- The exponent of the least power of two above the size of a finite number. -/
def binaryExponent (x : Float) : Int :=
  match x.toModel.unpack with
  | .finite _ mantissa exponent _ => Float.Model.totalExponent mantissa exponent
  | _ => 0

/-- The number times `2 ^ k`, rounded once. -/
def timesPowerOfTwo (x : Float) (k : Int) : Float :=
  match x.toModel.unpack with
  | .finite sign mantissa exponent _ =>
    .ofModel (.pack (.round .binary64 sign mantissa (exponent + k)))
  | _ => x

/-- A product and its rounding error, whose sum is the exact product of the factors. -/
def exactProduct (a b : Float) : Float × Float :=
  let split (x : Float) : Float × Float :=
    let c := 134217729.0 * x
    let high := c - (c - x)
    (high, x - high)
  let (ah, al) := split a
  let (bh, bl) := split b
  let p := a * b
  (p, ((ah * bh - p) + ah * bl + al * bh) + al * bl)

/-- The length of a vector whose larger component lies between a half and one. -/
def scaledLength (x y : Float) : Float :=
  let (xx, xe) := exactProduct x x
  let (yy, ye) := exactProduct y y
  let high := if xx < yy then yy else xx
  let low := if xx < yy then xx else yy
  let sum := high + low
  let lost := (low - (sum - high)) + xe + ye
  let h := Float.sqrt (sum + lost)
  let (hh, he) := exactProduct h h
  let rest := ((sum - hh) - he) + lost
  h + rest / (2.0 * h)

/-- The length of the vector with the components `x` and `y`: infinite if one of them is,
and otherwise not a number if one of them is none. -/
def vectorLength (x y : Float) : Float :=
  let a := x.abs
  let b := y.abs
  if a.isInf || b.isInf then 1.0 / 0.0
  else if a.isNaN || b.isNaN then 0.0 / 0.0
  else
    let top := if a < b then b else a
    if top == 0.0 then 0.0
    else
      let e := binaryExponent top
      timesPowerOfTwo (scaledLength (timesPowerOfTwo a (-e)) (timesPowerOfTwo b (-e))) e

end Housewright.Binary64

namespace Housewright

instance : Scalar Float where
  default := 0.0
  decidableLT := inferInstance
  decidableLE := inferInstance
  abs := Float.abs
  sqrt := Float.sqrt
  hypot := Binary64.vectorLength
  atan2 := Float.atan2
  isNaN := Float.isNaN
  isFinite := Float.isFinite
  roundTo := Decimal.roundPlaces

end Housewright
