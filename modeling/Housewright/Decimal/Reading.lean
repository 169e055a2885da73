/-!
# Reading decimals

`ofDecimal` is the floating-point number nearest to `± coefficient · 10 ^ exponent`.  The
exponent may be of any size: what is certainly beyond the range is settled before any
power is taken.  `Float.ofScientific` rounds once.
-/

namespace Housewright.Decimal

/-- The number nearest to `± coefficient · 10 ^ exponent`. -/
def ofDecimal (negative : Bool) (coefficient : Nat) (exponent : Int) : Float :=
  let top := ((Nat.toDigits 10 coefficient).length : Int) + exponent
  let size : Float :=
    if coefficient = 0 ∨ top < -400 then 0.0
    else if 400 < top then 1.0 / 0.0
    else Float.ofScientific coefficient (decide (exponent < 0)) exponent.natAbs
  if negative then -size else size

/-- The number nearest to a whole number. -/
def ofInt (n : Int) : Float := ofDecimal (decide (n < 0)) n.natAbs 0

/-- The value of a run of decimal digits. -/
def digitsValue (ds : List Char) : Nat :=
  ds.foldl (fun n c => 10 * n + (c.toNat - '0'.toNat)) 0

/-- The longest run of decimal digits at the front, and what follows it. -/
def spanDigits (cs : List Char) : List Char × List Char := cs.span Char.isDigit

end Housewright.Decimal
