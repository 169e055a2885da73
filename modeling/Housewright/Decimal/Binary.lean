/-!
# Floating-point numbers as exact fractions

A finite floating-point number is a signed whole number times a power of two.
`BinaryForm.ofFloat?` reads these parts off the encoding, and `ratio` is the size of the
number as an exact fraction, from which all decimal texts are made.
`roundDiv` is the rounding of a fraction to a whole number, a half going to the even
neighbour.
-/

namespace Housewright.Decimal

/-- A finite number `± mantissa · 2 ^ exponent`. -/
structure BinaryForm where
  negative : Bool
  mantissa : Nat
  exponent : Int
  deriving DecidableEq, Repr

namespace BinaryForm

/-- The parts of a finite number; nothing for infinities and not-a-number. -/
def ofFloat? (x : Float) : Option BinaryForm :=
  let bits := x.toBits.toNat
  let negative := bits / Nat.pow 2 63 == 1
  let biased : Nat := bits / Nat.pow 2 52 % Nat.pow 2 11
  let fraction := bits % Nat.pow 2 52
  if biased == 2047 then none
  else if biased == 0 then some ⟨negative, fraction, -1074⟩
  else some ⟨negative, fraction + Nat.pow 2 52, Int.ofNat biased - 1075⟩

/-- The size of the number, as numerator and denominator. -/
def ratio (b : BinaryForm) : Nat × Nat :=
  (b.mantissa * Nat.pow 2 b.exponent.toNat, Nat.pow 2 (-b.exponent).toNat)

end BinaryForm

/-- `num / den` rounded to a whole number, a half going to the even neighbour. -/
def roundDiv (num den : Nat) : Nat :=
  let q := num / den
  let r := num % den
  if 2 * r < den then q
  else if den < 2 * r then q + 1
  else q + q % 2

/-- `10 ^ k · num / den` as a fraction, for powers of either sign. -/
def scale (k : Int) (num den : Nat) : Nat × Nat :=
  (num * Nat.pow 10 k.toNat, den * Nat.pow 10 (-k).toNat)

/-- The decimal digits of a number. -/
def digits (n : Nat) : List Char := Nat.toDigits 10 n

/-- The exponent of the largest power of ten that is not above `num / den > 0`. -/
def magnitude (num den : Nat) : Int :=
  if den ≤ num then ((digits (num / den)).length : Int) - 1
  else -((digits ((den - 1) / num)).length : Int)

/-- The digits of a number, filled up with zeros on the left. -/
def padded (width n : Nat) : List Char :=
  let ds := digits n
  List.replicate (width - ds.length) '0' ++ ds

end Housewright.Decimal
