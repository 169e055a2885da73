import Housewright.Decimal.Binary

/-!
# Numbers with a fixed number of decimal places

`fixed` writes a number with exactly so many places, `scientific` with one digit before
the point and an exponent, and `roundPlaces` is the number nearest to the one `fixed`
writes.  All three round the exact binary value once, a half going to the even digit.
-/

namespace Housewright.Decimal

/-- Texts of the numbers that are not finite. -/
structure NonFiniteText where
  nan : String
  infinity : String

/-- Lower-case texts, as in messages. -/
def NonFiniteText.words : NonFiniteText := ⟨"nan", "inf"⟩

/-- The tokens of JSON text. -/
def NonFiniteText.tokens : NonFiniteText := ⟨"NaN", "Infinity"⟩

/-- The text of a number that is not finite. -/
def NonFiniteText.render (t : NonFiniteText) (x : Float) : String :=
  if x.isNaN then t.nan else if x < 0 then "-" ++ t.infinity else t.infinity

/-- The minus sign of a negative number, negative zero included. -/
def sign (negative : Bool) : List Char := if negative then ['-'] else []

/-- A number with exactly `places` decimal places. -/
def fixed (places : Nat) (x : Float) : String :=
  match BinaryForm.ofFloat? x with
  | none => NonFiniteText.words.render x
  | some b =>
    let (num, den) := b.ratio
    let ds := padded (places + 1) (roundDiv (num * Nat.pow 10 places) den)
    let whole := ds.take (ds.length - places)
    let tail := if places = 0 then [] else '.' :: ds.drop (ds.length - places)
    String.ofList (sign b.negative ++ whole ++ tail)

/-- An exponent with its sign and at least two digits. -/
def exponentText (k : Int) : List Char :=
  (if k < 0 then '-' else '+') :: padded 2 k.natAbs

/-- A number with one digit before the point, `places` after it, and an exponent. -/
def scientific (places : Nat) (x : Float) : String :=
  match BinaryForm.ofFloat? x with
  | none => NonFiniteText.words.render x
  | some b =>
    let (num, den) := b.ratio
    let layout (n : Nat) (k : Int) : String :=
      let ds := padded (places + 1) n
      String.ofList (sign b.negative ++ ds.take 1 ++
        (if places = 0 then [] else '.' :: ds.drop 1) ++ 'e' :: exponentText k)
    if num = 0 then layout 0 0
    else
      let k := magnitude num den
      let (p, q) := scale ((places : Int) - k) num den
      let n := roundDiv p q
      if n < Nat.pow 10 (places + 1) then layout n k else layout (n / 10) (k + 1)

/-- The number nearest to the given one rounded to so many decimal places. -/
def roundPlaces (places : Nat) (x : Float) : Float :=
  match BinaryForm.ofFloat? x with
  | none => x
  | some b =>
    let (num, den) := b.ratio
    let y := Float.ofScientific (roundDiv (num * Nat.pow 10 places) den) true places
    if b.negative then -y else y

end Housewright.Decimal
