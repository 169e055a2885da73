import Housewright.Decimal.Fixed

/-!
# The fewest digits that read back

Every finite number is the nearest one to many decimals.  `shortest` is one of those
with the fewest digits, and of these the nearest to the number: for one, two, three, …
digits the two neighbours of the number on that decimal grid are tried, and the first
grid with a neighbour inside the interval of reals that round to the number wins.

How such digits are laid out is the business of a `Layout`.
-/

namespace Housewright.Decimal

/-- A decimal `coefficient · 10 ^ exponent`. -/
structure DecimalForm where
  coefficient : Nat
  exponent : Int
  deriving DecidableEq, Repr

/-- The neighbour of the number on the grid of multiples of `10 ^ step` that reads back,
if there is one; the nearer one if both do. -/
def neighbour? (b : BinaryForm) (step : Int) : Option Nat :=
  let e := b.exponent - 2
  -- in quarters of the last binary digit: the number, and how far the interval reaches
  let value := 4 * b.mantissa
  let below := if b.mantissa = Nat.pow 2 52 ∧ -1074 < b.exponent then 1 else 2
  let unit := Nat.pow 10 step.toNat * Nat.pow 2 (-e).toNat
  let quarter := Nat.pow 10 (-step).toNat * Nat.pow 2 e.toNat
  let even := b.mantissa % 2 = 0
  let inside (c : Nat) : Bool :=
    let p := c * unit
    let lo := (value - below) * quarter
    let hi := (value + 2) * quarter
    if even then decide (lo ≤ p ∧ p ≤ hi) else decide (lo < p ∧ p < hi)
  let c := value * quarter / unit
  let low := value * quarter - c * unit
  let high := (c + 1) * unit - value * quarter
  match inside c, inside (c + 1) with
  | true, true => some (if low < high ∨ (low = high ∧ c % 2 = 0) then c else c + 1)
  | true, false => some c
  | false, true => some (c + 1)
  | false, false => none

/-- The first grid, from coarse to fine, that has a neighbour which reads back. -/
def firstGrid (b : BinaryForm) (step : Int) : Nat → DecimalForm
  | 0 => ⟨b.mantissa, b.exponent⟩
  | tries + 1 =>
    match neighbour? b step with
    | some c => ⟨c, step⟩
    | none => firstGrid b (step - 1) tries

/-- The decimal with the fewest digits that reads back as the number.  Seventeen digits
always suffice. -/
def shortestOf (b : BinaryForm) : DecimalForm :=
  if b.mantissa = 0 then ⟨0, 0⟩
  else
    let (num, den) := b.ratio
    firstGrid b (magnitude num den) 18

/-- Digits without the zeros at their end. -/
def trimZeros (ds : List Char) : List Char :=
  (ds.reverse.dropWhile (· == '0')).reverse

/-- How a decimal is written: without an exponent as long as its own exponent lies in
the given range, else with one. -/
structure Layout where
  positionalFrom : Int
  positionalBelow : Int
  nonFinite : NonFiniteText

/-- The plain layout: positional from `0.0001` to below `10 ^ 16`, with at least one digit
on both sides of the point; exponents have a sign and two digits. -/
def Layout.plain (nonFinite : NonFiniteText) : Layout := ⟨-4, 16, nonFinite⟩

/-- The text of the digits `ds` whose first stands for multiples of `10 ^ k`. -/
def Layout.place (l : Layout) (ds : List Char) (k : Int) : List Char :=
  if l.positionalFrom ≤ k ∧ k < l.positionalBelow then
    if k < 0 then
      '0' :: '.' :: (List.replicate ((-k).toNat - 1) '0' ++ ds)
    else
      let n := k.toNat + 1
      let whole := ds.take n ++ List.replicate (n - ds.length) '0'
      let rest := ds.drop n
      whole ++ '.' :: (if rest.isEmpty then ['0'] else rest)
  else
    ds.take 1 ++ (if (ds.drop 1).isEmpty then [] else '.' :: ds.drop 1) ++
      'e' :: exponentText k

/-- The text of a number with the fewest digits that read back. -/
def Layout.render (l : Layout) (x : Float) : String :=
  match BinaryForm.ofFloat? x with
  | none => l.nonFinite.render x
  | some b =>
    let d := shortestOf b
    let ds := digits d.coefficient
    let k := (ds.length : Int) - 1 + d.exponent
    let trimmed := trimZeros ds
    let text := if trimmed.isEmpty then ['0', '.', '0'] else l.place trimmed k
    String.ofList (sign b.negative ++ text)

/-- The text of a number in a message. -/
def shortest (x : Float) : String := (Layout.plain .words).render x

end Housewright.Decimal
