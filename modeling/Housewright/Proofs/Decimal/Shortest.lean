import Housewright.Decimal.Shortest
import Housewright.Proofs.Decimal.Forms

/-!
# The fewest digits read back

A decimal in the interval of reals that are rounded to a number (`BinaryForm.Contains`) is read
as that number.  `shortestOf` only takes such decimals, and it always finds one: seventeen digits
after the first are finer than a quarter of the last binary digit.

## Main results

* `BinaryForm.decimalUnits_of_contains` : what is in the interval is rounded to the number.
* `contains_shortestOf` : the fewest digits are in the interval.
* `ofDecimal_shortestOf` : the number is read from them.
-/

namespace Housewright.Decimal

open Binary64

/-! ## Intervals -/

namespace BinaryForm

/-- How far the interval of reals that are rounded to the number reaches down, in quarters of its
last digit. -/
def below (b : BinaryForm) : ℕ := if b.mantissa = Nat.pow 2 52 ∧ -1074 < b.exponent then 1 else 2

/-- A place is in the interval of reals that are rounded to the number, on a scale on which a
quarter of its last digit has the given size. -/
def Contains (b : BinaryForm) (quarter place : ℕ) : Prop :=
  if b.mantissa % 2 = 0 then
    (4 * b.mantissa - b.below) * quarter ≤ place ∧ place ≤ (4 * b.mantissa + 2) * quarter
  else (4 * b.mantissa - b.below) * quarter < place ∧ place < (4 * b.mantissa + 2) * quarter

instance (b : BinaryForm) (quarter place : ℕ) : Decidable (b.Contains quarter place) :=
  inferInstanceAs (Decidable (ite _ _ _))

/-- The distance of neighbours on a grid of decimals, on a scale on which all is whole. -/
def gap (b : BinaryForm) (step : ℤ) : ℕ := 10 ^ step.toNat * 2 ^ (-(b.exponent - 2)).toNat

/-- A quarter of the last digit, on the same scale. -/
def quarter (b : BinaryForm) (step : ℤ) : ℕ := 10 ^ (-step).toNat * 2 ^ (b.exponent - 2).toNat

variable {b : BinaryForm} {step : ℤ}

theorem gap_pos : 0 < b.gap step := by
  unfold gap
  positivity

theorem quarter_pos : 0 < b.quarter step := by
  unfold quarter
  positivity

theorem one_le_below : 1 ≤ b.below ∧ b.below ≤ 2 := by
  unfold below
  split <;> decide

/-- The neighbour below the number on a grid. -/
def floor (b : BinaryForm) (step : ℤ) : ℕ := 4 * b.mantissa * b.quarter step / b.gap step

/-- A neighbour that is taken is in the interval, and none is taken only if neither is. -/
theorem neighbour?_cases (b : BinaryForm) (step : ℤ) :
    (∃ c, neighbour? b step = some c ∧ b.Contains (b.quarter step) (c * b.gap step)) ∨
      neighbour? b step = none ∧ ¬ b.Contains (b.quarter step) (b.floor step * b.gap step) := by
  have hinside : ∀ c, (if b.mantissa % 2 = 0 then
      decide ((4 * b.mantissa - b.below) * b.quarter step ≤ c * b.gap step ∧
        c * b.gap step ≤ (4 * b.mantissa + 2) * b.quarter step)
      else decide ((4 * b.mantissa - b.below) * b.quarter step < c * b.gap step ∧
        c * b.gap step < (4 * b.mantissa + 2) * b.quarter step)) =
      decide (b.Contains (b.quarter step) (c * b.gap step)) := by
    intro c
    by_cases heven : b.mantissa % 2 = 0 <;> simp [Contains, heven]
  have hyes := fun c h => of_decide_eq_true ((hinside c).symm.trans h)
  have hno := fun c h => of_decide_eq_false ((hinside c).symm.trans h)
  unfold neighbour?
  dsimp only
  split
  next hfloor hceiling =>
    left
    split
    · exact ⟨_, rfl, hyes _ hfloor⟩
    · exact ⟨_, rfl, hyes _ hceiling⟩
  next hfloor _ => exact .inl ⟨_, rfl, hyes _ hfloor⟩
  next _ hceiling => exact .inl ⟨_, rfl, hyes _ hceiling⟩
  next hfloor _ => exact .inr ⟨rfl, hno _ hfloor⟩

/-- A grid that is finer than a quarter of the last digit has a neighbour in the interval. -/
theorem contains_floor (hfine : b.gap step ≤ b.quarter step) :
    b.Contains (b.quarter step) (b.floor step * b.gap step) := by
  obtain ⟨hbelow, -⟩ := b.one_le_below
  have hgap : 0 < b.gap step := b.gap_pos
  have hquarter : 0 < b.quarter step := b.quarter_pos
  have hsplit := Nat.div_add_mod' (4 * b.mantissa * b.quarter step) (b.gap step)
  have hrest := Nat.mod_lt (4 * b.mantissa * b.quarter step) hgap
  have hlow : (4 * b.mantissa - b.below) * b.quarter step ≤
      4 * b.mantissa * b.quarter step - b.quarter step := by
    rw [← Nat.sub_one_mul]
    exact Nat.mul_le_mul_right _ (by omega)
  have hhigh : (4 * b.mantissa + 2) * b.quarter step =
      4 * b.mantissa * b.quarter step + 2 * b.quarter step := Nat.add_mul _ _ _
  have hself : b.mantissa % 2 ≠ 0 → 4 * b.quarter step ≤ 4 * b.mantissa * b.quarter step :=
    fun hodd => Nat.mul_le_mul_right _ (by omega)
  rw [Contains, hhigh, floor]
  split_ifs with heven
  · omega
  · have := hself heven
    omega

/-- On a scale on which all is larger by a factor, the same places are in the interval. -/
theorem contains_mul {q p k : ℕ} (hk : 0 < k) :
    b.Contains (q * k) (p * k) ↔ b.Contains q p := by
  simp only [Contains, ← Nat.mul_assoc, Nat.mul_le_mul_right_iff hk, Nat.mul_lt_mul_right hk]

/-- **What is in the interval is rounded to the number.** -/
theorem decimalUnits_of_contains (hm : b.mantissa < 2 ^ 53) (he : -1074 ≤ b.exponent)
    (hfull : 2 ^ 52 ≤ b.mantissa ∨ b.exponent = -1074) {c : ℕ}
    (h : b.Contains (b.quarter step) (c * b.gap step)) :
    decimalUnits c step = sizeInUnits b.mantissa b.exponent := by
  obtain ⟨k, hk, hone⟩ := exists_oneUnits_eq
  -- four units to a quarter of the last digit, on a scale on which all is whole
  have hquarter : b.quarter step * 2 ^ (k + 2 - (-(b.exponent - 2)).toNat) =
      2 ^ (b.exponent + 1074).toNat * 10 ^ (-step).toNat := by
    rw [quarter, Nat.mul_assoc, ← Nat.pow_add, Nat.mul_comm]
    congr 2
    omega
  have hplace : c * b.gap step * 2 ^ (k + 2 - (-(b.exponent - 2)).toNat) =
      4 * (c * 10 ^ step.toNat * oneUnits) := by
    rw [gap, hone, Nat.mul_assoc, Nat.mul_assoc, ← Nat.pow_add,
      show (-(b.exponent - 2)).toNat + (k + 2 - (-(b.exponent - 2)).toNat) = k + 2 by omega]
    ring
  rw [← contains_mul (Nat.two_pow_pos _), hquarter, hplace, Contains] at h
  have hten : 0 < 10 ^ (-step).toNat := by positivity
  have hpower : b.mantissa = 2 ^ 52 → (b.exponent + 1074).toNat ≠ 0 → b.below ≤ 1 :=
    fun hm hq => (if_pos ⟨hm, by omega⟩ : b.below = 1).le
  have hround := roundFraction_eq (c * 10 ^ step.toNat * oneUnits) hten hm
    (hfull.imp_right (by omega)) b.one_le_below.2 hpower
  by_cases heven : b.mantissa % 2 = 0
  · rw [if_pos heven] at h
    exact hround h.1 h.2 (by omega)
  · rw [if_neg heven] at h
    exact hround h.1.le h.2.le fun _ => h

/-- The first grid that has a neighbour is taken. -/
theorem firstGrid_spec {tries i : ℕ} (hi : i < tries)
    (h : b.gap (step - i) ≤ b.quarter (step - i)) :
    b.Contains (b.quarter (firstGrid b step tries).exponent)
      ((firstGrid b step tries).coefficient * b.gap (firstGrid b step tries).exponent) := by
  induction tries generalizing step i with
  | zero => exact absurd hi (Nat.not_lt_zero i)
  | succ tries ih =>
    rw [firstGrid]
    rcases neighbour?_cases b step with ⟨c, hc, hin⟩ | ⟨hnone, hout⟩
    · rw [hc]
      exact hin
    · rw [hnone]
      cases i with
      | zero =>
        rw [Nat.cast_zero, sub_zero] at h
        exact absurd (contains_floor h) hout
      | succ i =>
        refine ih (i := i) (by omega) ?_
        rwa [show step - 1 - (i : ℤ) = step - (i + 1 : ℕ) by omega]

end BinaryForm

/-! ## The fewest digits -/

/-- A number is at least its magnitude. -/
theorem pow_magnitude_le {num den : ℕ} (hnum : 0 < num) :
    10 ^ (magnitude num den).toNat * den ≤ num * 10 ^ (-magnitude num den).toNat := by
  rcases Nat.eq_zero_or_pos den with rfl | hden
  · exact Nat.zero_le _
  rw [magnitude]
  split_ifs with hone
  · have hquot : 0 < num / den := Nat.div_pos hone hden
    have hlow := (pow_length_digits hquot).1
    have hpos : 0 < (digits (num / den)).length := Nat.length_toDigits_pos
    rw [show (((digits (num / den)).length : ℤ) - 1).toNat = (digits (num / den)).length - 1 by
      omega, show (-(((digits (num / den)).length : ℤ) - 1)).toNat = 0 by omega, Nat.pow_zero,
      Nat.mul_one]
    exact (Nat.le_div_iff_mul_le hden).1 hlow
  · have hquot : 0 < (den - 1) / num := Nat.div_pos (by omega) hnum
    have hhigh := (Nat.div_lt_iff_lt_mul hnum).1 (pow_length_digits hquot).2
    rw [show (-((digits ((den - 1) / num)).length : ℤ)).toNat = 0 by omega, neg_neg,
      Int.toNat_natCast, Nat.pow_zero, Nat.one_mul, Nat.mul_comm]
    show den ≤ 10 ^ (Nat.toDigits 10 ((den - 1) / num)).length * num
    omega

/-- Seventeen digits after the first one are finer than a quarter of the last binary digit. -/
theorem gap_le_quarter {b : BinaryForm} (hm : b.mantissa < 2 ^ 53) {k : ℤ}
    (hk : 10 ^ k.toNat * b.ratio.2 ≤ b.ratio.1 * 10 ^ (-k).toNat) :
    b.gap (k - 17) ≤ b.quarter (k - 17) := by
  have hten : 10 ^ k.toNat * 10 ^ (-(k - 17)).toNat =
      10 ^ 17 * (10 ^ (k - 17).toNat * 10 ^ (-k).toNat) := by
    rw [← Nat.pow_add, ← Nat.pow_add, ← Nat.pow_add]
    congr 1
    omega
  have htwo : 2 ^ b.exponent.toNat * 2 ^ (-(b.exponent - 2)).toNat =
      2 ^ 2 * (2 ^ (b.exponent - 2).toNat * 2 ^ (-b.exponent).toNat) := by
    rw [← Nat.pow_add, ← Nat.pow_add, ← Nat.pow_add]
    congr 1
    omega
  have hscale : 0 < 10 ^ (-k).toNat * 2 ^ (-b.exponent).toNat := by positivity
  have hbits : b.mantissa * 2 ^ 2 ≤ 10 ^ 17 := by omega
  refine Nat.le_of_mul_le_mul_left ?_ (Nat.mul_pos (show 0 < 10 ^ 17 by decide) hscale)
  calc 10 ^ 17 * (10 ^ (-k).toNat * 2 ^ (-b.exponent).toNat) * b.gap (k - 17)
      = 10 ^ 17 * (10 ^ (k - 17).toNat * 10 ^ (-k).toNat) *
          (2 ^ (-b.exponent).toNat * 2 ^ (-(b.exponent - 2)).toNat) := by
        rw [BinaryForm.gap]
        ac_rfl
    _ = 10 ^ k.toNat * b.ratio.2 *
          (10 ^ (-(k - 17)).toNat * 2 ^ (-(b.exponent - 2)).toNat) := by
        rw [← hten]
        exact Nat.mul_mul_mul_comm _ _ _ _
    _ ≤ b.ratio.1 * 10 ^ (-k).toNat *
          (10 ^ (-(k - 17)).toNat * 2 ^ (-(b.exponent - 2)).toNat) := Nat.mul_le_mul_right _ hk
    _ = b.mantissa * (2 ^ b.exponent.toNat * 2 ^ (-(b.exponent - 2)).toNat) *
          (10 ^ (-k).toNat * 10 ^ (-(k - 17)).toNat) := by
        show b.mantissa * 2 ^ b.exponent.toNat * _ * _ = _
        ac_rfl
    _ = b.mantissa * 2 ^ 2 *
          (10 ^ (-k).toNat * 2 ^ (-b.exponent).toNat * b.quarter (k - 17)) := by
        rw [htwo, BinaryForm.quarter]
        ac_rfl
    _ ≤ 10 ^ 17 * (10 ^ (-k).toNat * 2 ^ (-b.exponent).toNat * b.quarter (k - 17)) :=
        Nat.mul_le_mul_right _ hbits
    _ = 10 ^ 17 * (10 ^ (-k).toNat * 2 ^ (-b.exponent).toNat) * b.quarter (k - 17) :=
        (Nat.mul_assoc _ _ _).symm

/-- **The fewest digits are in the interval** of the number. -/
theorem contains_shortestOf {b : BinaryForm} (hpos : 0 < b.mantissa) (hm : b.mantissa < 2 ^ 53) :
    b.Contains (b.quarter (shortestOf b).exponent)
      ((shortestOf b).coefficient * b.gap (shortestOf b).exponent) := by
  have hnum : 0 < b.ratio.1 := Nat.mul_pos hpos (Nat.two_pow_pos _)
  have hdef : shortestOf b = firstGrid b (magnitude b.ratio.1 b.ratio.2) 18 := by
    rw [shortestOf, if_neg hpos.ne']
  rw [hdef]
  exact BinaryForm.firstGrid_spec (i := 17) (by decide)
    (gap_le_quarter hm (pow_magnitude_le hnum))

/-- The decimal with the fewest digits is not zero, and it is rounded to the number. -/
theorem decimalUnits_shortestOf {x : Float} {b : BinaryForm}
    (h : BinaryForm.ofFloat? x = some b) (hpos : 0 < b.mantissa) :
    0 < (shortestOf b).coefficient ∧
      decimalUnits (shortestOf b).coefficient (shortestOf b).exponent =
        sizeInUnits b.mantissa b.exponent := by
  obtain ⟨hm, he, hfull⟩ := rounded_of_ofFloat? h hpos
  have hin := contains_shortestOf hpos hm
  refine ⟨Nat.pos_of_ne_zero fun hzero => ?_,
    BinaryForm.decimalUnits_of_contains hm he hfull hin⟩
  rw [hzero, Nat.zero_mul, BinaryForm.Contains] at hin
  have hdigit : 0 < 4 * b.mantissa - b.below := by
    have := b.one_le_below.2
    omega
  have hquarter : 0 < b.quarter (shortestOf b).exponent := b.quarter_pos
  have hlow := Nat.mul_pos hdigit hquarter
  split_ifs at hin with heven <;> omega

/-- **The fewest digits read back.** -/
theorem ofDecimal_shortestOf {x : Float} {b : BinaryForm} (h : BinaryForm.ofFloat? x = some b)
    (hpos : 0 < b.mantissa) :
    ofDecimal b.negative (shortestOf b).coefficient (shortestOf b).exponent = x :=
  ofDecimal_eq h (decimalUnits_shortestOf h hpos).2

end Housewright.Decimal
