import Housewright.Decimal.Fixed
import Housewright.Proofs.Decimal.Forms

/-!
# Numbers rounded to decimal places

A finite number is brought to the nearest whole number of steps of `10 ^ -places`, and what that
makes is rounded to 53 bits.

* `steps`, `steps_error`: the nearest whole number of steps;
* `units_roundPlaces`: where they are, with the sign of the number.
-/

namespace Housewright.Decimal

open Binary64 Float.Model Float.Model.UnpackedFloat

/-- The whole number of steps of `10 ^ -places` that is nearest to the size of a number. -/
def steps (places : ℕ) (x : Float) : ℕ := roundDiv ((units x).natAbs * 10 ^ places) oneUnits

theorem steps_error (places : ℕ) (x : Float) :
    2 * (steps places x * oneUnits) ≤ 2 * ((units x).natAbs * 10 ^ places) + oneUnits ∧
      2 * ((units x).natAbs * 10 ^ places) ≤ 2 * (steps places x * oneUnits) + oneUnits :=
  roundDiv_error _ oneUnits_pos

/-- The size of a number is the fraction that it is read as. -/
theorem ratio_eq {x : Float} {b : BinaryForm} (h : BinaryForm.ofFloat? x = some b) :
    b.ratio.1 * oneUnits = (units x).natAbs * b.ratio.2 := by
  obtain ⟨k, hk, hone⟩ := exists_oneUnits_eq
  have hsize : (units x).natAbs = sizeInUnits b.mantissa b.exponent := by
    rw [units_of_ofFloat? h]
    cases signOf b.negative
    · exact (Int.natAbs_neg _).trans (Int.natAbs_natCast _)
    · exact Int.natAbs_natCast _
  show b.mantissa * 2 ^ b.exponent.toNat * oneUnits = _ * 2 ^ (-b.exponent).toNat
  rw [hsize, hone, sizeInUnits]
  rcases Nat.eq_zero_or_pos b.mantissa with hzero | hpos
  · rw [hzero, Nat.zero_mul, Nat.zero_mul, Nat.zero_mul, Nat.zero_mul]
  · obtain ⟨-, hlow, -⟩ := rounded_of_ofFloat? h hpos
    have hpow : 2 ^ b.exponent.toNat * 2 ^ k =
        2 ^ (b.exponent + 1074).toNat * 2 ^ (-b.exponent).toNat := by
      rw [← Nat.pow_add, ← Nat.pow_add]
      congr 1
      omega
    rw [Nat.mul_assoc, hpow, Nat.mul_assoc]

theorem roundDiv_ratio {x : Float} {b : BinaryForm} (h : BinaryForm.ofFloat? x = some b)
    (places : ℕ) : roundDiv (b.ratio.1 * 10 ^ places) b.ratio.2 = steps places x := by
  have hden : 0 < b.ratio.2 := Nat.two_pow_pos _
  rw [steps, ← roundDiv_mul_right _ _ oneUnits_pos, ← roundDiv_mul_right _ oneUnits hden,
    Nat.mul_comm oneUnits, Nat.mul_right_comm, ratio_eq h, Nat.mul_right_comm]

/-- Zero is no step. -/
theorem steps_eq_zero {x : Float} (h : units x = 0) (places : ℕ) : steps places x = 0 := by
  have hround := roundDiv_mul_self 0 oneUnits_pos
  rw [Nat.zero_mul] at hround
  rw [steps, h, Int.natAbs_zero, Nat.zero_mul, hround]

/-- What is read for some steps. -/
theorem units_ofScientific_steps (n places : ℕ) :
    (Float.ofScientific n true places).isNaN = false ∧
      units (Float.ofScientific n true places) =
        (min (roundFraction (n * oneUnits) (10 ^ places)) infinityUnits : ℕ) := by
  obtain ⟨g, hg, hparts⟩ : ∃ g, HasSize .positive (roundFraction (n * oneUnits) (10 ^ places)) g ∧
      parts (Float.ofScientific n true places) = saturated g := by
    rcases Nat.eq_zero_or_pos n with rfl | hpos
    · rw [Nat.zero_mul, roundFraction_eq_zero (by positivity), parts_ofScientific_zero]
      exact ⟨_, .zero, rfl⟩
    · obtain ⟨g, hg, hparts⟩ := parts_ofScientific hpos true places
      refine ⟨g, ?_, hparts⟩
      have hunits : decimalUnits n (-places) = roundFraction (n * oneUnits) (10 ^ places) := by
        rw [decimalUnits, neg_neg, Int.toNat_natCast, show (-(places : ℤ)).toNat = 0 by omega,
          Nat.pow_zero, Nat.mul_one]
      exact hunits ▸ hg
  obtain ⟨-, hnan, hplace⟩ := hg.saturated
  rw [isNaN_eq, units, hparts]
  exact ⟨hnan, hplace⟩

/-- **A number that is rounded to places** is where its steps are, rounded to 53 bits. -/
theorem units_roundPlaces {x : Float} (h : x.isFinite = true) (places : ℕ) :
    (roundPlaces places x).isNaN = false ∧ units (roundPlaces places x) =
      (units x).sign *
        (min (roundFraction (steps places x * oneUnits) (10 ^ places)) infinityUnits : ℕ) := by
  obtain ⟨b, hb⟩ := exists_ofFloat?_eq h
  have hround : roundPlaces places x = if b.negative then
      -Float.ofScientific (steps places x) true places
      else Float.ofScientific (steps places x) true places := by
    rw [← roundDiv_ratio hb, roundPlaces, hb]
    rfl
  obtain ⟨hnan, hunits⟩ := units_ofScientific_steps (steps places x) places
  have hx := units_of_ofFloat? hb
  rw [hround]
  rcases eq_or_ne (units x) 0 with hzero | hne
  · rw [steps_eq_zero hzero, Nat.zero_mul, roundFraction_eq_zero (by positivity),
      Nat.zero_min] at hunits
    rw [hzero, Int.sign_zero, zero_mul, steps_eq_zero hzero]
    rw [steps_eq_zero hzero] at hnan
    split
    · exact ⟨(isNaN_neg _).trans hnan, by rw [units_neg, hunits]; rfl⟩
    · exact ⟨hnan, hunits⟩
  · cases hsign : b.negative with
    | false =>
      rw [hsign] at hx
      have hpos : 0 < units x := lt_of_le_of_ne (hx ▸ Int.natCast_nonneg _) hne.symm
      rw [Int.sign_eq_one_of_pos hpos, one_mul]
      exact ⟨hnan, hunits⟩
    | true =>
      rw [hsign] at hx
      have hneg : units x < 0 :=
        lt_of_le_of_ne (hx ▸ Int.neg_nonpos_of_nonneg (Int.natCast_nonneg _)) hne
      rw [Int.sign_eq_neg_one_of_neg hneg, neg_one_mul, ← hunits]
      exact ⟨(isNaN_neg _).trans hnan, units_neg _⟩

end Housewright.Decimal
