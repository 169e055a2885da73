import Mathlib.Data.Real.Basic
import Mathlib.Tactic.FieldSimp
import Mathlib.Tactic.Linarith
import Mathlib.Tactic.Positivity
import Housewright.Proofs.Binary64.Products

/-!
# Errors of floating-point arithmetic

The sum, the difference and the product of two finite numbers are off by at most half of their last
bit, wherever they are not too large to be finite.  Products may fall below the last bit that a
number can have, so that the error has a part which does not depend on the size.

* `HasSize.mul`, `HasSize.half`: what the size of a product and of a half is;
* `value`, `Rounds`: a number as a real one, and the numbers that a real one may be rounded to;
* `Rounds.error`: the error in terms of a bound of the exact result;
* `rounds_add`, `rounds_sub`, `rounds_mul`, `rounds_half`: the operations round the exact results;
* `half_lt_zero_iff`: halving keeps the sign.
-/

namespace Housewright.Binary64

open Float.Model Float.Model.UnpackedFloat

/-! ## Products -/

/-- **A product of rounded parts** is rounded once, however small it is. -/
theorem mul_hasSize_of_rounded {s t : Sign} {m₁ m₂ : ℕ} {e₁ e₂ : ℤ} {h₁ : 0 < m₁} {h₂ : 0 < m₂}
    (hr₁ : Rounded (.finite s m₁ e₁ h₁)) (hr₂ : Rounded (.finite t m₂ e₂ h₂)) :
    HasSize (s * t) (roundFraction (sizeInUnits m₁ e₁ * sizeInUnits m₂ e₂) oneUnits)
      (UnpackedFloat.mul Format.binary64 (.finite s m₁ e₁ h₁) (.finite t m₂ e₂ h₂)) := by
  obtain ⟨-, hlow₁, hfull₁⟩ := hr₁
  obtain ⟨-, hlow₂, hfull₂⟩ := hr₂
  obtain ⟨k, hk, hone⟩ := exists_oneUnits_eq
  rcases lt_or_ge (e₁ + e₂) (-1074) with hsmall | hlarge
  · have hcross : sizeInUnits m₁ e₁ * sizeInUnits m₂ e₂ * 2 ^ (-1074 - (e₁ + e₂)).toNat =
        m₁ * m₂ * oneUnits := by
      have hpow : 2 ^ (e₁ + 1074).toNat * 2 ^ (e₂ + 1074).toNat * 2 ^ (-1074 - (e₁ + e₂)).toNat =
          2 ^ k := by
        rw [← Nat.pow_add, ← Nat.pow_add]
        congr 1
        omega
      rw [sizeInUnits, sizeInUnits, hone, ← hpow]
      ring
    rw [roundFraction_congr oneUnits_pos (by positivity) hcross]
    exact roundWithAccuracy_of_lt _ hsmall
  · have hcross : sizeInUnits m₁ e₁ * sizeInUnits m₂ e₂ * 1 =
        sizeInUnits (m₁ * m₂) (e₁ + e₂) * oneUnits := by
      have hpow : 2 ^ (e₁ + 1074).toNat * 2 ^ (e₂ + 1074).toNat =
          2 ^ (e₁ + e₂ + 1074).toNat * 2 ^ k := by
        rw [← Nat.pow_add, ← Nat.pow_add]
        congr 1
        omega
      calc sizeInUnits m₁ e₁ * sizeInUnits m₂ e₂ * 1
          = m₁ * m₂ * (2 ^ (e₁ + 1074).toNat * 2 ^ (e₂ + 1074).toNat) := by
            rw [sizeInUnits, sizeInUnits]
            ring
        _ = sizeInUnits (m₁ * m₂) (e₁ + e₂) * oneUnits := by
            rw [hpow, sizeInUnits, hone]
            ring
    rw [roundFraction_congr oneUnits_pos Nat.one_pos hcross, roundFraction_one]
    refine mul_hasSize s t h₁ h₂ hlarge ?_
    rcases hfull₁ with hfull | hlast
    · exact hfull.trans (Nat.le_mul_of_pos_right _ h₂)
    · exact (hfull₂.resolve_right (by omega)).trans (Nat.le_mul_of_pos_left _ h₁)

theorem apply_mul_apply (s t : Sign) (a b : ℕ) :
    s.apply (a : ℤ) * t.apply (b : ℤ) = (s * t).apply ((a * b : ℕ) : ℤ) := by
  rw [Nat.cast_mul]
  cases s <;> cases t
  · exact neg_mul_neg _ _
  · exact neg_mul _ _
  · exact mul_neg _ _
  · rfl

section Sizes

variable {s t : Sign} {a b : ℕ} {f g : UnpackedFloat} {x z : Float}

theorem roundFraction_zero (den : ℕ) : roundFraction 0 den = 0 := by
  simp [roundFraction, Decimal.roundDiv]

/-- **A product** has the rounded product of the sizes. -/
theorem HasSize.mul (hf : HasSize s a f) (hg : HasSize t b g) :
    HasSize (s * t) (roundFraction (a * b) oneUnits) (UnpackedFloat.mul Format.binary64 f g) := by
  cases hf with
  | zero =>
    rw [Nat.zero_mul, roundFraction_zero]
    cases hg <;> exact .zero
  | finite hr =>
    cases hg with
    | zero =>
      rw [Nat.mul_zero, roundFraction_zero]
      exact .zero
    | finite hr' => exact mul_hasSize_of_rounded hr hr'

theorem parts_two : parts 2.0 = .finite .positive (2 ^ 52) (-51) (by decide) := rfl

/-- **A half** has the rounded half of the size. -/
theorem HasSize.half (hf : HasSize s a f) :
    HasSize s (roundFraction a 2) (UnpackedFloat.div Format.binary64 f (parts 2.0)) := by
  have hsign : s / Sign.positive = s := by cases s <;> rfl
  rw [parts_two]
  cases hf with
  | zero =>
    rw [roundFraction_zero]
    show HasSize s 0 (.zero (s / Sign.positive))
    rw [hsign]
    exact .zero
  | @finite m e hm hr =>
    have hlow := hr.2.1
    have hcross : sizeInUnits m e * 2 ^ 52 = m * 2 ^ (e - -51 + 1074).toNat * 2 := by
      have hpow : 2 ^ (e + 1074).toNat * 2 ^ 52 = 2 ^ (e - -51 + 1074).toNat * 2 := by
        rw [← Nat.pow_add, ← Nat.pow_succ]
        congr 1
        omega
      rw [sizeInUnits, Nat.mul_assoc, hpow, Nat.mul_assoc]
    have hdiv := div_hasSize s .positive hm (show 0 < 2 ^ 52 by decide)
      (show -1074 ≤ e - -51 by omega)
    rwa [hsign, ← roundFraction_congr two_pos (by decide) hcross] at hdiv

/-- The parts of a finite number have its place as their size. -/
theorem exists_hasSize_parts (hx : x.isFinite = true) :
    ∃ s n, HasSize s n (parts x) ∧ units x = s.apply (n : ℤ) := by
  have hr := rounded_parts x
  rw [isFinite_eq] at hx
  rw [units]
  cases hp : parts x with
  | notANumber => simp [hp, UnpackedFloat.isFinite] at hx
  | infinity s => simp [hp, UnpackedFloat.isFinite] at hx
  | zero s => exact ⟨s, 0, .zero, by cases s <;> rfl⟩
  | finite s m e hm => exact ⟨s, sizeInUnits m e, .finite (hp ▸ hr), rfl⟩

/-- A number that is packed from parts with a size is at this size, or at infinity. -/
theorem units_of_hasSize (h : HasSize s a f)
    (hz : parts z = UnpackedFloat.unpack Format.binary64 (UnpackedFloat.pack Format.binary64 f)) :
    z.isNaN = false ∧ units z = s.apply (min a infinityUnits : ℕ) := by
  obtain ⟨hr, hnan, hplace⟩ := h.saturated
  rw [isNaN_eq, units, hz, unpack_pack hr]
  exact ⟨hnan, hplace⟩

end Sizes

/-! ## Values -/

noncomputable section

/-- A finite number as a real number. -/
def value (x : Float) : ℝ := (units x : ℝ) / oneUnits

/-- The least number with a full mantissa. -/
def leastNormal : ℝ := (2 ^ 52 : ℕ) / oneUnits

/-- Half of what no finite number reaches. -/
def halfInfinity : ℝ := (infinityUnits : ℝ) / (2 : ℕ) / oneUnits

/-- The number is finite, and off a real one by half of the last bit at most. -/
structure Rounds (x : Float) (v : ℝ) : Prop where
  isFinite : x.isFinite = true
  close : 2 ^ 53 * |value x - v| ≤ |v| + leastNormal

theorem oneUnits_pos_real : (0 : ℝ) < oneUnits := by exact_mod_cast oneUnits_pos

theorem leastNormal_pos : 0 < leastNormal := div_pos (by positivity) oneUnits_pos_real

theorem two_le_infinityUnits : 2 ≤ infinityUnits := by
  obtain ⟨r, k, hr, -, -, hinf⟩ := exists_infinityUnits_eq
  rw [hinf]
  exact Nat.le_self_pow (by omega) 2

/-- A fraction of at most half of infinity is rounded to something finite. -/
theorem roundFraction_lt_infinityUnits {num den : ℕ} (hden : 0 < den)
    (h : 2 * num ≤ infinityUnits * den) : roundFraction num den < infinityUnits := by
  have htwo : 2 * den ≤ infinityUnits * den := Nat.mul_le_mul_right _ two_le_infinityUnits
  obtain ⟨hhigh, -⟩ := roundFraction_error num hden
  by_contra hlarge
  have hle := Nat.mul_le_mul_right den (not_lt.1 hlarge)
  omega

/-- The error of a rounded fraction of units. -/
theorem abs_roundFraction_sub_le (num : ℕ) {den : ℕ} (hden : 0 < den) :
    2 ^ 53 * |(roundFraction num den : ℝ) / oneUnits - num / den / oneUnits| ≤
      num / den / oneUnits + leastNormal := by
  have hone := oneUnits_pos_real
  have hdenpos : (0 : ℝ) < den := by exact_mod_cast hden
  obtain ⟨hhigh, hlow⟩ := roundFraction_error num hden
  have hhigh : 2 ^ 53 * ((roundFraction num den : ℝ) * den) ≤ 2 ^ 53 * num + (2 ^ 52 * den + num) :=
    by exact_mod_cast hhigh
  have hlow : 2 ^ 53 * (num : ℝ) ≤ 2 ^ 53 * (roundFraction num den * den) + (2 ^ 52 * den + num) :=
    by exact_mod_cast hlow
  have hsplit : (roundFraction num den : ℝ) / oneUnits - num / den / oneUnits =
      (roundFraction num den * den - num) / (den * oneUnits) := by
    field_simp
  have hbound : (num : ℝ) / den / oneUnits + leastNormal =
      (2 ^ 52 * den + num) / (den * oneUnits) := by
    rw [leastNormal]
    push_cast
    field_simp
    ring
  rw [hsplit, hbound, abs_div, abs_of_pos (mul_pos hdenpos hone), ← mul_div_assoc]
  refine div_le_div_of_nonneg_right ?_ (mul_pos hdenpos hone).le
  rw [← abs_of_pos (show (0 : ℝ) < 2 ^ 53 by positivity), ← abs_mul, abs_le]
  constructor <;> linarith

/-- **What is rounded from a fraction** of units is that fraction, rounded. -/
theorem rounds_of_units {z : Float} {s : Sign} {num den : ℕ} (hden : 0 < den)
    (hnan : z.isNaN = false)
    (hz : units z = s.apply (min (roundFraction num den) infinityUnits : ℕ))
    (hsmall : |(s.apply (num : ℤ) : ℝ) / den / oneUnits| ≤ halfInfinity) :
    Rounds z ((s.apply (num : ℤ) : ℝ) / den / oneUnits) := by
  have hone := oneUnits_pos_real
  have hdenpos : (0 : ℝ) < den := by exact_mod_cast hden
  have hsize : |(s.apply (num : ℤ) : ℝ) / den / oneUnits| = num / den / oneUnits := by
    have habs : |(s.apply (num : ℤ) : ℝ)| = num := by exact_mod_cast abs_apply s num
    rw [abs_div, abs_div, abs_of_pos hone, abs_of_pos hdenpos, habs]
  have herror := abs_roundFraction_sub_le num hden
  have hbelow : roundFraction num den < infinityUnits := by
    refine roundFraction_lt_infinityUnits hden ?_
    rw [hsize, halfInfinity, Nat.cast_ofNat, div_le_div_iff_of_pos_right hone,
      div_le_div_iff₀ hdenpos two_pos, mul_comm] at hsmall
    exact_mod_cast hsmall
  rw [min_eq_left hbelow.le] at hz
  generalize roundFraction num den = q at hz herror hbelow
  have hfinite : z.isFinite = true := by
    rw [isFinite_iff hnan, hz]
    cases s <;> simp only [Sign.apply] <;> omega
  refine ⟨hfinite, hsize ▸ ?_⟩
  cases s with
  | positive =>
    have hvalue : value z - (Sign.positive.apply (num : ℤ) : ℝ) / den / oneUnits =
        (q : ℝ) / oneUnits - num / den / oneUnits := by
      rw [value, hz]
      simp only [Sign.apply]
      push_cast
      ring
    rwa [hvalue]
  | negative =>
    have hvalue : value z - (Sign.negative.apply (num : ℤ) : ℝ) / den / oneUnits =
        -((q : ℝ) / oneUnits - num / den / oneUnits) := by
      rw [value, hz]
      simp only [Sign.apply]
      push_cast
      ring
    rwa [hvalue, abs_neg]

/-! ## Bounds -/

/-- The error of a number that is rounded from something within a bound.  What products may lose
below the last bit of a number is made up for by a part of `S`. -/
theorem Rounds.error {x : Float} {v B S : ℝ} (h : Rounds x v) (hv : |v| ≤ B)
    (hS : 16 * leastNormal ≤ S) : |value x - v| ≤ (B + S / 16) / 2 ^ 53 := by
  have hclose := h.close
  rw [le_div_iff₀ (by positivity), mul_comm]
  linarith

theorem leastNormal_le : 2 ^ 60 * leastNormal ≤ 1 := by
  obtain ⟨k, hk, hone⟩ := exists_oneUnits_eq
  have hpow : (2 : ℝ) ^ 112 ≤ oneUnits := by
    rw [hone, Nat.cast_pow, Nat.cast_ofNat]
    exact pow_le_pow_right₀ one_le_two (by omega)
  rw [leastNormal, ← mul_div_assoc, div_le_one oneUnits_pos_real]
  push_cast
  linarith

theorem two_pow_le_halfInfinity {j : ℕ} (hj : j ≤ 1023) : (2 : ℝ) ^ j ≤ halfInfinity := by
  obtain ⟨r, k, hr, -, hone, hinf⟩ := exists_infinityUnits_eq
  have hsplit : halfInfinity = 2 ^ (r - 1) := by
    have hpow : (2 : ℝ) ^ (r + k) = 2 * 2 ^ (r - 1) * 2 ^ k := by
      rw [← pow_succ', ← pow_add]
      congr 1
      omega
    rw [halfInfinity, hone, hinf]
    push_cast
    rw [hpow]
    field_simp
  rw [hsplit]
  exact pow_le_pow_right₀ one_le_two (by omega)

/-- So many units are a whole number. -/
theorem value_eq {x : Float} {n : ℤ} (h : units x = n * oneUnits) : value x = n := by
  rw [value, h]
  push_cast
  exact mul_div_cancel_right₀ _ oneUnits_pos_real.ne'

theorem value_zero : value 0.0 = 0 := by
  rw [value, units_zero, Int.cast_zero, zero_div]

theorem lt_zero_iff {x : Float} (hx : x.isFinite = true) : x < 0.0 ↔ value x < 0 := by
  rw [lt_iff (isNaN_of_isFinite hx) (by decide +kernel), units_zero, value,
    div_lt_iff₀ oneUnits_pos_real, zero_mul, Int.cast_lt_zero]

/-! ## The operations -/

section Operations

variable {x y : Float}

theorem exists_apply_eq (n : ℤ) : ∃ (s : Sign) (a : ℕ), n = s.apply (a : ℤ) := by
  rcases Int.natAbs_eq n with hpos | hneg
  · exact ⟨.positive, n.natAbs, hpos⟩
  · exact ⟨.negative, n.natAbs, hneg⟩

/-- **A sum** is the exact one, rounded. -/
theorem rounds_add (hx : x.isFinite = true) (hy : y.isFinite = true)
    (h : |value x + value y| ≤ halfInfinity) : Rounds (x + y) (value x + value y) := by
  obtain ⟨hnan, hunits⟩ := units_add hx hy
  obtain ⟨s, a, hsum⟩ := exists_apply_eq (units x + units y)
  have hvalue : value x + value y = (s.apply (a : ℤ) : ℝ) / (1 : ℕ) / oneUnits := by
    rw [← hsum, value, value]
    push_cast
    ring
  rw [hvalue] at h ⊢
  refine rounds_of_units Nat.one_pos hnan ?_ h
  rw [hunits, hsum, roundPlace_apply, roundFraction_one]

theorem value_neg (x : Float) : value (-x) = -value x := by
  rw [value, value, units_neg]
  push_cast
  ring

/-- **A difference** is the exact one, rounded. -/
theorem rounds_sub (hx : x.isFinite = true) (hy : y.isFinite = true)
    (h : |value x - value y| ≤ halfInfinity) : Rounds (x - y) (value x - value y) := by
  have hvalue : value x - value y = value x + value (-y) := by
    rw [value_neg]
    ring
  rw [hvalue] at h ⊢
  rw [sub_eq_add_neg]
  exact rounds_add hx ((isFinite_neg y).trans hy) h

/-- **A product** is the exact one, rounded. -/
theorem rounds_mul (hx : x.isFinite = true) (hy : y.isFinite = true)
    (h : |value x * value y| ≤ halfInfinity) : Rounds (x * y) (value x * value y) := by
  obtain ⟨s, a, hsize, hunits⟩ := exists_hasSize_parts hx
  obtain ⟨t, b, hsize', hunits'⟩ := exists_hasSize_parts hy
  obtain ⟨hnan, hplace⟩ := units_of_hasSize (hsize.mul hsize') (parts_mul x y)
  have hvalue : value x * value y =
      ((s * t).apply ((a * b : ℕ) : ℤ) : ℝ) / oneUnits / oneUnits := by
    have hone := oneUnits_pos_real.ne'
    rw [← apply_mul_apply, ← hunits, ← hunits', value, value]
    push_cast
    field_simp
  rw [hvalue] at h ⊢
  exact rounds_of_units oneUnits_pos hnan hplace h

/-- **A half** is the exact one, rounded. -/
theorem rounds_half (hx : x.isFinite = true) (h : |value x / 2| ≤ halfInfinity) :
    Rounds (x / 2.0) (value x / 2) := by
  obtain ⟨s, a, hsize, hunits⟩ := exists_hasSize_parts hx
  obtain ⟨hnan, hplace⟩ := units_of_hasSize (z := x / 2.0) hsize.half rfl
  have hvalue : value x / 2 = (s.apply (a : ℤ) : ℝ) / (2 : ℕ) / oneUnits := by
    rw [← hunits, value]
    push_cast
    ring
  rw [hvalue] at h ⊢
  exact rounds_of_units two_pos hnan hplace h

/-- Halving keeps the sign of a number that is not too small. -/
theorem half_lt_zero_iff (hx : x.isFinite = true) (hlow : leastNormal ≤ |value x|)
    (hhigh : |value x| ≤ halfInfinity) : x / 2.0 < 0.0 ↔ value x < 0 := by
  have hleast := leastNormal_pos
  have hsize : |value x / 2| = |value x| / 2 := by rw [abs_div, abs_of_pos (two_pos (α := ℝ))]
  have hhalf := rounds_half hx (hsize ▸ by linarith)
  have herror := hhalf.error (S := 16 * |value x|) hsize.le (by linarith)
  rw [lt_zero_iff hhalf.isFinite]
  rw [abs_le] at herror
  rcases abs_cases (value x) with ⟨habs, hsign⟩ | ⟨habs, hsign⟩
  · rw [habs] at herror hlow
    constructor <;> intro hneg <;> linarith
  · rw [habs] at herror
    constructor <;> intro hneg <;> linarith

end Operations

end

end Housewright.Binary64
