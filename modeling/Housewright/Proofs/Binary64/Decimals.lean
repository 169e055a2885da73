import Housewright.Proofs.Binary64.Products
import Housewright.Decimal.Reading

/-!
# Reading decimals rounds once

What is read for a decimal is the exact decimal rounded to 53 bits (`parts_ofDecimal`), whatever
the coefficient and the exponent: also by the short cut for few digits, which takes a product or
a quotient of exact numbers (`short_nearest`), and far outside the range of finite numbers, where
no power of ten is taken.
-/

namespace Housewright.Binary64

open Decimal Float.Model Float.Model.UnpackedFloat

/-- The size of a decimal in units, rounded to 53 bits. -/
def decimalUnits (c : ℕ) (e : ℤ) : ℕ :=
  roundFraction (c * 10 ^ e.toNat * oneUnits) (10 ^ (-e).toNat)

/-- A factor of ten goes from the coefficient to the exponent. -/
theorem decimalUnits_mul_ten_pow (c j : ℕ) (e : ℤ) :
    decimalUnits (c * 10 ^ j) e = decimalUnits c (e + j) := by
  refine roundFraction_congr (by positivity) (by positivity) ?_
  have hpow : 10 ^ j * 10 ^ e.toNat * 10 ^ (-(e + j)).toNat =
      10 ^ (e + j).toNat * 10 ^ (-e).toNat := by
    rw [← Nat.pow_add, ← Nat.pow_add, ← Nat.pow_add]
    congr 1
    omega
  calc c * 10 ^ j * 10 ^ e.toNat * oneUnits * 10 ^ (-(e + j)).toNat
      = c * oneUnits * (10 ^ j * 10 ^ e.toNat * 10 ^ (-(e + j)).toNat) := by ac_rfl
    _ = c * 10 ^ (e + j).toNat * oneUnits * 10 ^ (-e).toNat := by
      rw [hpow]
      ac_rfl

/-- The decimal, rounded once: what is too large is infinite. -/
def Nearest (c : ℕ) (e : ℤ) (f : UnpackedFloat) : Prop :=
  ∃ g, HasSize .positive (decimalUnits c e) g ∧ f = saturated g

/-! ## Far out of range -/

/-- What is less than half a unit is rounded to zero. -/
theorem roundFraction_eq_zero {num den : ℕ} (h : 2 * num < den) : roundFraction num den = 0 := by
  have hdiv : num / den = 0 := Nat.div_eq_of_lt (by omega)
  have hmod : num % den = num := Nat.mod_eq_of_lt (by omega)
  rw [roundFraction, hdiv, show droppedBits 0 = 0 from rfl, Nat.pow_zero, Nat.mul_one, Nat.mul_one,
    roundDiv]
  simp only [hdiv, hmod, if_pos h]

/-- Rounding does not go below a power of two. -/
theorem two_pow_le_roundFraction {num den k : ℕ} (hden : 0 < den) (h : 2 ^ k * den ≤ num) :
    2 ^ k ≤ roundFraction num den := by
  have hquot : 2 ^ k ≤ num / den := (Nat.le_div_iff_mul_le hden).2 h
  set d := droppedBits (num / den) with hd
  have hbits : num / den / 2 ^ d * 2 ^ d ≤ roundFraction num den := by
    rw [Nat.div_div_eq_div_mul]
    exact Nat.mul_le_mul_right _ (div_le_roundDiv _ _)
  have hn : num / den ≠ 0 := by
    have := Nat.two_pow_pos k
    omega
  have hlog : k ≤ (num / den).log2 := (Nat.le_log2 hn).2 hquot
  have hd' : d ≤ (num / den).log2 := Nat.sub_le _ _
  have hkept : 2 ^ ((num / den).log2 - d) ≤ num / den / 2 ^ d := by
    rw [Nat.le_div_iff_mul_le (Nat.two_pow_pos d), ← Nat.pow_add, Nat.sub_add_cancel hd']
    exact Nat.log2_self_le hn
  calc 2 ^ k ≤ 2 ^ ((num / den).log2 - d) * 2 ^ d := by
        rw [← Nat.pow_add, Nat.sub_add_cancel hd']
        exact Nat.pow_le_pow_right (by decide) hlog
    _ ≤ num / den / 2 ^ d * 2 ^ d := Nat.mul_le_mul_right _ hkept
    _ ≤ roundFraction num den := hbits

theorem two_pow_le_ten_pow {k l : ℕ} (h : k ≤ 3 * l) : 2 ^ k ≤ 10 ^ l :=
  calc 2 ^ k ≤ 2 ^ (3 * l) := Nat.pow_le_pow_right (by decide) h
    _ = (2 ^ 3) ^ l := Nat.pow_mul _ _ _
    _ ≤ 10 ^ l := Nat.pow_le_pow_left (by decide) l

/-- So small a decimal is rounded to zero. -/
theorem decimalUnits_eq_zero {c j : ℕ} {e : ℤ} (hc : c < 10 ^ j) (h : j + e ≤ -400) :
    decimalUnits c e = 0 := by
  obtain ⟨k, hk, hone⟩ := exists_oneUnits_eq
  refine roundFraction_eq_zero ?_
  rw [hone]
  calc 2 * (c * 10 ^ e.toNat * 2 ^ k) = c * (10 ^ e.toNat * 2 ^ (k + 1)) := by ring
    _ < 10 ^ j * (10 ^ e.toNat * 2 ^ (k + 1)) := Nat.mul_lt_mul_of_pos_right hc (by positivity)
    _ ≤ 10 ^ j * (10 ^ e.toNat * 10 ^ (-j - e).toNat) :=
        Nat.mul_le_mul_left _ (Nat.mul_le_mul_left _ (two_pow_le_ten_pow (by omega)))
    _ = 10 ^ (-e).toNat := by
      rw [← Nat.pow_add, ← Nat.pow_add]
      congr 1
      omega

/-- So large a decimal is infinite. -/
theorem infinityUnits_le_decimalUnits {c j : ℕ} {e : ℤ} (hc : 10 ^ j ≤ c) (h : 400 ≤ j + e) :
    infinityUnits ≤ decimalUnits c e := by
  obtain ⟨r, k, hr, hk, hone, htop⟩ := exists_infinityUnits_eq
  rw [htop]
  refine two_pow_le_roundFraction (by positivity) ?_
  rw [hone]
  calc 2 ^ (r + k) * 10 ^ (-e).toNat = 2 ^ r * (10 ^ (-e).toNat * 2 ^ k) := by
        rw [Nat.pow_add, Nat.mul_assoc, Nat.mul_comm (2 ^ k)]
    _ ≤ 10 ^ (j + e).toNat * (10 ^ (-e).toNat * 2 ^ k) :=
        Nat.mul_le_mul_right _ (two_pow_le_ten_pow (by omega))
    _ = 10 ^ j * 10 ^ e.toNat * 2 ^ k := by
      rw [← Nat.mul_assoc, ← Nat.pow_add, ← Nat.pow_add]
      congr 2
      omega
    _ ≤ c * 10 ^ e.toNat * 2 ^ k := Nat.mul_le_mul_right _ (Nat.mul_le_mul_right _ hc)

/-! ## Decimals by products and quotients -/

theorem nearest_of_hasSize {c : ℕ} {e : ℤ} {f : UnpackedFloat}
    (h : HasSize .positive (decimalUnits c e) f) :
    Nearest c e (UnpackedFloat.unpack Format.binary64 (UnpackedFloat.pack Format.binary64 f)) :=
  ⟨f, h, unpack_pack h.saturated.1⟩

section Scientific

variable {c : ℕ} (hc : 0 < c) (e : ℤ)

include hc

/-- The product that a decimal without a fraction is. -/
theorem product_hasSize (he : 0 ≤ e) (h : 0 < c <<< 53) (h' : 0 < 10 ^ e.toNat) :
    HasSize .positive (decimalUnits c e) (UnpackedFloat.mul Format.binary64
      (.finite .positive (c <<< 53) (-53) h) (.finite .positive (10 ^ e.toNat) 0 h')) := by
  have hbits : 2 ^ 52 ≤ c <<< 53 * 10 ^ e.toNat := by
    rw [Nat.shiftLeft_eq, Nat.mul_right_comm]
    exact (Nat.pow_le_pow_right (by decide) (by decide)).trans
      (Nat.le_mul_of_pos_left _ (Nat.mul_pos hc h'))
  have hunits : decimalUnits c e =
      roundUnits (sizeInUnits (c <<< 53 * 10 ^ e.toNat) (-53 + 0)) := by
    obtain ⟨k, hk, hone⟩ := exists_oneUnits_eq
    rw [decimalUnits, show (-e).toNat = 0 by omega, Nat.pow_zero, roundFraction_one, hone,
      sizeInUnits, Nat.shiftLeft_eq, Nat.mul_right_comm c (2 ^ 53), Nat.mul_assoc _ (2 ^ 53),
      ← Nat.pow_add]
    congr 3
  rw [hunits]
  exact mul_hasSize .positive .positive h h' (by decide) hbits

/-- The quotient that a decimal with a fraction is. -/
theorem quotient_hasSize (he : e < 0) (h' : 0 < 10 ^ (-e).toNat) :
    HasSize .positive (decimalUnits c e) (UnpackedFloat.div Format.binary64
      (.finite .positive c 0 hc) (.finite .positive (10 ^ (-e).toNat) 0 h')) := by
  have hunits : c * 10 ^ e.toNat * oneUnits = c * 2 ^ (0 - 0 + 1074 : ℤ).toNat := by
    obtain ⟨k, hk, hone⟩ := exists_oneUnits_eq
    rw [show e.toNat = 0 by omega, Nat.pow_zero, Nat.mul_one, hone]
    congr 2
  rw [decimalUnits, hunits]
  exact div_hasSize .positive .positive hc h' (by decide)

/-- **The model rounds a decimal once.** -/
theorem ofScientific_nearest : Nearest c e (UnpackedFloat.unpack Format.binary64
    (UnpackedFloat.pack Format.binary64 (UnpackedFloat.ofScientific Format.binary64 c e))) := by
  have hten : ∀ k, 0 < 10 ^ k := fun k => by positivity
  have hmantissa : 0 < c <<< 53 := by
    rw [Nat.shiftLeft_eq]
    positivity
  obtain ⟨g, hg⟩ : ∃ g, HasSize .positive (decimalUnits c e) g := by
    rcases le_or_gt 0 e with he | he
    · exact ⟨_, product_hasSize hc e he hmantissa (hten _)⟩
    · exact ⟨_, quotient_hasSize hc e he (hten _)⟩
  unfold UnpackedFloat.ofScientific
  rw [dif_neg hc.ne']
  split_ifs with hlarge hsmall he
  · have hinf := infinityUnits_le_decimalUnits (c := c) (j := 0) (e := e) hc (by
      have : (2 : ℤ) ^ Format.binary64.exponentBits = 2048 := rfl
      omega)
    exact ⟨g, hg, (hg.saturated_of_le hinf).symm⟩
  · have hlog : c < 10 ^ (c.log2 + 1) :=
      Nat.lt_log2_self.trans_le (Nat.pow_le_pow_left (by decide) _)
    have hzero := decimalUnits_eq_zero (c := c) (e := e) hlog (by
      have : (2 : ℤ) ^ Format.binary64.exponentBits = 2048 := rfl
      omega)
    refine ⟨g, hg, ?_⟩
    rw [hzero] at hg
    rw [hg.eq_zero]
    rfl
  · exact nearest_of_hasSize (product_hasSize hc e he _ (hten _))
  · exact nearest_of_hasSize (quotient_hasSize hc e (not_le.1 he) (hten _))

end Scientific

/-! ## Few digits -/

/-- A small power of ten. -/
def powerOfTen (k : Fin 23) : Float :=
  Float.exactlyRepresentablePowersOfTen[k]

/-- Small powers of ten are numbers. -/
theorem units_powerOfTen : ∀ k : Fin 23,
    (powerOfTen k).isFinite = true ∧ units (powerOfTen k) = (10 ^ k.val * oneUnits : ℕ) := by
  decide +kernel

theorem powerOfTen_hasSize (k : Fin 23) :
    HasSize .positive (10 ^ k.val * oneUnits) (parts (powerOfTen k)) := by
  obtain ⟨hfinite, hunits⟩ := units_powerOfTen k
  exact hasSize_of_units hfinite (Nat.mul_pos (by positivity) oneUnits_pos) hunits

/-- The short cut for few digits rounds once, too. -/
theorem short_nearest {c : ℕ} (hc : 0 < c) (hlimit : c < 2 ^ 53) (k : Fin 23) :
    Nearest c (-k.val) (parts (c.toUInt64.toFloat / powerOfTen k)) ∧
      Nearest c k.val (parts (c.toUInt64.toFloat * powerOfTen k)) := by
  have hcoefficient := ofNat_hasSize hc hlimit
  have hpower := powerOfTen_hasSize k
  have hten : 0 < 10 ^ k.val := by positivity
  have hsmall : 10 ^ k.val < 2 ^ 74 :=
    (Nat.pow_le_pow_right (by decide) (Nat.le_of_lt_succ k.isLt)).trans_lt (by decide)
  constructor
  · refine nearest_of_hasSize ?_
    rw [decimalUnits, neg_neg, Int.toNat_natCast, show (-k.val : ℤ).toNat = 0 by omega,
      Nat.pow_zero, Nat.mul_one]
    exact div_of_whole hc hten hsmall (by decide) hcoefficient hpower
  · refine nearest_of_hasSize ?_
    rw [decimalUnits, Int.toNat_natCast, show (-k.val : ℤ).toNat = 0 by omega, Nat.pow_zero,
      roundFraction_one]
    exact mul_of_whole hc hten hcoefficient hpower

/-- **A decimal is rounded once.** -/
theorem parts_ofScientific {c : ℕ} (hc : 0 < c) (negative : Bool) (k : ℕ) :
    Nearest c (if negative then -k else k) (parts (Float.ofScientific c negative k)) := by
  unfold Float.ofScientific
  by_cases hfew : c < 2 ^ 53 ∧ k ≤ 22
  · obtain ⟨hquotient, hproduct⟩ := short_nearest hc hfew.1 ⟨k, Nat.lt_succ_of_le hfew.2⟩
    rw [dif_pos hfew]
    cases negative with
    | true => exact hquotient
    | false => exact hproduct
  · rw [dif_neg hfew]
    cases negative with
    | true => exact Int.negOfNat_eq ▸ ofScientific_nearest hc (Int.negOfNat k)
    | false => exact ofScientific_nearest hc k

/-- The short cut gives nothing for no coefficient. -/
theorem short_zero (k : Fin 23) :
    parts ((0 : ℕ).toUInt64.toFloat / powerOfTen k) = .zero .positive ∧
      parts ((0 : ℕ).toUInt64.toFloat * powerOfTen k) = .zero .positive := by
  have hzero : parts (0 : ℕ).toUInt64.toFloat = .zero .positive := rfl
  have hdiv (x y : Float) : parts (x / y) = UnpackedFloat.unpack Format.binary64
      (UnpackedFloat.pack Format.binary64
        (UnpackedFloat.div Format.binary64 (parts x) (parts y))) := rfl
  obtain ⟨m, e, hm, hpower, -⟩ := (powerOfTen_hasSize k).exists_of_whole (by positivity)
  rw [hdiv, parts_mul, hzero, hpower]
  exact ⟨unpack_pack (f := .zero _) trivial, unpack_pack (f := .zero _) trivial⟩

/-- Nothing is read for no coefficient. -/
theorem parts_ofScientific_zero (negative : Bool) (k : ℕ) :
    parts (Float.ofScientific 0 negative k) = .zero .positive := by
  unfold Float.ofScientific
  by_cases hfew : 0 < 2 ^ 53 ∧ k ≤ 22
  · obtain ⟨hquotient, hproduct⟩ := short_zero ⟨k, Nat.lt_succ_of_le hfew.2⟩
    rw [dif_pos hfew]
    cases negative with
    | true => exact hquotient
    | false => exact hproduct
  · have hmodel (e : ℤ) : parts (.ofModel (Float.Model.ofScientific 0 e)) = .zero .positive := by
      show UnpackedFloat.unpack Format.binary64 (UnpackedFloat.pack Format.binary64
        (UnpackedFloat.ofScientific Format.binary64 0 e)) = _
      rw [UnpackedFloat.ofScientific, dif_pos rfl]
      exact unpack_pack (f := .zero _) trivial
    rw [dif_neg hfew]
    exact hmodel _

theorem parts_zero : parts 0.0 = .zero .positive := rfl

theorem parts_infinity : parts (1.0 / 0.0) = .infinity .positive := rfl

/-- A number has as many digits as it fits powers of ten. -/
theorem pow_length_digits {c : ℕ} (hc : 0 < c) :
    10 ^ ((Nat.toDigits 10 c).length - 1) ≤ c ∧ c < 10 ^ (Nat.toDigits 10 c).length := by
  have hne : 0 < (Nat.toDigits 10 c).length := Nat.length_toDigits_pos
  have hlimit : ∀ k, 0 < k → ((Nat.toDigits 10 c).length ≤ k ↔ c < 10 ^ k) := fun k hk =>
    Nat.length_toDigits_le_iff (by decide) hk
  refine ⟨?_, (hlimit _ hne).1 le_rfl⟩
  by_contra hlow
  rcases Nat.eq_zero_or_pos ((Nat.toDigits 10 c).length - 1) with hone | hpos
  · rw [hone] at hlow
    omega
  · have := (hlimit _ hpos).2 (by omega)
    omega

/-- **What is read for a decimal is the decimal rounded once.** -/
theorem parts_ofDecimal (c : ℕ) (e : ℤ) : Nearest c e (parts (ofDecimal false c e)) := by
  simp only [ofDecimal, Bool.false_eq_true, if_false]
  rcases Nat.eq_zero_or_pos c with rfl | hc
  · have hzero : decimalUnits 0 e = 0 := roundFraction_eq_zero (by simp)
    rw [if_pos (.inl rfl), parts_zero]
    exact ⟨.zero .positive, by rw [hzero]; exact .zero, rfl⟩
  obtain ⟨hlow, hhigh⟩ := pow_length_digits hc
  obtain ⟨g, hg, -⟩ := ofScientific_nearest hc e
  split_ifs with hsmall hlarge
  · have hzero := decimalUnits_eq_zero hhigh (e := e) (by omega)
    refine ⟨g, hg, ?_⟩
    rw [hzero] at hg
    rw [hg.eq_zero, parts_zero]
    rfl
  · have hinf := infinityUnits_le_decimalUnits hlow (e := e) (by omega)
    refine ⟨g, hg, ?_⟩
    rw [hg.saturated_of_le hinf, parts_infinity]
  · have hnearest := parts_ofScientific hc (decide (e < 0)) e.natAbs
    have he : (if decide (e < 0) then -(e.natAbs : ℤ) else e.natAbs) = e := by
      by_cases h : e < 0
      · rw [if_pos (decide_eq_true h)]
        omega
      · rw [if_neg (by simpa using h)]
        omega
    rwa [he] at hnearest

end Housewright.Binary64
