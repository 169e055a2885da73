import Housewright.Decimal.Binary
import Housewright.Proofs.Binary64.Parts

/-!
# Rounding to 53 bits

Sizes are counted in units of `2 ^ -1074`, so that every finite number and every exact sum
of two of them is a whole number of units, and every exact product and quotient is a fraction of
units.  `roundUnits` and `roundFraction` round these to 53 bits, a half going to the even
neighbour:

* `roundUnits_mono`: rounding keeps the order;
* `roundUnits_mul_two_pow`: what already has 53 bits stays as it is;
* `roundFraction_error`: rounding moves a fraction by half of its last bit at most;
* `roundWithAccuracy_eq`, `roundWithAccuracy_of_lt`, `round_hasSize`: the rounding of
  `Float.Model.UnpackedFloat` rounds the size of its argument in this way.
-/

namespace Housewright

/-! ## Rounding a fraction -/

namespace Decimal

theorem div_le_roundDiv (num den : ℕ) : num / den ≤ roundDiv num den := by
  unfold roundDiv
  simp only
  split_ifs <;> omega

theorem roundDiv_le_div_add_one (num den : ℕ) : roundDiv num den ≤ num / den + 1 := by
  unfold roundDiv
  simp only
  split_ifs <;> omega

/-- Rounding to a whole number keeps the order. -/
theorem roundDiv_mono {a b : ℕ} (den : ℕ) (h : a ≤ b) : roundDiv a den ≤ roundDiv b den := by
  rcases (Nat.div_le_div_right (c := den) h).lt_or_eq with hlt | heq
  · exact (roundDiv_le_div_add_one a den).trans (hlt.trans_le (div_le_roundDiv b den))
  · have hmod : a % den ≤ b % den := by
      have ha := Nat.div_add_mod a den
      have hb := Nat.div_add_mod b den
      rw [heq] at ha
      omega
    unfold roundDiv
    simp only [heq]
    split_ifs <;> omega

/-- A common factor does not change the fraction. -/
theorem roundDiv_mul_right (num den : ℕ) {c : ℕ} (hc : 0 < c) :
    roundDiv (num * c) (den * c) = roundDiv num den := by
  unfold roundDiv
  simp only [Nat.mul_div_mul_right _ _ hc, Nat.mul_mod_mul_right]
  have hlow : 2 * (num % den * c) < den * c ↔ 2 * (num % den) < den := by
    rw [← Nat.mul_assoc, Nat.mul_lt_mul_right hc]
  have hhigh : den * c < 2 * (num % den * c) ↔ den < 2 * (num % den) := by
    rw [← Nat.mul_assoc, Nat.mul_lt_mul_right hc]
  simp only [hlow, hhigh]

/-- A whole number is not changed. -/
theorem roundDiv_mul_self (q : ℕ) {den : ℕ} (h : 0 < den) : roundDiv (q * den) den = q := by
  unfold roundDiv
  simp [Nat.mul_div_cancel _ h, h]

/-- A fraction is rounded to the whole number that it is within a half of, and a half off to an
even one. -/
theorem roundDiv_eq {num den m : ℕ} (hden : 0 < den) (hlow : 2 * (m * den) ≤ 2 * num + den)
    (hhigh : 2 * num ≤ 2 * (m * den) + den)
    (hodd : m % 2 = 1 → 2 * (m * den) < 2 * num + den ∧ 2 * num < 2 * (m * den) + den) :
    roundDiv num den = m := by
  have hsplit := Nat.div_add_mod' num den
  have hlt := Nat.mod_lt num hden
  have hdef : roundDiv num den = if 2 * (num % den) < den then num / den
    else if den < 2 * (num % den) then num / den + 1 else num / den + num / den % 2 := rfl
  rw [hdef]
  generalize num / den = q at *
  generalize num % den = r at *
  have hle : q ≤ m := by
    by_contra hgt
    have hmul : (m + 1) * den ≤ q * den := Nat.mul_le_mul_right _ (by omega)
    rw [Nat.add_mul] at hmul
    omega
  have hge : m ≤ q + 1 := by
    by_contra hgt
    have hmul : (q + 2) * den ≤ m * den := Nat.mul_le_mul_right _ (by omega)
    rw [Nat.add_mul] at hmul
    omega
  rcases hle.lt_or_eq with hbefore | rfl
  · obtain rfl : m = q + 1 := by omega
    rw [Nat.add_mul, Nat.one_mul] at hlow hhigh hodd
    rw [if_neg (by omega)]
    split_ifs with hmore <;> omega
  · split_ifs with hless hmore <;> omega

/-- **A fraction** is rounded by at most a half. -/
theorem roundDiv_error (num : ℕ) {den : ℕ} (h : 0 < den) :
    2 * (roundDiv num den * den) ≤ 2 * num + den ∧
      2 * num ≤ 2 * (roundDiv num den * den) + den := by
  have hsplit := Nat.div_add_mod' num den
  have hlt := Nat.mod_lt num h
  have hup : (num / den + 1) * den = num / den * den + den := Nat.succ_mul _ _
  unfold roundDiv
  simp only
  split_ifs with hless hmore
  · omega
  · omega
  · rcases Nat.mod_two_eq_zero_or_one (num / den) with heven | hodd
    · rw [heven, Nat.add_zero]
      omega
    · rw [hodd]
      omega

end Decimal

namespace Binary64

open Decimal Float.Model Float.Model.UnpackedFloat

/-! ## Rounding a number of units -/

/-- How many bits of a number of units are rounded away. -/
def droppedBits (n : ℕ) : ℕ := n.log2 - 52

/-- A number of units rounded to 53 bits. -/
def roundUnits (n : ℕ) : ℕ := roundDiv n (2 ^ droppedBits n) * 2 ^ droppedBits n

/-- A mantissa that is one bit too long is one exponent higher. -/
theorem two_pow_carry (q : ℕ) : 2 ^ 53 * 2 ^ q = 2 ^ 52 * 2 ^ (q + 1) := by ring

theorem lt_two_pow_droppedBits (n : ℕ) : n < 2 ^ 53 * 2 ^ droppedBits n := by
  rw [← Nat.pow_add]
  refine (Nat.lt_log2_self (n := n)).trans_le (Nat.pow_le_pow_right (by decide) ?_)
  unfold droppedBits
  omega

theorem two_pow_droppedBits_le {n : ℕ} (h : droppedBits n ≠ 0) :
    2 ^ 52 * 2 ^ droppedBits n ≤ n := by
  have hn : n ≠ 0 := by
    rintro rfl
    exact h rfl
  rw [← Nat.pow_add]
  refine (Nat.pow_le_pow_right (by decide) ?_).trans (Nat.log2_self_le hn)
  unfold droppedBits at h ⊢
  omega

theorem droppedBits_mono {a b : ℕ} (h : a ≤ b) : droppedBits a ≤ droppedBits b := by
  unfold droppedBits
  rw [Nat.log2_eq_log_two, Nat.log2_eq_log_two]
  exact Nat.sub_le_sub_right (Nat.log_mono_right h) 52

/-- The bits that are dropped are those beyond 53. -/
theorem droppedBits_eq {n q : ℕ} (hhigh : n < 2 ^ 53 * 2 ^ q) (hlow : q = 0 ∨ 2 ^ 52 * 2 ^ q ≤ n) :
    droppedBits n = q := by
  rw [← Nat.pow_add] at hhigh hlow
  rcases Nat.eq_zero_or_pos n with rfl | hn
  · rcases hlow with rfl | hlow
    · rfl
    · exact absurd (Nat.two_pow_pos (52 + q)) (not_lt.2 hlow)
  have hlog : n.log2 < 53 + q := (Nat.log2_lt hn.ne').2 hhigh
  unfold droppedBits
  rcases hlow with rfl | hlow
  · omega
  · have := (Nat.le_log2 hn.ne').2 hlow
    omega

/-- The rounded mantissa has at most one bit too many. -/
theorem roundDiv_droppedBits_le (n : ℕ) : roundDiv n (2 ^ droppedBits n) ≤ 2 ^ 53 := by
  refine (roundDiv_le_div_add_one _ _).trans ?_
  have h : n / 2 ^ droppedBits n < 2 ^ 53 :=
    (Nat.div_lt_iff_lt_mul (by positivity)).2 (lt_two_pow_droppedBits n)
  omega

/-- The rounded mantissa is full if bits were rounded away. -/
theorem le_roundDiv_droppedBits {n : ℕ} (h : droppedBits n ≠ 0) :
    2 ^ 52 ≤ roundDiv n (2 ^ droppedBits n) :=
  ((Nat.le_div_iff_mul_le (by positivity)).2 (two_pow_droppedBits_le h)).trans
    (div_le_roundDiv _ _)

/-- **Rounding keeps the order.** -/
theorem roundUnits_mono {a b : ℕ} (h : a ≤ b) : roundUnits a ≤ roundUnits b := by
  rcases (droppedBits_mono h).lt_or_eq with hlt | heq
  · calc roundUnits a ≤ 2 ^ 53 * 2 ^ droppedBits a :=
          Nat.mul_le_mul_right _ (roundDiv_droppedBits_le a)
      _ = 2 ^ 52 * 2 ^ (droppedBits a + 1) := two_pow_carry _
      _ ≤ 2 ^ 52 * 2 ^ droppedBits b :=
          Nat.mul_le_mul_left _ (Nat.pow_le_pow_right (by decide) hlt)
      _ ≤ roundUnits b := Nat.mul_le_mul_right _ (le_roundDiv_droppedBits (by omega))
  · unfold roundUnits
    rw [heq]
    exact Nat.mul_le_mul_right _ (roundDiv_mono _ h)

/-- A number of units that has 53 bits stays as it is. -/
theorem roundUnits_mul_two_pow {m : ℕ} (hm : m < 2 ^ 53) (q : ℕ) :
    roundUnits (m * 2 ^ q) = m * 2 ^ q := by
  rcases Nat.eq_zero_or_pos m with rfl | hpos
  · rw [Nat.zero_mul]
    rfl
  have hd : droppedBits (m * 2 ^ q) ≤ q := by
    by_contra hlt
    have hle := two_pow_droppedBits_le (n := m * 2 ^ q) (by omega)
    have hpow : 2 ^ 53 * 2 ^ q ≤ 2 ^ 52 * 2 ^ droppedBits (m * 2 ^ q) := by
      rw [← Nat.pow_add, ← Nat.pow_add]
      exact Nat.pow_le_pow_right (by decide) (by omega)
    have := Nat.lt_of_mul_lt_mul_right ((hpow.trans hle).trans_lt
      (Nat.mul_lt_mul_of_pos_right hm (by positivity)))
    omega
  unfold roundUnits
  obtain ⟨k, hk⟩ := Nat.exists_eq_add_of_le hd
  have hfac : m * 2 ^ q = m * 2 ^ k * 2 ^ droppedBits (m * 2 ^ q) := by
    rw [Nat.mul_assoc, ← Nat.pow_add]
    congr 2
    omega
  generalize droppedBits (m * 2 ^ q) = d at *
  rw [hfac, roundDiv_mul_self _ (by positivity)]

theorem roundUnits_pos {n : ℕ} (h : 0 < n) : 0 < roundUnits n :=
  Nat.lt_of_lt_of_le Nat.one_pos <|
    (roundUnits_mul_two_pow (m := 1) (by decide) 0).ge.trans (roundUnits_mono h)

/-! ## Rounding a fraction of units -/

/-- A fraction of units rounded to 53 bits. -/
def roundFraction (num den : ℕ) : ℕ :=
  roundDiv num (den * 2 ^ droppedBits (num / den)) * 2 ^ droppedBits (num / den)

theorem roundFraction_one (n : ℕ) : roundFraction n 1 = roundUnits n := by
  rw [roundFraction, Nat.div_one, Nat.one_mul, roundUnits]

/-- A common factor does not change the fraction. -/
theorem roundFraction_mul_right (num den : ℕ) {c : ℕ} (hc : 0 < c) :
    roundFraction (num * c) (den * c) = roundFraction num den := by
  rw [roundFraction, Nat.mul_div_mul_right _ _ hc, Nat.mul_right_comm, roundDiv_mul_right _ _ hc,
    roundFraction]

/-- The rounded mantissa of a fraction has at most one bit too many. -/
theorem roundDiv_fraction_le (num den : ℕ) :
    roundDiv num (den * 2 ^ droppedBits (num / den)) ≤ 2 ^ 53 := by
  refine (roundDiv_le_div_add_one _ _).trans ?_
  have hlt : num / (den * 2 ^ droppedBits (num / den)) < 2 ^ 53 := by
    rw [← Nat.div_div_eq_div_mul]
    exact (Nat.div_lt_iff_lt_mul (by positivity)).2 (lt_two_pow_droppedBits _)
  omega

/-- It is full if bits were rounded away. -/
theorem le_roundDiv_fraction {num den : ℕ} (h : droppedBits (num / den) ≠ 0) :
    2 ^ 52 ≤ roundDiv num (den * 2 ^ droppedBits (num / den)) := by
  refine le_trans ?_ (div_le_roundDiv _ _)
  rw [← Nat.div_div_eq_div_mul]
  exact (Nat.le_div_iff_mul_le (by positivity)).2 (two_pow_droppedBits_le h)

/-- A fraction of units is rounded to the number in whose interval it is: half of the last digit
to both sides, a quarter below a power of two, the ends only if the mantissa is even. -/
theorem roundFraction_eq (num : ℕ) {m q den below : ℕ} (hden : 0 < den) (hm : m < 2 ^ 53)
    (hfull : 2 ^ 52 ≤ m ∨ q = 0) (hbelow : below ≤ 2) (hpower : m = 2 ^ 52 → q ≠ 0 → below ≤ 1)
    (hlow : (4 * m - below) * (2 ^ q * den) ≤ 4 * num)
    (hhigh : 4 * num ≤ (4 * m + 2) * (2 ^ q * den))
    (hodd : m % 2 = 1 → (4 * m - below) * (2 ^ q * den) < 4 * num ∧
      4 * num < (4 * m + 2) * (2 ^ q * den)) :
    roundFraction num den = m * 2 ^ q := by
  set X := 2 ^ q * den with hX
  have hXpos : 0 < X := by positivity
  have hdigit : below * X ≤ 2 * X := Nat.mul_le_mul_right _ hbelow
  rw [Nat.add_mul, Nat.mul_assoc] at hhigh hodd
  rw [Nat.sub_mul, Nat.mul_assoc] at hlow hodd
  by_cases hcarry : (m = 2 ^ 52 ∧ q ≠ 0) ∧ num < m * X
  · -- below a power of two the last digit is half as large
    obtain ⟨⟨rfl, hq⟩, hcarry⟩ := hcarry
    obtain ⟨p, rfl⟩ := Nat.exists_eq_succ_of_ne_zero hq
    have hquarter : below * X ≤ 1 * X := Nat.mul_le_mul_right _ (hpower rfl hq)
    set Y := den * 2 ^ p with hY
    have hXY : X = 2 * Y := by
      rw [hX, hY, Nat.pow_succ]
      ring
    rw [hXY] at hlow hhigh hquarter hcarry
    have hbits : droppedBits (num / den) = p := by
      refine droppedBits_eq ((Nat.div_lt_iff_lt_mul hden).2 ?_)
        (.inr ((Nat.le_div_iff_mul_le hden).2 ?_))
      · rw [Nat.mul_assoc, Nat.mul_comm _ den, ← hY]
        omega
      · rw [Nat.mul_assoc, Nat.mul_comm _ den, ← hY]
        omega
    have hmantissa : roundDiv num Y = 2 ^ 53 :=
      roundDiv_eq (by positivity) (by omega) (by omega) (by omega)
    rw [roundFraction, hbits, ← hY, hmantissa]
    exact two_pow_carry p
  · have hbits : droppedBits (num / den) = q := by
      have hsucc : (m + 1) * X ≤ 2 ^ 53 * X := Nat.mul_le_mul_right _ hm
      rw [Nat.add_mul] at hsucc
      refine droppedBits_eq ((Nat.div_lt_iff_lt_mul hden).2 ?_) ?_
      · rw [Nat.mul_assoc, ← hX]
        omega
      by_cases hq : q = 0
      · exact .inl hq
      refine .inr ((Nat.le_div_iff_mul_le hden).2 ?_)
      rw [Nat.mul_assoc, ← hX]
      rcases (hfull.resolve_right hq).lt_or_eq with hmore | hpower
      · have hmul : (2 ^ 52 + 1) * X ≤ m * X := Nat.mul_le_mul_right _ hmore
        rw [Nat.add_mul] at hmul
        omega
      · exact hpower ▸ not_lt.1 fun hlt => hcarry ⟨⟨hpower.symm, hq⟩, hlt⟩
    have hmantissa : roundDiv num (den * 2 ^ q) = m := by
      rw [Nat.mul_comm den, ← hX]
      exact roundDiv_eq hXpos (by omega) (by omega) fun h => by
        have := hodd h
        omega
    rw [roundFraction, hbits, hmantissa]

/-- **A fraction of units** is rounded by at most half a unit and half of its last bit. -/
theorem roundFraction_error (num : ℕ) {den : ℕ} (h : 0 < den) :
    2 ^ 53 * (roundFraction num den * den) ≤ 2 ^ 53 * num + (2 ^ 52 * den + num) ∧
      2 ^ 53 * num ≤ 2 ^ 53 * (roundFraction num den * den) + (2 ^ 52 * den + num) := by
  set d := droppedBits (num / den) with hd
  obtain ⟨hlow, hhigh⟩ := roundDiv_error num (show 0 < den * 2 ^ d by positivity)
  have hbit : 2 ^ 52 * (den * 2 ^ d) ≤ 2 ^ 52 * den + num := by
    rcases eq_or_ne d 0 with hzero | hne
    · rw [hzero]
      omega
    · have hle := (Nat.le_div_iff_mul_le h).1 (two_pow_droppedBits_le (hd ▸ hne))
      rw [← hd] at hle
      calc 2 ^ 52 * (den * 2 ^ d) = 2 ^ 52 * 2 ^ d * den := by ring
        _ ≤ 2 ^ 52 * den + num := hle.trans (Nat.le_add_left _ _)
  have hsame : roundFraction num den * den = roundDiv num (den * 2 ^ d) * (den * 2 ^ d) := by
    rw [roundFraction, ← hd]
    ring
  rw [hsame]
  omega

/-! ## Rounding parts -/

/-- The size of a mantissa at an exponent, in units. -/
def sizeInUnits (mantissa : ℕ) (exponent : ℤ) : ℕ := mantissa * 2 ^ (exponent + 1074).toNat

theorem log2_mul_two_pow {m : ℕ} (hm : 0 < m) (k : ℕ) : (m * 2 ^ k).log2 = m.log2 + k := by
  refine (Nat.log2_eq_iff (by positivity)).2 ⟨?_, ?_⟩
  · rw [Nat.pow_add]
    exact Nat.mul_le_mul_right _ (Nat.log2_self_le hm.ne')
  · rw [show m.log2 + k + 1 = m.log2 + 1 + k by ring, Nat.pow_add]
    exact Nat.mul_lt_mul_of_pos_right Nat.lt_log2_self (by positivity)

theorem log2_div_two_pow {n k : ℕ} (h : 0 < n / 2 ^ k) : (n / 2 ^ k).log2 + k = n.log2 := by
  have hn : n ≠ 0 := by
    rintro rfl
    simp at h
  refine ((Nat.log2_eq_iff hn).2 ⟨?_, ?_⟩).symm
  · rw [Nat.pow_add]
    exact (Nat.le_div_iff_mul_le (by positivity)).1 (Nat.log2_self_le h.ne')
  · rw [Nat.add_right_comm, Nat.pow_add]
    exact (Nat.div_lt_iff_lt_mul (by positivity)).1 Nat.lt_log2_self

/-- The exponent that a mantissa is moved to is the one that leaves 53 bits. -/
theorem targetExponent_eq {m : ℕ} (hm : 0 < m) {e : ℤ} (he : -1074 ≤ e) :
    Format.binary64.targetExponent (totalExponent m e) = droppedBits (sizeInUnits m e) - 1074 := by
  rw [droppedBits, sizeInUnits, log2_mul_two_pow hm]
  have hmin : Format.binary64.minExponent = -1074 := rfl
  have hbits : Format.binary64.mantissaBits = 53 := rfl
  simp only [Format.targetExponent, totalExponent, hmin, hbits]
  omega

/-! ### Mantissas that stand for fractions -/

/-- A fraction as a mantissa and the two bits that rounding needs to know of the rest: whether it
is half a unit or more, and whether there is anything beyond halves. -/
def fractionMantissa (num den : ℕ) : ExtendedMantissa :=
  ⟨num / den, 2 * num / den % 2 != 0, 2 * num % den != 0⟩

/-- The rest of a fraction is less than half a unit, or half a unit or more. -/
theorem two_mul_div_cases (num : ℕ) {den : ℕ} (h : 0 < den) :
    2 * num / den = 2 * (num / den) ∧ 2 * num % den = 2 * (num % den) ∧ 2 * (num % den) < den ∨
      2 * num / den = 2 * (num / den) + 1 ∧ 2 * num % den = 2 * (num % den) - den ∧
        den ≤ 2 * (num % den) := by
  have hsplit := Nat.div_add_mod num den
  have hlt := Nat.mod_lt num h
  have hdouble : 2 * num = 2 * (num % den) + den * (2 * (num / den)) := by
    rw [Nat.mul_left_comm]
    omega
  rw [hdouble, Nat.add_mul_div_left _ _ h, Nat.add_mul_mod_self_left]
  by_cases hhalf : 2 * (num % den) < den
  · left
    rw [Nat.div_eq_of_lt hhalf, Nat.mod_eq_of_lt hhalf]
    exact ⟨Nat.zero_add _, rfl, hhalf⟩
  · right
    have hone : 2 * (num % den) / den = 1 := Nat.div_eq_of_lt_le (by omega) (by omega)
    rw [hone, Nat.mod_eq_sub_mod (by omega), Nat.mod_eq_of_lt (by omega)]
    exact ⟨Nat.add_comm _ _, rfl, by omega⟩

/-- Rounding by those bits is rounding the fraction. -/
theorem roundedMantissa_fraction (num : ℕ) {den : ℕ} (h : 0 < den) :
    (fractionMantissa num den).roundedMantissa = roundDiv num den := by
  simp only [fractionMantissa, ExtendedMantissa.roundedMantissa, roundDiv]
  rcases two_mul_div_cases num h with ⟨hdiv, hmod, hlow⟩ | ⟨hdiv, hmod, hhigh⟩
  · rw [hdiv, hmod, if_pos hlow, Nat.mul_mod_right]
    cases 2 * (num % den) != 0 <;> rfl
  · rw [hdiv, hmod, if_neg (by omega), Nat.mul_add_mod]
    by_cases htie : 2 * (num % den) = den
    · rw [if_neg (by omega), htie, Nat.sub_self]
      rfl
    · have hmore : (2 * (num % den) - den != 0) = true := by
        rw [bne_iff_ne]
        omega
      rw [if_pos (by omega), hmore]
      rfl

theorem shiftRightOne_fraction (num : ℕ) {den : ℕ} (h : 0 < den) :
    (fractionMantissa num den).shiftRightOne = fractionMantissa num (den * 2) := by
  have hround : 2 * num / (den * 2) = num / den := by
    rw [Nat.mul_comm den, Nat.mul_div_mul_left _ _ Nat.two_pos]
  have hsticky : 2 * num % (den * 2) = 2 * (num % den) := by
    rw [Nat.mul_comm den, Nat.mul_mod_mul_left]
  simp only [fractionMantissa, ExtendedMantissa.shiftRightOne, hround, hsticky,
    Nat.div_div_eq_div_mul]
  congr 1
  rcases two_mul_div_cases num h with ⟨hdiv, hmod, hlow⟩ | ⟨hdiv, hmod, hhigh⟩
  · rw [hdiv, hmod, Nat.mul_mod_right]
    rfl
  · have hrest : (2 * (num % den) != 0) = true := by
      rw [bne_iff_ne]
      omega
    rw [hdiv, Nat.mul_add_mod, hrest]
    rfl

/-- Shifting to the right divides the fraction. -/
theorem shiftRight_fraction (num : ℕ) {den : ℕ} (h : 0 < den) (k : ℕ) :
    fractionMantissa num den >>> k = fractionMantissa num (den * 2 ^ k) := by
  induction k with
  | zero => rw [Nat.pow_zero, Nat.mul_one]; rfl
  | succ k ih =>
    show (fractionMantissa num den >>> k).shiftRightOne = _
    rw [ih, shiftRightOne_fraction num (by positivity), Nat.mul_assoc, ← Nat.pow_succ]

/-- An exact mantissa is a fraction of any size. -/
theorem ofMantissa_exact (m : ℕ) {den : ℕ} (h : 0 < den) :
    ExtendedMantissa.ofMantissaAndAccuracy m .exact = fractionMantissa (m * den) den := by
  have htwice : 2 * (m * den) = 2 * m * den := by ring
  simp [fractionMantissa, ExtendedMantissa.ofMantissaAndAccuracy, htwice, Nat.mul_div_cancel _ h]

/-- A quotient and the accuracy that its remainder gives are the fraction. -/
theorem ofMantissa_fraction (num : ℕ) {den : ℕ} (h : 0 < den) :
    ExtendedMantissa.ofMantissaAndAccuracy (num / den) (accuracyOfFraction (num % den) den) =
      fractionMantissa num den := by
  simp only [accuracyOfFraction, fractionMantissa]
  rcases two_mul_div_cases num h with ⟨hdiv, hmod, hlow⟩ | ⟨hdiv, hmod, hhigh⟩
  · rw [hdiv, hmod, Nat.mul_mod_right]
    split
    next hzero => rw [hzero]; rfl
    next hrest =>
      have hsticky : (2 * (num % den) != 0) = true := by
        rw [bne_iff_ne]
        omega
      rw [compare_lt_iff_lt.2 hlow, hsticky]
      rfl
  · rw [hdiv, hmod, Nat.mul_add_mod, if_neg (by omega)]
    rcases hhigh.lt_or_eq with hmore | htie
    · have hsticky : (2 * (num % den) - den != 0) = true := by
        rw [bne_iff_ne]
        omega
      rw [compare_gt_iff_gt.2 hmore, hsticky]
      rfl
    · rw [← htie, compare_eq_iff_eq.2 rfl, Nat.sub_self]
      rfl

/-! ### Moving mantissas -/

/-- Moving a mantissa up to an exponent. -/
theorem shiftToExponent_exact (m : ℕ) {e t : ℤ} (h : e ≤ t) :
    shiftToExponent m e .exact t =
      (ExtendedMantissa.mk m false false >>> (t - e).toNat, t) := by
  have hexp : e + ((t - e).toNat : ℤ) = t := by omega
  exact congrArg (Prod.mk _) hexp

/-- A mantissa is not moved down. -/
theorem shiftToExponent_of_le (m : ℕ) {e t : ℤ} (h : t ≤ e) :
    shiftToExponent m e .exact t = (⟨m, false, false⟩, e) := by
  have hk : (t - e).toNat = 0 := by omega
  unfold shiftToExponent
  simp only [hk, Nat.cast_zero, add_zero]
  rfl

/-- A rounded mantissa that has become one bit too long is moved by one bit more. -/
theorem shiftToTargetExponent_rounded {r : ℕ} (hpos : 0 < r) (hr : r ≤ 2 ^ 53) {t : ℤ}
    (ht : -1074 ≤ t) :
    shiftToTargetExponent Format.binary64 r t .exact =
      if r < 2 ^ 53 then (⟨r, false, false⟩, t) else (⟨2 ^ 52, false, false⟩, t + 1) := by
  unfold shiftToTargetExponent
  rw [targetExponent_eq hpos ht, droppedBits, sizeInUnits, log2_mul_two_pow hpos]
  split_ifs with h
  · have hlog : r.log2 ≤ 52 := by
      have := (Nat.log2_lt hpos.ne').2 h
      omega
    exact shiftToExponent_of_le r (by omega)
  · obtain rfl : r = 2 ^ 53 := by omega
    rw [Nat.log2_two_pow, show (((53 + (t + 1074).toNat - 52 : ℕ) : ℤ) - 1074) = t + 1 by omega,
      shiftToExponent_exact _ (by omega), show (t + 1 - t).toNat = 1 by omega]
    rfl

/-! ### The rounding of the model -/

/-- The parts of a size that has 53 bits: a zero, or a full mantissa. -/
inductive HasSize (s : Sign) : ℕ → UnpackedFloat → Prop
  | zero : HasSize s 0 (.zero s)
  | finite {m : ℕ} {e : ℤ} {h : 0 < m} (hr : Rounded (.finite s m e h)) :
    HasSize s (sizeInUnits m e) (.finite s m e h)

/-- A whole number at an exponent loses as many bits as it has too many. -/
theorem targetExponent_fraction {num den : ℕ} {e : ℤ} (he : -1074 ≤ e)
    (hfew : (e + 1074).toNat ≤ droppedBits (num / den)) :
    Format.binary64.targetExponent (totalExponent (num / (den * 2 ^ (e + 1074).toNat)) e) =
      droppedBits (num / den) - 1074 := by
  set D := (e + 1074).toNat with hD
  have hquot : num / (den * 2 ^ D) = num / den / 2 ^ D := (Nat.div_div_eq_div_mul _ _ _).symm
  generalize num / den = n at *
  rw [hquot]
  rcases Nat.eq_zero_or_pos (n / 2 ^ D) with hzero | hpos
  · have hnone : droppedBits n = 0 := by
      by_contra hd
      have hlt : n < 2 ^ D := (Nat.div_eq_zero_iff_lt (by positivity)).1 hzero
      have hle : 2 ^ D ≤ 2 ^ droppedBits n := Nat.pow_le_pow_right (by decide) hfew
      have := two_pow_droppedBits_le hd
      omega
    obtain rfl : e = -1074 := by omega
    rw [hzero, hnone]
    rfl
  · rw [targetExponent_eq hpos he]
    congr 2
    rw [droppedBits, droppedBits, sizeInUnits, ← hD, log2_mul_two_pow hpos, log2_div_two_pow hpos]

/-- A mantissa is shifted, rounded, and shifted again. -/
theorem roundWithAccuracy_of_shift (s : Sign) {m m' : ℕ} {e t e' : ℤ} {acc : Accuracy}
    {em : ExtendedMantissa}
    (hfirst : shiftToTargetExponent Format.binary64 m e acc = (em, t))
    (hsecond : shiftToTargetExponent Format.binary64 em.roundedMantissa t .exact =
      (⟨m', false, false⟩, e')) :
    roundWithAccuracy Format.binary64 s m e acc =
      if h : m' = 0 then .zero s else .finite s m' e' (Nat.pos_of_ne_zero h) := by
  unfold roundWithAccuracy
  simp only [hfirst, hsecond]

/-- Once a mantissa is moved to where it has 53 bits, what is left to round is `roundFraction`. -/
theorem hasSize_of_shift (s : Sign) {acc : Accuracy} {num den m : ℕ} {e : ℤ} (hden : 0 < den)
    (hfirst : shiftToTargetExponent Format.binary64 m e acc =
      (fractionMantissa num (den * 2 ^ droppedBits (num / den)),
        (droppedBits (num / den) : ℤ) - 1074)) :
    HasSize s (roundFraction num den) (roundWithAccuracy Format.binary64 s m e acc) := by
  set d := droppedBits (num / den) with hd
  set t : ℤ := d - 1074 with ht
  set r := roundDiv num (den * 2 ^ d) with hr
  have hrounded : (fractionMantissa num (den * 2 ^ d)).roundedMantissa = r :=
    roundedMantissa_fraction num (by positivity)
  have hsize : r * 2 ^ d = roundFraction num den := rfl
  rcases Nat.eq_zero_or_pos r with hzero | hpos
  · have hnone : d = 0 := by
      by_contra hne
      have : 2 ^ 52 ≤ r := le_roundDiv_fraction hne
      omega
    have hsecond : shiftToTargetExponent Format.binary64
        (fractionMantissa num (den * 2 ^ d)).roundedMantissa t .exact =
          (⟨0, false, false⟩, -1074) := by
      rw [hrounded, hzero, show t = -1074 by omega]
      rfl
    rw [roundWithAccuracy_of_shift s hfirst hsecond, ← hsize, hzero, Nat.zero_mul]
    exact .zero
  have hsecond := shiftToTargetExponent_rounded hpos (roundDiv_fraction_le num den)
    (by omega : -1074 ≤ t)
  by_cases h : r < 2 ^ 53
  · have hunits : sizeInUnits r t = roundFraction num den := by
      rw [← hsize, sizeInUnits, ht]
      congr 2
      omega
    rw [if_pos h, ← hrounded] at hsecond
    rw [roundWithAccuracy_of_shift s hfirst hsecond, ← hunits]
    simp only [hrounded, dif_neg hpos.ne']
    refine .finite ⟨h, by omega, ?_⟩
    by_cases hz : d = 0
    · exact .inr (by omega)
    · exact .inl (le_roundDiv_fraction hz)
  · have hfull : r = 2 ^ 53 := le_antisymm (roundDiv_fraction_le num den) (not_lt.1 h)
    have hunits : sizeInUnits (2 ^ 52) (t + 1) = roundFraction num den := by
      rw [← hsize, hfull, sizeInUnits, show (t + 1 + 1074).toNat = d + 1 by omega]
      exact (two_pow_carry d).symm
    rw [if_neg h, ← hrounded] at hsecond
    rw [roundWithAccuracy_of_shift s hfirst hsecond, ← hunits]
    exact .finite (h := by decide) ⟨by decide, by omega, .inl le_rfl⟩

/-- **The rounding of the model is `roundFraction`**, for a mantissa that stands for a fraction of
units and has no fewer bits than it may keep. -/
theorem roundWithAccuracy_eq (s : Sign) (acc : Accuracy) {num den m : ℕ} {e : ℤ}
    (hden : 0 < den) (he : -1074 ≤ e)
    (hm : ExtendedMantissa.ofMantissaAndAccuracy m acc =
      fractionMantissa num (den * 2 ^ (e + 1074).toNat))
    (hfew : (e + 1074).toNat ≤ droppedBits (num / den)) :
    HasSize s (roundFraction num den) (roundWithAccuracy Format.binary64 s m e acc) := by
  set D := (e + 1074).toNat with hD
  set d := droppedBits (num / den) with hd
  refine hasSize_of_shift s hden ?_
  have hquot : m = num / (den * 2 ^ D) := by
    rw [← show (ExtendedMantissa.ofMantissaAndAccuracy m acc).mantissa = m by
      cases acc with
      | exact => rfl
      | inexact o => cases o <;> rfl, hm]
    rfl
  have hshift : ((d : ℤ) - 1074 - e).toNat = d - D := by omega
  unfold shiftToTargetExponent shiftToExponent
  rw [hquot, targetExponent_fraction he hfew, ← hquot, hm]
  simp only [← hd, hshift]
  rw [shiftRight_fraction num (by positivity), Nat.mul_assoc, ← Nat.pow_add,
    Nat.add_sub_cancel' hfew]
  congr 1
  omega

/-- A whole mantissa below the last bit of a number is rounded as a fraction of units. -/
theorem roundWithAccuracy_of_lt (s : Sign) {m : ℕ} {e : ℤ} (he : e < -1074) :
    HasSize s (roundFraction m (2 ^ (-1074 - e).toNat))
      (roundWithAccuracy Format.binary64 s m e .exact) := by
  set k := (-1074 - e).toNat with hk
  set d := droppedBits (m / 2 ^ k) with hd
  refine hasSize_of_shift s (by positivity) ?_
  have htarget : Format.binary64.targetExponent (totalExponent m e) = d - 1074 := by
    have hmin : Format.binary64.minExponent = -1074 := rfl
    have hbits : Format.binary64.mantissaBits = 53 := rfl
    simp only [Format.targetExponent, totalExponent, hmin, hbits, hd, droppedBits]
    rcases Nat.eq_zero_or_pos (m / 2 ^ k) with hzero | hpos
    · have hlt : m < 2 ^ k := (Nat.div_eq_zero_iff_lt (by positivity)).1 hzero
      have hlog : m.log2 ≤ k := by
        rcases Nat.eq_zero_or_pos m with rfl | hm
        · exact Nat.zero_le _
        · exact ((Nat.log2_lt hm.ne').2 hlt).le
      rw [hzero, Nat.log2_zero]
      omega
    · have hlog := log2_div_two_pow hpos
      omega
  have hshift : ((d : ℤ) - 1074 - e).toNat = k + d := by omega
  have hexact : ExtendedMantissa.mk m false false = fractionMantissa m 1 := by
    have hmantissa := ofMantissa_exact m Nat.one_pos
    rw [Nat.mul_one] at hmantissa
    exact hmantissa
  unfold shiftToTargetExponent
  rw [htarget, shiftToExponent_exact m (by omega), hshift, hexact,
    shiftRight_fraction m Nat.one_pos, Nat.one_mul, Nat.pow_add]

/-- **The rounding of the model is `roundUnits`** for what is a whole number of units. -/
theorem round_hasSize (s : Sign) {m : ℕ} (hm : 0 < m) {e : ℤ} (he : -1074 ≤ e) :
    HasSize s (roundUnits (sizeInUnits m e)) (UnpackedFloat.round Format.binary64 s m e) := by
  set n := sizeInUnits m e with hn
  set d := droppedBits n with hd
  set t : ℤ := d - 1074 with ht
  set m₁ := m <<< (e - t).toNat with hm₁
  set e₁ := e - (e - t).toNat with he₁
  have hn₁ : m₁ * 2 ^ (e₁ + 1074).toNat = n := by
    rw [hn, sizeInUnits, hm₁, Nat.shiftLeft_eq, Nat.mul_assoc, ← Nat.pow_add]
    congr 2
    omega
  have hround : UnpackedFloat.round Format.binary64 s m e =
      roundWithAccuracy Format.binary64 s m₁ e₁ .exact := by
    unfold UnpackedFloat.round
    rw [targetExponent_eq hm he]
    rfl
  rw [hround, ← roundFraction_one]
  refine roundWithAccuracy_eq s _ Nat.one_pos (by omega) ?_ (by rw [Nat.div_one]; omega)
  rw [Nat.one_mul, ← hn₁]
  exact ofMantissa_exact m₁ (by positivity)

end Binary64

end Housewright
