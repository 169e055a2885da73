import Housewright.Proofs.Binary64.SignedZeros
import Housewright.Proofs.Decimal.Places
import Housewright.Geometry.Point

/-!
# Close numbers

Two finite numbers are close if they are equal, or differ by at most a millionth or at most
`10⁻⁹` of one of them.  This is reflexive and symmetric, and it is coarser than rounding to six
decimal places.

* `Point.close_iff`, `Point.close_self`, `Point.close_comm`: what closeness is, and that it does not
  depend on the order;
* `Point.close_of_near`, `Point.close_of_relative`: both tolerances, with the difference as it is
  before it is rounded;
* `Point.close_of_roundPlaces_beq`: numbers that are rounded to one number are close.
-/

namespace Housewright

open Binary64 Decimal Float.Model Float.Model.UnpackedFloat

namespace Point

variable {a b : Float}

/-! ## Tolerances -/

/-- Two finite numbers are close if they are equal or their difference is within a tolerance. -/
theorem close_iff (ha : a.isFinite = true) (hb : b.isFinite = true) :
    close a b = true ↔ (a == b) = true ∨ (b - a).abs ≤ (1e-9 * b).abs ∨
      (b - a).abs ≤ (1e-9 * a).abs ∨ (b - a).abs ≤ 1e-6 := by
  have hdef : close a b = (a == b || a.isFinite && b.isFinite &&
    (decide ((b - a).abs ≤ (1e-9 * b).abs) || decide ((b - a).abs ≤ (1e-9 * a).abs) ||
      decide ((b - a).abs ≤ 1e-6))) := rfl
  rw [hdef, ha, hb]
  simp [or_assoc]

theorem close_self (ha : a.isFinite = true) : close a a = true :=
  (close_iff ha ha).2 (.inl (beq_self_iff.2 (isNaN_of_isFinite ha)))

/-- **Closeness** does not depend on the order. -/
theorem close_comm (ha : a.isFinite = true) (hb : b.isFinite = true) : close a b = close b a := by
  have habs : (b - a).abs = (a - b).abs :=
    (alike_sub_comm hb ha).abs_eq.trans (abs_neg_eq _)
  rw [Bool.eq_iff_iff, close_iff ha hb, close_iff hb ha, habs, BEq.comm]
  tauto

theorem abs_roundPlace (n : ℤ) : |roundPlace n| = roundPlace |n| := by
  rcases abs_cases n with ⟨h, hn⟩ | ⟨h, hn⟩
  · rw [h, abs_of_nonneg (roundPlace_nonneg hn)]
  · rw [h, roundPlace_neg, abs_of_nonpos]
    have := roundPlace_nonneg (n := -n) (by omega)
    rw [roundPlace_neg] at this
    omega

/-- The size of a difference, between finite numbers. -/
theorem units_abs_sub (ha : a.isFinite = true) (hb : b.isFinite = true) :
    (b - a).abs.isNaN = false ∧ units (b - a).abs = roundPlace |units a - units b| := by
  obtain ⟨hnan, hunits⟩ := units_sub hb ha
  refine ⟨(isNaN_abs _).trans hnan, ?_⟩
  rw [units_abs, hunits, abs_roundPlace, abs_sub_comm]

/-- A millionth is not below the whole number of units in it. -/
theorem le_units_millionth :
    (1e-6 : Float).isNaN = false ∧ roundPlace (oneUnits / 10 ^ 6 : ℕ) ≤ units 1e-6 := by
  decide +kernel

/-- Numbers that are a millionth apart or less are close. -/
theorem close_of_near (ha : a.isFinite = true) (hb : b.isFinite = true)
    (h : |units a - units b| * 10 ^ 6 ≤ oneUnits) : close a b = true := by
  obtain ⟨hnan, hunits⟩ := units_abs_sub ha hb
  obtain ⟨hnan', hmillionth⟩ := le_units_millionth
  refine (close_iff ha hb).2 (.inr (.inr (.inr ?_)))
  rw [le_iff hnan hnan', hunits]
  refine (roundPlace_mono ?_).trans hmillionth
  push_cast
  omega

/-- The mantissa and the exponent of the relative tolerance. -/
theorem exists_parts_billionth : ∃ (m : ℕ) (hm : 0 < m),
    parts 1e-9 = .finite .positive m (-52 - (30 : ℕ)) hm ∧ 2 ^ 52 ≤ m := by
  have hform : BinaryForm.ofFloat? 1e-9 = some ⟨false, 4835703278458517, -82⟩ := by decide +kernel
  rcases parts_of_ofFloat? hform with ⟨hzero, -⟩ | ⟨hm, hparts⟩
  · cases hzero
  · exact ⟨_, hm, hparts, by decide⟩

/-- Numbers whose difference is small against one of them are close. -/
theorem close_of_relative (ha : a.isFinite = true) (hb : b.isFinite = true)
    (hlarge : oneUnits ≤ |units b|) (h : 2 ^ 30 * |units a - units b| ≤ |units b|) :
    close a b = true := by
  obtain ⟨hnan, hunits⟩ := units_abs_sub ha hb
  obtain ⟨m, hm, hparts, hfull⟩ := exists_parts_billionth
  obtain ⟨hnan', hproduct⟩ := roundPlace_le_units_mul hparts hfull (by decide) hb hlarge
  refine (close_iff ha hb).2 (.inr (.inl ?_))
  rw [le_iff hnan ((isNaN_abs _).trans hnan'), hunits, units_abs]
  refine (roundPlace_mono ?_).trans hproduct
  omega

/-! ## Numbers that are rounded to one number -/

/-- One is many units, and infinity is many ones. -/
theorem oneUnits_large : 2 ^ 100 ≤ oneUnits ∧ 2 ^ 100 * oneUnits ≤ infinityUnits := by
  obtain ⟨r, k, hr, hk, hone, htop⟩ := exists_infinityUnits_eq
  rw [hone, htop, ← Nat.pow_add]
  exact ⟨Nat.pow_le_pow_right (by decide) (by omega), Nat.pow_le_pow_right (by decide) (by omega)⟩

/-- The size that some millionths are rounded to. -/
def keySize (n : ℕ) : ℕ := min (roundFraction (n * oneUnits) (10 ^ 6)) infinityUnits

theorem keySize_pos {n : ℕ} (h : 0 < n) : 0 < keySize n := by
  obtain ⟨hlarge, -⟩ := oneUnits_large
  obtain ⟨-, hhigh⟩ := roundFraction_error (n * oneUnits) (show 0 < 10 ^ 6 by decide)
  have hn : oneUnits ≤ n * oneUnits := Nat.le_mul_of_pos_left _ h
  refine lt_min (Nat.pos_of_ne_zero fun hzero => ?_) infinityUnits_pos
  rw [hzero] at hhigh
  omega

/-- **Different millionths** that are rounded to one size are those of large numbers, whose
difference is far below the relative tolerance. -/
theorem relative_of_keySize {n m A B : ℕ} (hne : n ≠ m) (hkey : keySize n = keySize m)
    (hA : A < infinityUnits) (hB : B < infinityUnits)
    (hn : 2 * (n * oneUnits) ≤ 2 * (A * 10 ^ 6) + oneUnits ∧
      2 * (A * 10 ^ 6) ≤ 2 * (n * oneUnits) + oneUnits)
    (hm : 2 * (m * oneUnits) ≤ 2 * (B * 10 ^ 6) + oneUnits ∧
      2 * (B * 10 ^ 6) ≤ 2 * (m * oneUnits) + oneUnits) :
    oneUnits ≤ B ∧ 2 ^ 30 * (A - B) ≤ B ∧ 2 ^ 30 * (B - A) ≤ B := by
  obtain ⟨hlarge, htop⟩ := oneUnits_large
  have hf := roundFraction_error (n * oneUnits) (show 0 < 10 ^ 6 by decide)
  have hg := roundFraction_error (m * oneUnits) (show 0 < 10 ^ 6 by decide)
  have hstep : n * oneUnits + oneUnits ≤ m * oneUnits ∨ m * oneUnits + oneUnits ≤ n * oneUnits := by
    rw [← Nat.succ_mul, ← Nat.succ_mul]
    rcases Nat.lt_or_gt_of_ne hne with hlt | hlt
    · exact .inl (Nat.mul_le_mul_right _ hlt)
    · exact .inr (Nat.mul_le_mul_right _ hlt)
  unfold keySize at hkey
  generalize roundFraction (n * oneUnits) (10 ^ 6) = f at *
  generalize roundFraction (m * oneUnits) (10 ^ 6) = g at *
  generalize n * oneUnits = nU at *
  generalize m * oneUnits = mU at *
  generalize oneUnits = U at *
  generalize infinityUnits = I at *
  have hsame : f = g ∨ I ≤ f ∧ I ≤ g := by omega
  rcases hsame with rfl | ⟨hfI, hgI⟩
  · -- a whole millionth is lost, so that it is below the last bit
    have hbits : 2 ^ 52 * U ≤ nU + mU := by omega
    omega
  · -- finite numbers that are rounded to infinity are next to it
    omega

/-- A number without millionths is the one that is rounded to zero. -/
theorem units_roundPlaces_eq_zero_iff (ha : a.isFinite = true) :
    units (roundPlaces 6 a) = 0 ↔ steps 6 a = 0 := by
  rw [(units_roundPlaces ha 6).2, mul_eq_zero, Int.sign_eq_zero_iff_zero, Int.natCast_eq_zero]
  constructor
  · rintro (hzero | hkey)
    · exact steps_eq_zero hzero 6
    · by_contra hsteps
      exact (keySize_pos (Nat.pos_of_ne_zero hsteps)).ne' hkey
  · intro hsteps
    right
    rw [hsteps, Nat.zero_mul, roundFraction_eq_zero (by decide), Nat.zero_min]

/-- **Numbers that are rounded to one number** are on the same side of zero, and their millionths
are rounded to one size. -/
theorem same_side_of_roundPlaces_beq (ha : a.isFinite = true) (hb : b.isFinite = true)
    (h : (roundPlaces 6 a == roundPlaces 6 b) = true) (hne : steps 6 a ≠ 0) :
    (0 < units a ∧ 0 < units b ∨ units a < 0 ∧ units b < 0) ∧
      keySize (steps 6 a) = keySize (steps 6 b) := by
  obtain ⟨-, -, hunits⟩ := beq_iff.1 h
  have hne' : steps 6 b ≠ 0 := by
    rwa [Ne, ← units_roundPlaces_eq_zero_iff hb, ← hunits, units_roundPlaces_eq_zero_iff ha]
  have hposa := keySize_pos (Nat.pos_of_ne_zero hne)
  have hposb := keySize_pos (Nat.pos_of_ne_zero hne')
  rw [(units_roundPlaces ha 6).2, (units_roundPlaces hb 6).2] at hunits
  change (units a).sign * (keySize (steps 6 a) : ℕ) =
    (units b).sign * (keySize (steps 6 b) : ℕ) at hunits
  have hsign (x : Float) (hx : steps 6 x ≠ 0) :
      0 < units x ∧ (units x).sign = 1 ∨ units x < 0 ∧ (units x).sign = -1 := by
    rcases lt_trichotomy (units x) 0 with hneg | hzero | hpos
    · exact .inr ⟨hneg, Int.sign_eq_neg_one_of_neg hneg⟩
    · exact absurd (steps_eq_zero hzero 6) hx
    · exact .inl ⟨hpos, Int.sign_eq_one_of_pos hpos⟩
  rcases hsign a hne with ⟨hsidea, hsa⟩ | ⟨hsidea, hsa⟩ <;>
    rcases hsign b hne' with ⟨hsideb, hsb⟩ | ⟨hsideb, hsb⟩ <;>
    rw [hsa, hsb] at hunits <;> omega

/-- **Numbers that are rounded to one number** are close: their millionths are the same, or they are
so large that a millionth is below the relative tolerance. -/
theorem close_of_roundPlaces_beq (ha : a.isFinite = true) (hb : b.isFinite = true)
    (h : (roundPlaces 6 a == roundPlaces 6 b) = true) : close a b = true := by
  have hea := steps_error 6 a
  have heb := steps_error 6 b
  by_cases hzero : steps 6 a = 0
  · have hzero' : steps 6 b = 0 := by
      rw [← units_roundPlaces_eq_zero_iff hb, ← (beq_iff.1 h).2.2,
        units_roundPlaces_eq_zero_iff ha, hzero]
    refine close_of_near ha hb ?_
    rw [hzero] at hea
    rw [hzero'] at heb
    rw [Int.abs_eq_natAbs]
    omega
  · obtain ⟨hside, hkey⟩ := same_side_of_roundPlaces_beq ha hb h hzero
    by_cases hsame : steps 6 a = steps 6 b
    · refine close_of_near ha hb ?_
      rw [hsame] at hea
      rw [Int.abs_eq_natAbs]
      omega
    · obtain ⟨hlowa, hhigha⟩ := (isFinite_iff (isNaN_of_isFinite ha)).1 ha
      obtain ⟨hlowb, hhighb⟩ := (isFinite_iff (isNaN_of_isFinite hb)).1 hb
      obtain ⟨hlarge, hdown, hup⟩ :=
        relative_of_keySize hsame hkey (by omega) (by omega) hea heb
      refine close_of_relative ha hb ?_ ?_
      · rw [Int.abs_eq_natAbs]
        omega
      · rw [Int.abs_eq_natAbs, Int.abs_eq_natAbs]
        omega

end Point

end Housewright
