import Mathlib.Order.Compare
import Housewright.Proofs.Binary64.Rounding

/-!
# The order of floating-point numbers

Every number except not-a-number has a place on one scale of whole numbers, `units`: a
finite number is at its size in units of `2 ^ -1074`, and the infinities are past all finite
numbers, at `± infinityUnits`.  The comparisons are those of the places, and false
if one side is not-a-number:

* `lt_iff`, `le_iff`: the comparisons of the model in terms of `units`;
* `not_lt_iff`: a comparison that fails is the opposite one, between numbers;
* `isFinite_iff`: the finite numbers are those strictly between the infinities.
-/

namespace Housewright.Binary64

open Float.Model Float.Model.UnpackedFloat

/-- Where the infinities are put. -/
@[irreducible] def infinityUnits : ℕ := 2 ^ 53 * 2 ^ 2045

/-- Where the parts of a number are put on the scale of units. -/
def place : UnpackedFloat → ℤ
  | .finite s m e _ => s.apply (sizeInUnits m e)
  | .infinity s => s.apply infinityUnits
  | _ => 0

/-- The place of a number on the scale of units. -/
def units (x : Float) : ℤ := place (parts x)

/-! ## The kinds of numbers -/

theorem isNaN_eq (x : Float) : x.isNaN = (parts x).isNaN := rfl

theorem isFinite_eq (x : Float) : x.isFinite = (parts x).isFinite := rfl

theorem isNaN_of_isFinite {x : Float} (h : x.isFinite = true) : x.isNaN = false := by
  rw [isNaN_eq]
  rw [isFinite_eq] at h
  revert h
  cases parts x <;> simp [UnpackedFloat.isFinite, UnpackedFloat.isNaN]

/-- Full mantissas at different exponents are at different scales. -/
theorem mul_two_pow_lt_iff {m k q : ℕ} (hm : m < 2 ^ 53) (hn : 2 ^ 52 ≤ m ∨ k = 0) :
    m * 2 ^ k < 2 ^ 53 * 2 ^ q ↔ k ≤ q := by
  constructor
  · intro hlt
    by_contra hq
    have hlow : 2 ^ 52 ≤ m := hn.resolve_right (by omega)
    have hle : 2 ^ 53 * 2 ^ q ≤ m * 2 ^ k := by
      rw [two_pow_carry]
      exact Nat.mul_le_mul hlow (Nat.pow_le_pow_right (by decide) (by omega))
    exact absurd hlt (not_lt.2 hle)
  · intro hq
    calc m * 2 ^ k ≤ m * 2 ^ q := Nat.mul_le_mul_left _ (Nat.pow_le_pow_right (by decide) hq)
      _ < 2 ^ 53 * 2 ^ q := Nat.mul_lt_mul_of_pos_right hm (by positivity)

/-- A size is below infinity if its exponent is in range. -/
theorem sizeInUnits_lt_iff {m : ℕ} {e : ℤ} {s : Sign} {h : 0 < m} (hr : Rounded (.finite s m e h)) :
    sizeInUnits m e < infinityUnits ↔ e ≤ 971 := by
  obtain ⟨hm, he, hn⟩ := hr
  unfold sizeInUnits infinityUnits
  rw [mul_two_pow_lt_iff hm (hn.imp_right (by omega))]
  omega

theorem sizeInUnits_pos {m : ℕ} (h : 0 < m) (e : ℤ) : 0 < sizeInUnits m e := by
  unfold sizeInUnits
  positivity

theorem infinityUnits_pos : 0 < infinityUnits := by
  unfold infinityUnits
  positivity

/-- The finite numbers are the numbers strictly between the infinities. -/
theorem isFinite_iff {x : Float} (h : x.isNaN = false) :
    x.isFinite = true ↔ -(infinityUnits : ℤ) < units x ∧ units x < infinityUnits := by
  have hpos := infinityUnits_pos
  have hr := rounded_parts x
  have hi := inRange_parts x
  rw [isNaN_eq] at h
  rw [isFinite_eq, units]
  cases hx : parts x with
  | notANumber => simp [hx, UnpackedFloat.isNaN] at h
  | infinity s => cases s <;> simp [UnpackedFloat.isFinite, place, Sign.apply]
  | zero s => simp [UnpackedFloat.isFinite, place]; omega
  | finite s m e hm =>
    rw [hx] at hr hi
    have hlt := (sizeInUnits_lt_iff hr).2 hi
    have hle := sizeInUnits_pos hm e
    cases s <;> simp only [UnpackedFloat.isFinite, place, Sign.apply, true_iff] <;> omega

/-! ## Comparing -/

/-- Full mantissas are compared by their exponents first. -/
theorem compare_exponent_then_mantissa {s₁ s₂ : Sign} {m₁ m₂ : ℕ} {e₁ e₂ : ℤ} {h₁ : 0 < m₁}
    {h₂ : 0 < m₂} (r₁ : Rounded (.finite s₁ m₁ e₁ h₁)) (r₂ : Rounded (.finite s₂ m₂ e₂ h₂)) :
    (compare e₁ e₂).then (compare m₁ m₂) = compare (sizeInUnits m₁ e₁) (sizeInUnits m₂ e₂) := by
  have hlt : ∀ {m m' : ℕ} {e e' : ℤ}, m < 2 ^ 53 → m' < 2 ^ 53 → (2 ^ 52 ≤ m' ∨ e' = -1074) →
      -1074 ≤ e → e < e' → sizeInUnits m e < sizeInUnits m' e' := by
    intro m m' e e' hm hm' hn he hee
    refine (Nat.mul_lt_mul_of_pos_right hm (by positivity)).trans_le (not_lt.1 fun hlt => ?_)
    have := (mul_two_pow_lt_iff hm' (hn.imp_right (by omega))).1 hlt
    omega
  rcases lt_trichotomy e₁ e₂ with h | rfl | h
  · rw [compare_lt_iff_lt.2 h, compare_lt_iff_lt.2 (hlt r₁.1 r₂.1 r₂.2.2 r₁.2.1 h)]
    rfl
  · rw [compare_eq_iff_eq.2 rfl]
    show compare m₁ m₂ = _
    have hpow : 0 < 2 ^ (e₁ + 1074).toNat := by positivity
    rcases lt_trichotomy m₁ m₂ with h | rfl | h
    · rw [compare_lt_iff_lt.2 h]
      exact (compare_lt_iff_lt.2 (Nat.mul_lt_mul_of_pos_right h hpow)).symm
    · rw [compare_eq_iff_eq.2 rfl, compare_eq_iff_eq.2 rfl]
    · rw [compare_gt_iff_gt.2 h]
      exact (compare_gt_iff_gt.2 (Nat.mul_lt_mul_of_pos_right h hpow)).symm
  · rw [compare_gt_iff_gt.2 h, compare_gt_iff_gt.2 (hlt r₂.1 r₁.1 r₁.2.2 r₂.2.1 h)]
    rfl

/-- Parts of one sign are compared by their sizes. -/
theorem compare_finite (s t : Sign) {m₁ m₂ : ℕ} {e₁ e₂ : ℤ} {h₁ : 0 < m₁} {h₂ : 0 < m₂}
    (r₁ : Rounded (.finite s m₁ e₁ h₁)) (r₂ : Rounded (.finite t m₂ e₂ h₂)) :
    (UnpackedFloat.finite s m₁ e₁ h₁).compare (.finite t m₂ e₂ h₂) =
      some (compare (place (.finite s m₁ e₁ h₁)) (place (.finite t m₂ e₂ h₂))) := by
  have p₁ := sizeInUnits_pos h₁ e₁
  have p₂ := sizeInUnits_pos h₂ e₂
  have hc := compare_exponent_then_mantissa r₁ r₂
  cases s <;> cases t <;> simp only [UnpackedFloat.compare, place, Sign.apply, hc]
  · rw [Option.some_inj]
    rcases lt_trichotomy (sizeInUnits m₁ e₁) (sizeInUnits m₂ e₂) with h | h | h
    · rw [compare_lt_iff_lt.2 h, compare_gt_iff_gt.2 (by omega)]
      rfl
    · rw [h, compare_eq_iff_eq.2 rfl, compare_eq_iff_eq.2 rfl]
      rfl
    · rw [compare_gt_iff_gt.2 h, compare_lt_iff_lt.2 (by omega)]
      rfl
  · rw [compare_lt_iff_lt.2 (by omega)]
  · rw [compare_gt_iff_gt.2 (by omega)]
  · rw [Option.some_inj]
    rcases lt_trichotomy (sizeInUnits m₁ e₁) (sizeInUnits m₂ e₂) with h | h | h
    · rw [compare_lt_iff_lt.2 h, compare_lt_iff_lt.2 (by omega)]
    · rw [h, compare_eq_iff_eq.2 rfl, compare_eq_iff_eq.2 rfl]
    · rw [compare_gt_iff_gt.2 h, compare_gt_iff_gt.2 (by omega)]

theorem some_lt_compare {a b : ℤ} (h : a < b) : some Ordering.lt = some (compare a b) := by
  rw [compare_lt_iff_lt.2 h]

theorem some_gt_compare {a b : ℤ} (h : b < a) : some Ordering.gt = some (compare a b) := by
  rw [compare_gt_iff_gt.2 h]

theorem some_eq_compare {a b : ℤ} (h : a = b) : some Ordering.eq = some (compare a b) := by
  rw [compare_eq_iff_eq.2 h]

/-- **Numbers are compared by their places.** -/
theorem compare_parts {x y : Float} (hx : x.isNaN = false) (hy : y.isNaN = false) :
    (parts x).compare (parts y) = some (compare (units x) (units y)) := by
  have rx := rounded_parts x
  have ry := rounded_parts y
  have ix := inRange_parts x
  have iy := inRange_parts y
  have hpos := infinityUnits_pos
  rw [isNaN_eq] at hx hy
  rw [units, units]
  generalize parts x = f at *
  generalize parts y = g at *
  cases f with
  | notANumber => simp [UnpackedFloat.isNaN] at hx
  | infinity s =>
    cases g with
    | notANumber => simp [UnpackedFloat.isNaN] at hy
    | infinity t =>
      cases s <;> cases t
      · exact some_eq_compare rfl
      · exact some_lt_compare (by simp [place, Sign.apply]; omega)
      · exact some_gt_compare (by simp [place, Sign.apply]; omega)
      · exact some_eq_compare rfl
    | zero t =>
      cases s
      · exact some_lt_compare (by simp [place, Sign.apply]; omega)
      · exact some_gt_compare (by simp [place, Sign.apply]; omega)
    | finite t m e h =>
      have hlt := (sizeInUnits_lt_iff ry).2 iy
      cases s
      · exact some_lt_compare (by cases t <;> simp [place, Sign.apply] <;> omega)
      · exact some_gt_compare (by cases t <;> simp [place, Sign.apply] <;> omega)
  | zero s =>
    cases g with
    | notANumber => simp [UnpackedFloat.isNaN] at hy
    | infinity t =>
      cases t
      · exact some_gt_compare (by simp [place, Sign.apply]; omega)
      · exact some_lt_compare (by simp [place, Sign.apply]; omega)
    | zero t => exact some_eq_compare rfl
    | finite t m e h =>
      have hs := sizeInUnits_pos h e
      cases t
      · exact some_gt_compare (by simp [place, Sign.apply]; omega)
      · exact some_lt_compare (by simp [place, Sign.apply]; omega)
  | finite s m e h =>
    have hs := sizeInUnits_pos h e
    cases g with
    | notANumber => simp [UnpackedFloat.isNaN] at hy
    | infinity t =>
      have hlt := (sizeInUnits_lt_iff rx).2 ix
      cases t
      · cases s <;> exact some_gt_compare (by simp [place, Sign.apply]; omega)
      · cases s <;> exact some_lt_compare (by simp [place, Sign.apply]; omega)
    | zero t =>
      cases s
      · exact some_lt_compare (by simp [place, Sign.apply]; omega)
      · exact some_gt_compare (by simp [place, Sign.apply]; omega)
    | finite t m' e' h' => exact compare_finite s t rx ry

theorem lt_def (x y : Float) : x < y ↔ (parts x).compare (parts y) = some .lt := by
  show decide (x.toModel < y.toModel) = true ↔ _
  rw [decide_eq_true_iff]
  exact beq_iff_eq

theorem le_def (x y : Float) :
    x ≤ y ↔ ((parts x).compare (parts y)).any (·.isLE) = true := by
  show decide (x.toModel ≤ y.toModel) = true ↔ _
  rw [decide_eq_true_iff]
  rfl

/-- Nothing compares with not-a-number. -/
theorem compare_isNaN {x y : Float} (h : x.isNaN = true ∨ y.isNaN = true) :
    (parts x).compare (parts y) = none := by
  rw [isNaN_eq, isNaN_eq] at h
  revert h
  cases parts x <;> cases parts y <;> simp [UnpackedFloat.isNaN, UnpackedFloat.compare]

theorem isNaN_of_lt {x y : Float} (h : x < y) : x.isNaN = false ∧ y.isNaN = false := by
  rw [lt_def] at h
  by_contra hc
  rw [compare_isNaN (by revert hc; cases x.isNaN <;> cases y.isNaN <;> simp)] at h
  cases h

theorem isNaN_of_le {x y : Float} (h : x ≤ y) : x.isNaN = false ∧ y.isNaN = false := by
  rw [le_def] at h
  by_contra hc
  rw [compare_isNaN (by revert hc; cases x.isNaN <;> cases y.isNaN <;> simp)] at h
  cases h

/-- Between numbers, `<` is the order of their places. -/
theorem lt_iff {x y : Float} (hx : x.isNaN = false) (hy : y.isNaN = false) :
    x < y ↔ units x < units y := by
  rw [lt_def, compare_parts hx hy, Option.some_inj, compare_lt_iff_lt]

/-- Between numbers, `≤` is the order of their places. -/
theorem le_iff {x y : Float} (hx : x.isNaN = false) (hy : y.isNaN = false) :
    x ≤ y ↔ units x ≤ units y := by
  rw [le_def, compare_parts hx hy, Option.any_some, Ordering.isLE_iff_ne_gt]
  exact compare_gt_iff_gt.not.trans not_lt

/-- Between numbers, a comparison that fails is the opposite one. -/
theorem not_lt_iff {x y : Float} (hx : x.isNaN = false) (hy : y.isNaN = false) :
    ¬ x < y ↔ y ≤ x := by
  rw [lt_iff hx hy, le_iff hy hx, not_lt]

theorem le_of_lt {x y : Float} (h : x < y) : x ≤ y := by
  obtain ⟨hx, hy⟩ := isNaN_of_lt h
  rw [lt_iff hx hy] at h
  exact (le_iff hx hy).2 h.le

theorem le_trans {x y z : Float} (hxy : x ≤ y) (hyz : y ≤ z) : x ≤ z := by
  obtain ⟨hx, hy⟩ := isNaN_of_le hxy
  obtain ⟨-, hz⟩ := isNaN_of_le hyz
  rw [le_iff hx hy] at hxy
  rw [le_iff hy hz] at hyz
  exact (le_iff hx hz).2 (hxy.trans hyz)

theorem lt_of_le_of_lt {x y z : Float} (hxy : x ≤ y) (hyz : y < z) : x < z := by
  obtain ⟨hx, hy⟩ := isNaN_of_le hxy
  obtain ⟨-, hz⟩ := isNaN_of_lt hyz
  rw [le_iff hx hy] at hxy
  rw [lt_iff hy hz] at hyz
  exact (lt_iff hx hz).2 (hxy.trans_lt hyz)

/-- A number above another is not below it. -/
theorem not_lt_of_le {x y : Float} (h : x ≤ y) : ¬ y < x := by
  obtain ⟨hx, hy⟩ := isNaN_of_le h
  exact (not_lt_iff hy hx).2 h

end Housewright.Binary64
