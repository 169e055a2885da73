import Housewright.Proofs.Binary64.Sums

/-!
# Equal numbers, and numbers that are none

Two numbers are equal if they have one place, whatever their signs of zero; not-a-number
equals nothing, itself included.  An operation on not-a-number gives not-a-number again, so
that a result which is a number tells that the operands were numbers too.

* `beq_iff`: equality in terms of places;
* `lt_of_beq_zero`: what equals zero is below everything above zero;
* `isNaN_of_add`, `isNaN_of_sub`, `isNaN_of_mul_self`, `isNaN_of_sqrt`: the operands of a
  result that is a number;
* `beq_of_sub_beq_zero`: a difference of zero is one between equal numbers.
-/

namespace Housewright.Binary64

open Float.Model Float.Model.UnpackedFloat

/-! ## Equality -/

theorem beq_def (x y : Float) :
    (x == y) = true ↔ (parts x).compare (parts y) = some .eq := by
  show ((parts x).compare (parts y) == some .eq) = true ↔ _
  exact beq_iff_eq

/-- **Equal numbers** are numbers at one place. -/
theorem beq_iff {x y : Float} :
    (x == y) = true ↔ x.isNaN = false ∧ y.isNaN = false ∧ units x = units y := by
  rw [beq_def]
  constructor
  · intro h
    have hnan : x.isNaN = false ∧ y.isNaN = false := by
      by_contra hc
      rw [compare_isNaN (by revert hc; cases x.isNaN <;> cases y.isNaN <;> simp)] at h
      cases h
    obtain ⟨hx, hy⟩ := hnan
    rw [compare_parts hx hy, Option.some_inj, compare_eq_iff_eq] at h
    exact ⟨hx, hy, h⟩
  · rintro ⟨hx, hy, h⟩
    rw [compare_parts hx hy, compare_eq_iff_eq.2 h]

/-- Equality of numbers is symmetric and transitive. -/
instance instPartialEquivBEq : PartialEquivBEq Float where
  symm h := by
    obtain ⟨hx, hy, h⟩ := beq_iff.1 h
    exact beq_iff.2 ⟨hy, hx, h.symm⟩
  trans hxy hyz := by
    obtain ⟨hx, -, hxy⟩ := beq_iff.1 hxy
    obtain ⟨-, hz, hyz⟩ := beq_iff.1 hyz
    exact beq_iff.2 ⟨hx, hz, hxy.trans hyz⟩

/-- A number equals itself. -/
theorem beq_self_iff {x : Float} : (x == x) = true ↔ x.isNaN = false := by
  rw [beq_iff]
  exact ⟨fun h => h.1, fun h => ⟨h, h, rfl⟩⟩

/-! ## Numbers that equal zero -/

/-- A number that equals zero is below every number above zero. -/
theorem lt_of_beq_zero {x y : Float} (hx : (x == 0.0) = true) (hy : 0.0 < y) : x < y := by
  obtain ⟨hnan, hzero, hunits⟩ := beq_iff.1 hx
  obtain ⟨-, hynan⟩ := isNaN_of_lt hy
  rw [lt_iff hnan hynan, hunits]
  exact (lt_iff hzero hynan).1 hy

/-- The size of a number that equals zero does so too. -/
theorem abs_beq_zero {x : Float} (hx : (x == 0.0) = true) : (x.abs == 0.0) = true := by
  obtain ⟨hnan, hzero, hunits⟩ := beq_iff.1 hx
  refine beq_iff.2 ⟨(isNaN_abs x).trans hnan, hzero, ?_⟩
  rw [units_abs, hunits, units_zero, abs_zero]

/-! ## Not-a-number is passed on -/

theorem eq_notANumber_of_isNaN {x : Float} (h : x.isNaN = true) : parts x = .notANumber := by
  rw [isNaN_eq] at h
  revert h
  cases parts x <;> simp [UnpackedFloat.isNaN]

/-- The operands of a sum that is a number are numbers. -/
theorem isNaN_of_add {x y : Float} (h : (x + y).isNaN = false) :
    x.isNaN = false ∧ y.isNaN = false := by
  have hsum : UnpackedFloat.add Format.binary64 (parts x) (parts y) ≠ .notANumber := by
    intro hadd
    rw [isNaN_eq, parts_add, hadd] at h
    exact absurd h (by decide)
  constructor
  · by_contra hx
    rw [eq_notANumber_of_isNaN (Bool.eq_true_of_not_eq_false hx)] at hsum
    exact hsum rfl
  · by_contra hy
    rw [eq_notANumber_of_isNaN (Bool.eq_true_of_not_eq_false hy)] at hsum
    exact hsum (by cases parts x <;> rfl)

theorem isNaN_of_sub {x y : Float} (h : (x - y).isNaN = false) :
    x.isNaN = false ∧ y.isNaN = false := by
  rw [sub_eq_add_neg] at h
  obtain ⟨hx, hy⟩ := isNaN_of_add h
  exact ⟨hx, by rwa [isNaN_neg] at hy⟩

/-- A square that is a number is the square of a number. -/
theorem isNaN_of_mul_self {x : Float} (h : (x * x).isNaN = false) : x.isNaN = false := by
  by_contra hc
  have hx := eq_notANumber_of_isNaN (Bool.eq_true_of_not_eq_false hc)
  have hmul : parts (x * x) = UnpackedFloat.unpack Format.binary64
      (UnpackedFloat.pack Format.binary64
        (UnpackedFloat.mul Format.binary64 (parts x) (parts x))) := rfl
  rw [isNaN_eq, hmul, hx] at h
  exact absurd h (by decide)

/-- A root that is a number is the root of a number. -/
theorem isNaN_of_sqrt {x : Float} (h : x.sqrt.isNaN = false) : x.isNaN = false := by
  by_contra hc
  have hx := eq_notANumber_of_isNaN (Bool.eq_true_of_not_eq_false hc)
  have hsqrt : parts x.sqrt = UnpackedFloat.unpack Format.binary64
      (UnpackedFloat.pack Format.binary64 (UnpackedFloat.sqrt Format.binary64 (parts x))) := rfl
  rw [isNaN_eq, hsqrt, hx] at h
  exact absurd h (by decide)

/-! ## Equal numbers and the order -/

/-- Numbers without a difference are equal. -/
theorem beq_of_sub_beq_zero {x y : Float} (h : (x - y == 0.0) = true) : (x == y) = true := by
  obtain ⟨hnan, -, hunits⟩ := beq_iff.1 h
  obtain ⟨hx, hy⟩ := isNaN_of_sub hnan
  rw [units_zero] at hunits
  have hpos := infinityUnits_pos
  have hfinite : (x - y).isFinite = true := (isFinite_iff hnan).2 (by omega)
  rw [sub_eq_add_neg] at hfinite
  obtain ⟨fx, fy⟩ := isFinite_of_isFinite_add hfinite
  rw [(units_sub fx ((isFinite_neg y).symm.trans fy)).2] at hunits
  have hzero := eq_zero_of_roundPlace hunits
  exact beq_iff.2 ⟨hx, hy, by omega⟩

/-- Equal numbers are above the same numbers. -/
theorem lt_iff_of_beq {p x y : Float} (h : (x == y) = true) : p < x ↔ p < y := by
  obtain ⟨hx, hy, hunits⟩ := beq_iff.1 h
  constructor
  · intro hlt
    obtain ⟨hp, -⟩ := isNaN_of_lt hlt
    rw [lt_iff hp hx, hunits] at hlt
    exact (lt_iff hp hy).2 hlt
  · intro hlt
    obtain ⟨hp, -⟩ := isNaN_of_lt hlt
    rw [lt_iff hp hy, ← hunits] at hlt
    exact (lt_iff hp hx).2 hlt

end Housewright.Binary64
