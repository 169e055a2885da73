import Housewright.Proofs.Binary64.Equality

/-!
# Numbers that are not negative

A number with a sign of plus is `Nonnegative`: a zero, a finite number or the infinity.  The
square of a number is one of these, and sums and roots of them are again.  So the root of a sum
of squares is a number if and only if all that is squared are numbers.

* `nonnegative_mul_self`, `nonnegative_add`, `nonnegative_sqrt`: what the operations keep;
* `isNaN_sqrt_add_squares`: when the root of two squares is a number.
-/

namespace Housewright.Binary64

open Float.Model Float.Model.UnpackedFloat

/-- The parts of a number with a sign of plus. -/
def Nonnegative : UnpackedFloat → Prop
  | .notANumber => False
  | .infinity s => s = .positive
  | .zero s => s = .positive
  | .finite s _ _ _ => s = .positive

theorem Nonnegative.isNaN {f : UnpackedFloat} (h : Nonnegative f) : f.isNaN = false := by
  cases f with
  | notANumber => exact h.elim
  | _ => rfl

/-! ## Parts -/

/-- Rounding gives a number with the sign that it is told. -/
theorem nonnegative_roundWithAccuracy (m : ℕ) (e : ℤ) (acc : Accuracy) :
    Nonnegative (roundWithAccuracy Format.binary64 .positive m e acc) := by
  unfold roundWithAccuracy
  dsimp only
  split_ifs
  · exact rfl
  · exact rfl

theorem nonnegative_normalize {n : ℤ} (hn : 0 < n) (e : ℤ) :
    Nonnegative (UnpackedFloat.normalize Format.binary64 n e .positive) := by
  unfold UnpackedFloat.normalize
  rw [compare_gt_iff_gt.2 hn]
  exact nonnegative_roundWithAccuracy _ _ _

/-- Packing keeps the sign. -/
theorem nonnegative_unpack_pack {f : UnpackedFloat} (h : Nonnegative f) :
    Nonnegative (UnpackedFloat.unpack Format.binary64 (UnpackedFloat.pack Format.binary64 f)) := by
  cases f with
  | notANumber => exact h.elim
  | infinity s => rwa [unpack_pack (f := .infinity s) trivial]
  | zero s => rwa [unpack_pack (f := .zero s) trivial]
  | finite s m e hm =>
    obtain rfl : s = .positive := h
    simp only [UnpackedFloat.pack, show Format.binary64.exponentBias = 1023 from rfl]
    split_ifs with hlarge hfull
    · exact rfl
    · -- the exponent is below the one that infinities are written with
      have hb : (e + (1023 : ℕ) + (52 : ℕ)).toNat + 1 < 2 ^ 11 := Nat.not_le.1 hlarge
      have hne : BitVec.ofNat 11 (e + (1023 : ℕ) + (52 : ℕ)).toNat ≠ -1#11 := by
        intro htop
        have htop := congrArg BitVec.toNat htop
        rw [BitVec.toNat_ofNat, Nat.mod_eq_of_lt (by omega)] at htop
        have hones : (-1#11).toNat = 2047 := rfl
        omega
      rw [unpack_packComponents, if_neg hne]
      split_ifs
      · exact rfl
      · exact rfl
      · exact rfl
    · rw [unpack_packComponents, if_neg (by decide), if_pos rfl]
      split_ifs
      · exact rfl
      · exact rfl

theorem nonnegative_mul_self_parts {f : UnpackedFloat} (h : f.isNaN = false) :
    Nonnegative (UnpackedFloat.mul Format.binary64 f f) := by
  cases f with
  | notANumber => cases h
  | infinity s => cases s <;> exact rfl
  | zero s => cases s <;> exact rfl
  | finite s m e hm => cases s <;> exact nonnegative_roundWithAccuracy _ _ _

theorem nonnegative_add_parts {f g : UnpackedFloat} (hf : Nonnegative f) (hg : Nonnegative g) :
    Nonnegative (UnpackedFloat.add Format.binary64 f g) := by
  cases f with
  | notANumber => exact hf.elim
  | infinity s =>
    obtain rfl : s = .positive := hf
    rw [infinity_add .positive hg.isNaN (by rintro rfl; cases hg)]
    exact rfl
  | zero s =>
    obtain rfl : s = .positive := hf
    cases g with
    | notANumber => exact hg.elim
    | zero t =>
      obtain rfl : t = .positive := hg
      exact rfl
    | _ => exact hg
  | finite s m e hm =>
    cases g with
    | notANumber => exact hg.elim
    | infinity t => exact hg
    | zero t => exact hf
    | finite t m' e' hm' =>
      obtain rfl : s = .positive := hf
      obtain rfl : t = .positive := hg
      have hpos : (0 : ℤ) < ((decreaseExponent m e (min e e')).1 : ℤ) +
          (decreaseExponent m' e' (min e e')).1 := by
        have hmantissa : 0 < (decreaseExponent m e (min e e')).1 := by
          rw [decreaseExponent, Nat.shiftLeft_eq]
          positivity
        omega
      exact nonnegative_normalize hpos _

theorem nonnegative_sqrt_parts {f : UnpackedFloat} (h : Nonnegative f) :
    Nonnegative (UnpackedFloat.sqrt Format.binary64 f) := by
  cases f with
  | notANumber => exact h.elim
  | infinity s =>
    obtain rfl : s = .positive := h
    exact rfl
  | zero s => exact h
  | finite s m e hm =>
    obtain rfl : s = .positive := h
    exact nonnegative_roundWithAccuracy _ _ _

/-! ## Numbers -/

section Numbers

variable {x y : Float}

/-- **A square is not negative.** -/
theorem nonnegative_mul_self (h : x.isNaN = false) : Nonnegative (parts (x * x)) :=
  nonnegative_unpack_pack (nonnegative_mul_self_parts (isNaN_eq x ▸ h))

theorem nonnegative_add (hx : Nonnegative (parts x)) (hy : Nonnegative (parts y)) :
    Nonnegative (parts (x + y)) :=
  nonnegative_unpack_pack (nonnegative_add_parts hx hy)

/-- **A number that is not negative has a root.** -/
theorem nonnegative_sqrt (h : Nonnegative (parts x)) : Nonnegative (parts x.sqrt) :=
  nonnegative_unpack_pack (nonnegative_sqrt_parts h)

/-- **The root of two squares** is not a number if and only if one of the two is none. -/
theorem isNaN_sqrt_add_squares :
    (x * x + y * y).sqrt.isNaN = true ↔ x.isNaN = true ∨ y.isNaN = true := by
  constructor
  · intro h
    by_contra hnot
    obtain ⟨hx, hy⟩ := not_or.1 hnot
    have hsum := nonnegative_add (nonnegative_mul_self (Bool.eq_false_of_not_eq_true hx))
      (nonnegative_mul_self (Bool.eq_false_of_not_eq_true hy))
    rw [isNaN_eq, (nonnegative_sqrt hsum).isNaN] at h
    cases h
  · intro h
    by_contra hnot
    have hsum := isNaN_of_add (isNaN_of_sqrt (Bool.eq_false_of_not_eq_true hnot))
    rcases h with h | h
    · cases h.symm.trans (isNaN_of_mul_self hsum.1)
    · cases h.symm.trans (isNaN_of_mul_self hsum.2)

end Numbers

end Housewright.Binary64
