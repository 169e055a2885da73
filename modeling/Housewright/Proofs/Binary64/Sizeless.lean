import Housewright.Proofs.Binary64.Errors
import Housewright.Proofs.Binary64.SignedZeros

/-!
# Numbers without size

What is zero or not a number is not above anything that is not negative.  Sums, products, halves and
absolute values of such numbers are of this kind again, and so is what is left of two products whose
factors are opposite.

* `IsZero.mul`, `Sizeless.add`, `Sizeless.half`, `Sizeless.abs`: what the operations keep;
* `parts_mul_neg`: a product changes its sign with a factor;
* `sizeless_mul_sub`: a difference and the opposite one, times a number, cancel.
-/

namespace Housewright.Binary64

open Float.Model Float.Model.UnpackedFloat

/-- A zero, or not a number. -/
def Sizeless (x : Float) : Prop := x.isNaN = false → IsZero x

variable {x y z : Float}

/-- What has no size is not above zero. -/
theorem Sizeless.not_lt (hx : Sizeless x) (hz : 0 ≤ units z) : ¬ z < x := by
  intro hlt
  obtain ⟨hzn, hxn⟩ := isNaN_of_lt hlt
  obtain ⟨-, -, hunits⟩ := beq_iff.1 (isZero_iff_beq.1 (hx hxn))
  rw [lt_iff hzn hxn, hunits, units_zero] at hlt
  omega

/-- A number that is packed from a zero, or from what is not a number. -/
theorem sizeless_of_parts {f : UnpackedFloat}
    (hx : parts x = UnpackedFloat.unpack Format.binary64 (UnpackedFloat.pack Format.binary64 f))
    (hf : f = .notANumber ∨ ∃ s, f = .zero s) : Sizeless x := by
  intro hnan
  rcases hf with rfl | ⟨s, rfl⟩
  · rw [isNaN_eq, hx, unpack_pack (f := .notANumber) trivial] at hnan
    cases hnan
  · exact ⟨s, hx.trans (unpack_pack_zero s)⟩

/-! ## Operations -/

theorem Alike.isZero (h : Alike x y) (hy : IsZero y) : IsZero x := by
  rcases h with hparts | ⟨hx, -⟩
  · exact (isZero_iff_of_parts_eq hparts).2 hy
  · exact hx

theorem Sizeless.add (hx : Sizeless x) (hy : Sizeless y) : Sizeless (x + y) := by
  intro hnan
  obtain ⟨hxn, hyn⟩ := isNaN_of_add hnan
  exact (Alike.add_isZero x (hy hyn)).isZero (hx hxn)

theorem Sizeless.abs (hx : Sizeless x) : Sizeless x.abs := by
  intro hnan
  rw [isNaN_abs] at hnan
  exact (hx hnan).abs

theorem Sizeless.half (hx : Sizeless x) : Sizeless (x / 2.0) := by
  have hdiv : parts (x / 2.0) = UnpackedFloat.unpack Format.binary64
    (UnpackedFloat.pack Format.binary64
      (UnpackedFloat.div Format.binary64 (parts x) (parts 2.0))) := rfl
  refine sizeless_of_parts hdiv ?_
  cases hnan : x.isNaN with
  | true => exact .inl (by rw [eq_notANumber_of_isNaN hnan]; rfl)
  | false =>
    obtain ⟨s, hs⟩ := hx hnan
    exact .inr ⟨_, by rw [parts_two, hs]; rfl⟩

/-- A zero times a number is zero, or not a number. -/
theorem IsZero.mul (hx : IsZero x) (y : Float) : Sizeless (x * y) := by
  obtain ⟨s, hs⟩ := hx
  refine sizeless_of_parts (parts_mul x y) ?_
  rw [hs]
  cases parts y with
  | notANumber => exact .inl rfl
  | infinity t => exact .inl rfl
  | zero t => exact .inr ⟨_, rfl⟩
  | finite t m e hm => exact .inr ⟨_, rfl⟩

theorem IsZero.mul_left (hy : IsZero y) (x : Float) : Sizeless (x * y) := by
  obtain ⟨t, ht⟩ := hy
  refine sizeless_of_parts (parts_mul x y) ?_
  rw [ht]
  cases parts x with
  | notANumber => exact .inl rfl
  | infinity s => exact .inl rfl
  | zero s => exact .inr ⟨_, rfl⟩
  | finite s m e hm => exact .inr ⟨_, rfl⟩

/-! ## Opposite products -/

theorem HasSize.neg {s : Sign} {n : ℕ} {f : UnpackedFloat} (h : HasSize s n f) :
    HasSize (-s) n f.neg := by
  cases h with
  | zero => exact .zero
  | finite hr => exact .finite hr

theorem saturated_neg (f : UnpackedFloat) : saturated f.neg = (saturated f).neg := by
  cases f with
  | finite s m e hm =>
    simp only [UnpackedFloat.neg, saturated]
    split_ifs <;> rfl
  | _ => rfl

/-- Packing keeps signs apart. -/
theorem unpack_pack_neg {f : UnpackedFloat} (hf : Rounded f) :
    UnpackedFloat.unpack Format.binary64 (UnpackedFloat.pack Format.binary64 f.neg) =
      (UnpackedFloat.unpack Format.binary64 (UnpackedFloat.pack Format.binary64 f)).neg := by
  rw [unpack_pack (rounded_neg hf), unpack_pack hf, saturated_neg]

theorem sign_mul_neg (s t : Sign) : s * -t = -(s * t) := by cases s <;> cases t <;> rfl

/-- A product of rounded numbers can be packed, and is the opposite one if a factor is. -/
theorem rounded_mul_and_neg {f g : UnpackedFloat} (hf : Rounded f) (hg : Rounded g) :
    Rounded (UnpackedFloat.mul Format.binary64 f g) ∧
      UnpackedFloat.mul Format.binary64 f g.neg = (UnpackedFloat.mul Format.binary64 f g).neg := by
  cases f with
  | notANumber => exact ⟨trivial, rfl⟩
  | infinity s =>
    cases g <;> first
      | exact ⟨trivial, rfl⟩
      | exact ⟨trivial, congrArg UnpackedFloat.infinity (sign_mul_neg s _)⟩
  | zero s =>
    cases g <;> first
      | exact ⟨trivial, rfl⟩
      | exact ⟨trivial, congrArg UnpackedFloat.zero (sign_mul_neg s _)⟩
  | finite s m e hm =>
    cases g with
    | notANumber => exact ⟨trivial, rfl⟩
    | infinity t => exact ⟨trivial, congrArg UnpackedFloat.infinity (sign_mul_neg s t)⟩
    | zero t => exact ⟨trivial, congrArg UnpackedFloat.zero (sign_mul_neg s t)⟩
    | finite t m' e' hm' =>
      have hsize := mul_hasSize_of_rounded hf hg
      have hopposite := mul_hasSize_of_rounded hf (rounded_neg hg)
      rw [sign_mul_neg] at hopposite
      exact ⟨hsize.saturated.1, hopposite.unique hsize.neg⟩

/-- **A product** has the opposite parts if a factor has. -/
theorem parts_mul_neg (x y : Float) : parts (x * -y) = (parts (x * y)).neg := by
  obtain ⟨hrounded, hopposite⟩ := rounded_mul_and_neg (rounded_parts x) (rounded_parts y)
  rw [parts_mul, parts_mul, parts_neg, hopposite, unpack_pack_neg hrounded]

/-- Opposite numbers cancel, unless they are infinite. -/
theorem sizeless_add_of_parts_neg (h : parts x = (parts y).neg) : Sizeless (x + y) := by
  intro hnan
  obtain ⟨hxn, hyn⟩ := isNaN_of_add hnan
  have hunits : units x = -units y := by rw [units, h, place_neg, units]
  by_cases hfinite : y.isFinite = true
  · have hfinite' : x.isFinite = true := by
      rw [isFinite_iff hyn] at hfinite
      rw [isFinite_iff hxn, hunits]
      omega
    obtain ⟨-, hsum⟩ := units_add hfinite' hfinite
    rw [isZero_iff_beq, beq_iff, hsum, hunits, neg_add_cancel, roundPlace_zero, units_zero]
    exact ⟨hnan, by decide +kernel, rfl⟩
  · obtain ⟨s, hs⟩ := exists_infinity hyn hfinite
    rw [hs] at h
    have hparts : parts (x + y) = UnpackedFloat.unpack Format.binary64
        (UnpackedFloat.pack Format.binary64 .notANumber) := by
      rw [parts_add, h, hs]
      cases s <;> rfl
    exact sizeless_of_parts hparts (.inl rfl) hnan

/-- **A difference and the opposite one**, times one number, cancel. -/
theorem sizeless_mul_sub {a b : Float} (ha : a.isFinite = true) (hb : b.isFinite = true)
    (x : Float) : Sizeless (x * (a - b) + x * (b - a)) := by
  rcases alike_sub_comm ha hb with hparts | ⟨hzero, -⟩
  · refine sizeless_add_of_parts_neg ?_
    rw [parts_mul, hparts, ← parts_mul, parts_mul_neg]
  · have hback : IsZero (b - a) := by
      obtain ⟨-, -, hunits⟩ := beq_iff.1 (beq_of_sub_beq_zero (isZero_iff_beq.1 hzero))
      obtain ⟨hnan, hdifference⟩ := units_sub hb ha
      rw [isZero_iff_beq, beq_iff, hdifference, hunits, sub_self, roundPlace_zero, units_zero]
      exact ⟨hnan, by decide +kernel, rfl⟩
    exact (hzero.mul_left x).add (hback.mul_left x)

end Housewright.Binary64
