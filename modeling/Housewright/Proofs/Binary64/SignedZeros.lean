import Housewright.Proofs.Binary64.Equality
import Housewright.Proofs.Binary64.Products
import Housewright.Scalar.Binary64

/-!
# Zeros of either sign

A finite number less itself is zero, and adding a zero changes nothing but perhaps the sign of
another zero.  That sign is lost on sums, quotients and comparisons.

* `IsZero`, `isZero_sub_self`: what is zero, and that a finite number less itself is;
* `Alike`: the same number, up to the sign of zero; `Alike.add`, `Alike.div` and `Alike.lt_iff`
  carry it through a computation, and `Alike.foldl_insert` leaves a zero out of a sum;
* `alike_of_beq`, `alike_sub_comm`: equal numbers are alike, and a difference is the opposite of the
  difference the other way;
* `vectorLength_eq_zero`: a vector with zeros for components has no length.
-/

namespace Housewright.Binary64

open Float.Model Float.Model.UnpackedFloat

/-! ## Zeros -/

/-- A zero of either sign. -/
def IsZero (x : Float) : Prop := ∃ s, parts x = .zero s

theorem unpack_pack_zero (s : Sign) :
    UnpackedFloat.unpack Format.binary64 (UnpackedFloat.pack Format.binary64 (.zero s)) =
      .zero s := by
  cases s <;> rfl

theorem isZero_iff_beq {x : Float} : IsZero x ↔ (x == 0.0) = true := by
  have hzero : (0.0 : Float).isNaN = false := by decide +kernel
  rw [beq_iff, units_zero, isNaN_eq, units]
  constructor
  · rintro ⟨s, hs⟩
    rw [hs]
    exact ⟨rfl, hzero, rfl⟩
  · rintro ⟨hnan, -, hplace⟩
    unfold IsZero
    cases hx : parts x with
    | notANumber =>
      rw [hx] at hnan
      cases hnan
    | zero s => exact ⟨s, rfl⟩
    | infinity s =>
      rw [hx] at hplace
      have hpos := infinityUnits_pos
      cases s <;> simp only [place, Sign.apply] at hplace <;> omega
    | finite s m e hm =>
      rw [hx] at hplace
      have hpos := sizeInUnits_pos hm e
      cases s <;> simp only [place, Sign.apply] at hplace <;> omega

/-- A finite number less itself is zero. -/
theorem isZero_sub_self {x : Float} (hx : x.isFinite = true) : IsZero (x - x) := by
  have hzero : (0.0 : Float).isNaN = false := by decide +kernel
  obtain ⟨hnan, hunits⟩ := units_sub hx hx
  rw [isZero_iff_beq, beq_iff, hunits, sub_self, units_zero]
  exact ⟨hnan, hzero, roundPlace_zero⟩

theorem IsZero.abs {x : Float} (hx : IsZero x) : IsZero x.abs :=
  isZero_iff_beq.2 (abs_beq_zero (isZero_iff_beq.1 hx))

theorem IsZero.isInf {x : Float} (hx : IsZero x) : x.isInf = false := by
  obtain ⟨s, hs⟩ := hx
  have hinf : x.isInf = (parts x).isInf := rfl
  rw [hinf, hs]
  rfl

theorem IsZero.isNaN {x : Float} (hx : IsZero x) : x.isNaN = false := by
  obtain ⟨s, hs⟩ := hx
  rw [isNaN_eq, hs]
  rfl

/-- **A vector without extent has no length.** -/
theorem vectorLength_eq_zero {x y : Float} (hx : IsZero x) (hy : IsZero y) :
    vectorLength x y = 0.0 := by
  have hinf : (x.abs.isInf || y.abs.isInf) = false := by rw [hx.abs.isInf, hy.abs.isInf]; rfl
  have hnan : (x.abs.isNaN || y.abs.isNaN) = false := by rw [hx.abs.isNaN, hy.abs.isNaN]; rfl
  have hTop : ((if x.abs < y.abs then y.abs else x.abs) == 0.0) = true := by
    split_ifs
    · exact isZero_iff_beq.1 hy.abs
    · exact isZero_iff_beq.1 hx.abs
  simp only [vectorLength, hinf, hnan, hTop, if_true, Bool.false_eq_true, if_false]

/-! ## Numbers that differ in the sign of zero -/

/-- The same number, but perhaps zeros of different signs. -/
def Alike (x y : Float) : Prop := parts x = parts y ∨ IsZero x ∧ IsZero y

theorem isZero_iff_of_parts_eq {x y : Float} (h : parts x = parts y) : IsZero x ↔ IsZero y := by
  rw [IsZero, IsZero, h]

namespace Alike

variable {x y z : Float}

theorem symm (h : Alike x y) : Alike y x := h.imp Eq.symm And.symm

theorem trans (hxy : Alike x y) (hyz : Alike y z) : Alike x z := by
  rcases hxy with hxy | ⟨hx, hy⟩
  · rcases hyz with hyz | ⟨hy, hz⟩
    · exact .inl (hxy.trans hyz)
    · exact .inr ⟨(isZero_iff_of_parts_eq hxy).2 hy, hz⟩
  · rcases hyz with hyz | ⟨-, hz⟩
    · exact .inr ⟨hx, (isZero_iff_of_parts_eq hyz).1 hy⟩
    · exact .inr ⟨hx, hz⟩

/-- A sum whose parts are those of one of the summands. -/
theorem of_add_eq (h : UnpackedFloat.add Format.binary64 (parts x) (parts y) = parts z) :
    Alike (x + y) z := by
  left
  rw [parts_add, h, unpack_pack (rounded_parts z), saturated_of_inRange (inRange_parts z)]

/-- A sum that is zero. -/
theorem isZero_of_add_eq {s : Sign}
    (h : UnpackedFloat.add Format.binary64 (parts x) (parts y) = .zero s) : IsZero (x + y) := by
  refine ⟨s, ?_⟩
  rw [parts_add, h, unpack_pack_zero]

/-- **Adding a zero** changes the sign of a zero at most. -/
theorem add_isZero (x : Float) (hz : IsZero z) : Alike (x + z) x := by
  obtain ⟨s, hs⟩ := hz
  cases hx : parts x with
  | zero t =>
    refine .inr ⟨?_, t, hx⟩
    cases s <;> cases t <;> exact isZero_of_add_eq (by rw [hx, hs]; rfl)
  | _ => exact of_add_eq (by rw [hx, hs]; rfl)

/-- Adding to a zero gives the other number, up to the sign of a zero. -/
theorem isZero_add (hz : IsZero z) (x : Float) : Alike (z + x) x := by
  obtain ⟨s, hs⟩ := hz
  cases hx : parts x with
  | zero t =>
    refine .inr ⟨?_, t, hx⟩
    cases s <;> cases t <;> exact isZero_of_add_eq (by rw [hx, hs]; rfl)
  | _ => exact of_add_eq (by rw [hx, hs]; rfl)

theorem add (h : Alike x y) (z : Float) : Alike (x + z) (y + z) := by
  rcases h with h | ⟨hx, hy⟩
  · left
    rw [parts_add, parts_add, h]
  · exact (isZero_add hx z).trans (isZero_add hy z).symm

theorem div (h : Alike x y) (z : Float) : Alike (x / z) (y / z) := by
  have hparts (v : Float) : parts (v / z) = UnpackedFloat.unpack Format.binary64
      (UnpackedFloat.pack Format.binary64
        (UnpackedFloat.div Format.binary64 (parts v) (parts z))) := rfl
  rcases h with h | ⟨⟨s, hs⟩, t, ht⟩
  · left
    rw [hparts, hparts, h]
  · unfold Alike IsZero
    rw [hparts, hparts, hs, ht]
    cases parts z with
    | notANumber => exact .inl rfl
    | zero u => exact .inl rfl
    | infinity u => exact .inr ⟨⟨s / u, unpack_pack_zero _⟩, t / u, unpack_pack_zero _⟩
    | finite u m e hm => exact .inr ⟨⟨s / u, unpack_pack_zero _⟩, t / u, unpack_pack_zero _⟩

/-- Comparisons do not see the sign of zero. -/
theorem lt_iff (h : Alike x y) (p : Float) : p < x ↔ p < y := by
  rcases h with h | ⟨hx, hy⟩
  · rw [lt_def, lt_def, h]
  · refine lt_iff_of_beq ?_
    obtain ⟨hxn, -, hxu⟩ := beq_iff.1 (isZero_iff_beq.1 hx)
    obtain ⟨hyn, -, hyu⟩ := beq_iff.1 (isZero_iff_beq.1 hy)
    exact beq_iff.2 ⟨hxn, hyn, hxu.trans hyu.symm⟩

/-- Sums of the same numbers from starts that are alike. -/
theorem foldl_add {β : Type} (f : β → Float) (xs : List β) (h : Alike x y) :
    Alike (xs.foldl (fun sum b => sum + f b) x) (xs.foldl (fun sum b => sum + f b) y) := by
  induction xs generalizing x y with
  | nil => exact h
  | cons b rest ih => exact ih (h.add (f b))

/-- **A summand that is zero** can be left out of a sum. -/
theorem foldl_insert {β : Type} {f : β → Float} {b : β} (hb : IsZero (f b)) (start : Float)
    (xs ys : List β) :
    Alike ((xs ++ b :: ys).foldl (fun sum b => sum + f b) start)
      ((xs ++ ys).foldl (fun sum b => sum + f b) start) := by
  rw [List.foldl_append, List.foldl_append, List.foldl_cons]
  exact foldl_add f ys (add_isZero _ hb)

/-- The sign of a zero is lost on its square. -/
theorem mul_self (h : Alike x y) : x * x = y * y := by
  have hmul (v : Float) : v * v = Float.ofModel (Float.Model.pack
      (UnpackedFloat.mul Format.binary64 (parts v) (parts v))) := rfl
  rw [hmul x, hmul y]
  rcases h with h | ⟨⟨s, hs⟩, t, ht⟩
  · rw [h]
  · rw [hs, ht]
    cases s <;> cases t <;> rfl

/-- The sign of a zero is lost on its size. -/
theorem abs_eq (h : Alike x y) : x.abs = y.abs := by
  have habs (v : Float) : v.abs = Float.ofModel (Float.Model.pack (parts v).abs) := rfl
  rw [habs x, habs y]
  rcases h with h | ⟨⟨s, hs⟩, t, ht⟩
  · rw [h]
  · rw [hs, ht]
    rfl

theorem isFinite_eq (h : Alike x y) : x.isFinite = y.isFinite := by
  rw [Binary64.isFinite_eq, Binary64.isFinite_eq]
  rcases h with h | ⟨⟨s, hs⟩, t, ht⟩
  · rw [h]
  · rw [hs, ht]
    rfl

end Alike

/-! ## Equal numbers -/

theorem neg_parts_injective {f g : UnpackedFloat} (h : f.neg = g.neg) : f = g := by
  have hneg (f : UnpackedFloat) : f.neg.neg = f := by
    cases f with
    | notANumber => rfl
    | _ s => cases s <;> rfl
  rw [← hneg f, h, hneg]

/-- A place above zero is that of one number. -/
theorem parts_eq_of_units_pos {x y : Float} (hx : x.isFinite = true) (hy : y.isFinite = true)
    (h : units x = units y) (hpos : 0 < units y) : parts x = parts y := by
  obtain ⟨n, hn⟩ := Int.eq_ofNat_of_zero_le hpos.le
  have hn0 : 0 < n := by omega
  exact (hasSize_of_units hx hn0 (h.trans hn)).unique (hasSize_of_units hy hn0 hn)

/-- **Equal numbers** are alike. -/
theorem alike_of_beq {x y : Float} (h : (x == y) = true) : Alike x y := by
  obtain ⟨hx, hy, hunits⟩ := beq_iff.1 h
  by_cases hfinite : x.isFinite = true
  · have hfinite' : y.isFinite = true := (isFinite_iff hy).2 (hunits ▸ (isFinite_iff hx).1 hfinite)
    rcases lt_trichotomy (units y) 0 with hneg | hzero | hpos
    · have hparts := parts_eq_of_units_pos (x := -x) (y := -y) (by rwa [isFinite_neg])
        (by rwa [isFinite_neg]) (by rw [units_neg, units_neg, hunits]) (by rw [units_neg]; omega)
      rw [parts_neg, parts_neg] at hparts
      exact .inl (neg_parts_injective hparts)
    · have hbeq : (y == 0.0) = true :=
        beq_iff.2 ⟨hy, by decide +kernel, hzero.trans units_zero.symm⟩
      exact .inr ⟨isZero_iff_beq.2 (BEq.trans h hbeq), isZero_iff_beq.2 hbeq⟩
    · exact .inl (parts_eq_of_units_pos hfinite hfinite' hunits hpos)
  · have hinfinite : ¬ y.isFinite = true := fun hf =>
      hfinite ((isFinite_iff hx).2 (hunits.symm ▸ (isFinite_iff hy).1 hf))
    obtain ⟨s, hs⟩ := exists_infinity hx hfinite
    obtain ⟨t, ht⟩ := exists_infinity hy hinfinite
    have hpos := infinityUnits_pos
    left
    rw [units, units, hs, ht] at hunits
    rw [hs, ht]
    cases s <;> cases t <;> simp only [place, Sign.apply] at hunits <;> first | rfl | omega

theorem abs_neg_eq (x : Float) : (-x).abs = x.abs := by
  have habs (v : Float) : v.abs = Float.ofModel (Float.Model.pack (parts v).abs) := rfl
  rw [habs, habs, parts_neg]
  cases parts x with
  | notANumber => rfl
  | _ s => cases s <;> rfl

theorem neg_mul_neg_self (x : Float) : -x * -x = x * x := by
  have hmul (v : Float) : v * v = Float.ofModel (Float.Model.pack
      (UnpackedFloat.mul Format.binary64 (parts v) (parts v))) := rfl
  rw [hmul, hmul, parts_neg]
  cases parts x with
  | notANumber => rfl
  | _ s => cases s <;> rfl

/-- **A difference** is the opposite of the difference the other way, up to the sign of zero. -/
theorem alike_sub_comm {x y : Float} (hx : x.isFinite = true) (hy : y.isFinite = true) :
    Alike (x - y) (-(y - x)) := by
  obtain ⟨hxy, hunits⟩ := units_sub hx hy
  obtain ⟨hyx, hunits'⟩ := units_sub hy hx
  refine alike_of_beq (beq_iff.2 ⟨hxy, (isNaN_neg _).trans hyx, ?_⟩)
  rw [units_neg, hunits, hunits', ← roundPlace_neg, neg_sub]

end Housewright.Binary64
