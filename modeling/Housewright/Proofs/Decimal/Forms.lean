import Housewright.Proofs.Binary64.Decimals
import Housewright.Proofs.Decimal.Text

/-!
# Finite numbers as fractions

The sign, the mantissa and the exponent that `BinaryForm.ofFloat?` reads off the encoding of a
finite number are the parts of that number (`parts_of_ofFloat?`), and say where it is
(`units_of_ofFloat?`).  So the number is read from every decimal that is rounded to the size they
make (`ofDecimal_eq`).
-/

namespace Housewright.Binary64

open Decimal Float.Model Float.Model.UnpackedFloat

/-- A number is known by its parts. -/
theorem eq_of_parts {x y : Float} (h : parts x = parts y) : x = y := by
  obtain ⟨x, hx⟩ := x
  obtain ⟨y, hy⟩ := y
  have hbits : x.toBitVec = y.toBitVec := (unpack_inj_of_valid hx hy).1 h
  obtain rfl := UInt64.toBitVec_inj.1 hbits
  rfl

/-- The sign of a number that is negative or not. -/
def signOf (negative : Bool) : Sign := if negative then .negative else .positive

theorem ofBitVec_unpackSign (b : BitVec 64) :
    Sign.ofBitVec (@unpackSign Format.binary64 b) = signOf (b.toNat / Nat.pow 2 63 == 1) := by
  have hsign : @unpackSign Format.binary64 b = b.extractLsb' 63 1 := rfl
  have hlt : b.toNat / 2 ^ 63 < 2 := by
    have := b.isLt
    omega
  have htoNat : (b.extractLsb' 63 1).toNat = b.toNat / 2 ^ 63 := by
    rw [BitVec.extractLsb'_toNat, Nat.shiftRight_eq_div_pow, Nat.mod_eq_of_lt hlt]
  rw [hsign, Sign.ofBitVec]
  split
  next hzero =>
    rw [hzero] at htoNat
    have hpositive : (b.toNat / Nat.pow 2 63 == 1) = false := by
      rw [beq_eq_false_iff_ne]
      exact fun h => absurd (htoNat.trans h) (by decide)
    rw [hpositive]
    rfl
  next hone =>
    have hnegative : (b.toNat / Nat.pow 2 63 == 1) = true := by
      rw [beq_iff_eq]
      have hne : b.toNat / 2 ^ 63 ≠ 0 := fun h => hone (BitVec.eq_of_toNat_eq (htoNat.trans h))
      show b.toNat / 2 ^ 63 = 1
      omega
    rw [hnegative]
    rfl

theorem toNat_unpackMantissa (b : BitVec 64) :
    (@unpackMantissa Format.binary64 b).toNat = b.toNat % Nat.pow 2 52 := by
  rw [unpackMantissa_def, BitVec.extractLsb'_toNat]
  rfl

/-- The fields of an encoding, as numbers, and the parts that they make. -/
theorem exists_unpack_eq (b : BitVec 64) : ∃ (e : BitVec 11) (m : BitVec 52),
    e.toNat = b.toNat / Nat.pow 2 52 % Nat.pow 2 11 ∧ m.toNat = b.toNat % Nat.pow 2 52 ∧
      UnpackedFloat.unpack Format.binary64 b = UnpackedFloat.unpack Format.binary64
        (packComponents Format.binary64 (signOf (b.toNat / Nat.pow 2 63 == 1)) e m) := by
  refine ⟨_, _, toNat_unpackExponent b, toNat_unpackMantissa b, ?_⟩
  rw [← ofBitVec_unpackSign]
  exact congrArg _ (@packComponents_unpackSign_unpackExponent_unpackMantissa Format.binary64 b).symm

/-- **The parts of a finite number** are its sign, mantissa and exponent as fractions. -/
theorem parts_of_ofFloat? {x : Float} {b : BinaryForm} (h : BinaryForm.ofFloat? x = some b) :
    b.mantissa = 0 ∧ parts x = .zero (signOf b.negative) ∨
      ∃ hm : 0 < b.mantissa, parts x = .finite (signOf b.negative) b.mantissa b.exponent hm := by
  obtain ⟨bits, hparts, htoNat⟩ : ∃ bits, parts x = UnpackedFloat.unpack Format.binary64 bits ∧
      x.toBits.toNat = bits.toNat := ⟨x.toModel.toBits.toBitVec, rfl, rfl⟩
  obtain ⟨e, m, he, hm, hunpack⟩ := exists_unpack_eq bits
  rw [BinaryForm.ofFloat?, htoNat] at h
  rw [hparts, hunpack, unpack_packComponents]
  simp only [← he, ← hm] at h
  have htop : (e.toNat == 2047) = false := by
    by_contra hc
    rw [if_pos (by simpa using hc)] at h
    cases h
  have htop' : e ≠ -1#11 := by
    rintro rfl
    cases htop
  rw [htop, if_neg Bool.false_ne_true] at h
  rw [if_neg htop']
  by_cases hleast : e = 0#11
  · rw [if_pos (by rw [hleast]; rfl)] at h
    obtain rfl := Option.some.inj h
    rw [if_pos hleast]
    by_cases hzero : m = 0#52
    · rw [dif_pos hzero]
      exact .inl ⟨by rw [hzero]; rfl, rfl⟩
    · rw [dif_neg hzero]
      exact .inr ⟨_, rfl⟩
  · have hnormal : (e.toNat == 0) = false := by
      rw [beq_eq_false_iff_ne]
      exact fun hc => hleast (BitVec.eq_of_toNat_eq hc)
    rw [hnormal, if_neg Bool.false_ne_true] at h
    obtain rfl := Option.some.inj h
    rw [if_neg hleast]
    refine .inr ⟨Nat.add_pos_right _ (by decide), ?_⟩
    congr 1
    rw [toNat_one_append, Nat.add_comm]
    rfl

/-- Where a finite number is, by its sign, its mantissa and its exponent. -/
theorem units_of_ofFloat? {x : Float} {b : BinaryForm} (h : BinaryForm.ofFloat? x = some b) :
    units x = (signOf b.negative).apply (sizeInUnits b.mantissa b.exponent) := by
  rcases parts_of_ofFloat? h with ⟨hzero, hx⟩ | ⟨hpos, hx⟩
  · rw [units, hx, hzero, sizeInUnits, Nat.zero_mul]
    cases signOf b.negative <;> rfl
  · rw [units, hx]
    rfl

/-- **A number is read from the decimals that are rounded to its size.** -/
theorem ofDecimal_eq {x : Float} {b : BinaryForm} (hb : BinaryForm.ofFloat? x = some b) {c : ℕ}
    {e : ℤ} (h : decimalUnits c e = sizeInUnits b.mantissa b.exponent) :
    ofDecimal b.negative c e = x := by
  have hsign : ofDecimal b.negative c e =
      if b.negative then -ofDecimal false c e else ofDecimal false c e := by
    cases b.negative <;> rfl
  have hr := rounded_parts x
  have hi := inRange_parts x
  obtain ⟨g, hg, hparts⟩ := parts_ofDecimal c e
  rw [h] at hg
  refine eq_of_parts ?_
  rcases parts_of_ofFloat? hb with ⟨hzero, hx⟩ | ⟨hpos, hx⟩
  · rw [hzero, sizeInUnits, Nat.zero_mul] at hg
    rw [hg.eq_zero] at hparts
    rw [hx, hsign]
    cases b.negative with
    | false => exact hparts
    | true =>
      show parts (-ofDecimal false c e) = _
      rw [parts_neg, hparts]
      rfl
  · rw [hx] at hr hi
    have hsame : g = .finite .positive b.mantissa b.exponent hpos :=
      hg.unique (.finite (h := hpos) hr)
    rw [hsame, saturated_of_inRange (f := .finite .positive _ _ hpos) hi] at hparts
    rw [hx, hsign]
    cases b.negative with
    | false => exact hparts
    | true =>
      show parts (-ofDecimal false c e) = _
      rw [parts_neg, hparts]
      rfl

/-- The mantissa and the exponent of a finite number are those of a number. -/
theorem rounded_of_ofFloat? {x : Float} {b : BinaryForm} (h : BinaryForm.ofFloat? x = some b)
    (hpos : 0 < b.mantissa) : b.mantissa < 2 ^ 53 ∧ -1074 ≤ b.exponent ∧
      (2 ^ 52 ≤ b.mantissa ∨ b.exponent = -1074) := by
  have hr := rounded_parts x
  rcases parts_of_ofFloat? h with ⟨hzero, -⟩ | ⟨hpos, hx⟩
  · omega
  · rwa [hx] at hr

end Housewright.Binary64
