import Mathlib

/-!
# The parts of a floating-point number

A number is not-a-number, a signed infinity, a signed zero, or a sign with a mantissa and
an exponent (`parts`).  This file says which parts occur and that packing them loses
nothing:

* `rounded_parts`, `inRange_parts`: a mantissa has at most 53 bits, it has exactly 53
  unless the exponent is the least one, and the exponent is at most 971;
* `unpack_pack`: packing parts that are `Rounded` and reading them back gives the same
  parts, with an infinity for an exponent out of range (`saturated`).
-/

namespace Housewright.Binary64

open Float.Model Float.Model.UnpackedFloat

/-- The parts of a number. -/
def parts (x : Float) : UnpackedFloat := x.toModel.unpack

/-- The mantissa fills the 53 bits that it has, unless the exponent is the least one. -/
def Rounded : UnpackedFloat → Prop
  | .finite _ m e _ => m < 2 ^ 53 ∧ -1074 ≤ e ∧ (2 ^ 52 ≤ m ∨ e = -1074)
  | _ => True

/-- The exponent is not too large. -/
def InRange : UnpackedFloat → Prop
  | .finite _ _ e _ => e ≤ 971
  | _ => True

/-- An infinity in place of a number whose exponent is too large. -/
def saturated : UnpackedFloat → UnpackedFloat
  | .finite s m e h => if e ≤ 971 then .finite s m e h else .infinity s
  | f => f

/-! ## Reading the encoding -/

theorem toNat_one_append (m : BitVec 52) : (1#1 ++ m).toNat = 2 ^ 52 + m.toNat := by
  rw [BitVec.toNat_append, ← Nat.shiftLeft_add_eq_or_of_lt m.isLt]
  rfl

theorem unpackSign_packComponents (s : Sign) (e : BitVec 11) (m : BitVec 52) :
    unpackSign (packComponents Format.binary64 s e m) = s.toBitVec := by
  have h : unpackSign (packComponents Format.binary64 s e m) =
      (s.toBitVec ++ e ++ m).extractLsb' 63 1 := rfl
  rw [h, BitVec.extractLsb'_append_eq_of_le (by decide),
    BitVec.extractLsb'_append_eq_of_le (by decide)]
  exact BitVec.extractLsb'_eq_self

@[simp] theorem ofBitVec_toBitVec (s : Sign) : Sign.ofBitVec s.toBitVec = s := by
  cases s <;> rfl

/-- What the three fields of an encoding are read as. -/
theorem unpack_packComponents (s : Sign) (e : BitVec 11) (m : BitVec 52) :
    UnpackedFloat.unpack Format.binary64 (packComponents Format.binary64 s e m) =
      if e = -1#11 then if m = 0#52 then .infinity s else .notANumber
      else if e = 0#11 then
        if h : m = 0#52 then .zero s
        else .finite s m.toNat (-1074) (by simpa [BitVec.toNat_pos, BitVec.pos_iff_ne_zero] using h)
      else .finite s (1#1 ++ m).toNat (e.toNat - 1075) (by rw [toNat_one_append]; omega) := by
  unfold UnpackedFloat.unpack
  simp only [unpackMantissa_packComponents, unpackExponent_packComponents,
    unpackSign_packComponents, ofBitVec_toBitVec]
  by_cases h : e = 0#11
  · subst h
    rfl
  · simp only [h, if_false]
    rfl

/-- Only parts with a full mantissa and an exponent in range are ever read. -/
theorem rounded_inRange_unpack (b : BitVec 64) :
    Rounded (UnpackedFloat.unpack Format.binary64 b) ∧
      InRange (UnpackedFloat.unpack Format.binary64 b) := by
  unfold UnpackedFloat.unpack
  simp only
  split
  · split <;> exact ⟨trivial, trivial⟩
  · rename_i hTop
    have he : (@unpackExponent Format.binary64 b).toNat < 2047 := by
      have hlt := (@unpackExponent Format.binary64 b).isLt
      have hne : (@unpackExponent Format.binary64 b).toNat ≠ 2047 := fun h =>
        hTop (BitVec.eq_of_toNat_eq (by rw [h]; rfl))
      simp only [Format.binary64] at hlt hne ⊢
      omega
    have hm := (@unpackMantissa Format.binary64 b).isLt
    split
    · rename_i hZero
      split
      · exact ⟨trivial, trivial⟩
      · simp [Rounded, InRange, hZero, Format.exponentBias] at hm ⊢
        omega
    · rename_i hZero
      have hpos : (@unpackExponent Format.binary64 b).toNat ≠ 0 := fun h =>
        hZero (BitVec.eq_of_toNat_eq (by rw [h]; rfl))
      simp only [Rounded, InRange, toNat_one_append]
      simp [Format.exponentBias] at hm ⊢
      omega

theorem rounded_parts (x : Float) : Rounded (parts x) := (rounded_inRange_unpack _).1

theorem inRange_parts (x : Float) : InRange (parts x) := (rounded_inRange_unpack _).2

/-! ## Packing and reading back -/

/-- A full mantissa comes back when its exponent is in range. -/
theorem unpack_pack_normal (s : Sign) {m : ℕ} {e : ℤ} (h : 0 < m) (hlow : 2 ^ 52 ≤ m)
    (hm : m < 2 ^ 53) (he : -1074 ≤ e) (hTop : e ≤ 971) :
    UnpackedFloat.unpack Format.binary64 (UnpackedFloat.pack Format.binary64 (.finite s m e h)) =
      .finite s m e h := by
  have hlog : m.log2 + 1 = Format.binary64.mantissaBits := by
    rw [(Nat.log2_eq_iff h.ne').2 ⟨hlow, hm⟩]
    rfl
  have hb : (e + (1023 : ℕ) + (52 : ℕ)).toNat < 2047 ∧ 0 < (e + (1023 : ℕ) + (52 : ℕ)).toNat := by
    omega
  have hbv : (BitVec.ofNat 11 (e + (1023 : ℕ) + (52 : ℕ)).toNat).toNat = (e + 1075).toNat := by
    rw [BitVec.toNat_ofNat, Nat.mod_eq_of_lt (by omega)]
    omega
  have hmv : (1#1 ++ BitVec.ofNat 52 m).toNat = m := by
    rw [toNat_one_append, BitVec.toNat_ofNat]
    omega
  have hne : ∀ v : BitVec 11, v.toNat = 0 ∨ v.toNat = 2047 →
      BitVec.ofNat 11 (e + (1023 : ℕ) + (52 : ℕ)).toNat ≠ v := by
    rintro v hv hz
    rw [← hz, hbv] at hv
    omega
  simp only [UnpackedFloat.pack, show Format.binary64.exponentBias = 1023 from rfl]
  rw [if_neg (by show ¬ 2 ^ 11 ≤ _; omega), if_pos hlog, unpack_packComponents,
    if_neg (hne _ (.inr rfl)), if_neg (hne _ (.inl rfl))]
  simp only [hmv]
  congr 1
  rw [hbv]
  omega

/-- A smaller mantissa comes back at the least exponent. -/
theorem unpack_pack_subnormal (s : Sign) {m : ℕ} (h : 0 < m) (hm : m < 2 ^ 52) :
    UnpackedFloat.unpack Format.binary64
      (UnpackedFloat.pack Format.binary64 (.finite s m (-1074) h)) = .finite s m (-1074) h := by
  have hlog : ¬ m.log2 + 1 = Format.binary64.mantissaBits := by
    have hlt := (Nat.log2_lt h.ne').2 hm
    show ¬ m.log2 + 1 = 53
    omega
  have hmv : (BitVec.ofNat 52 m).toNat = m := by
    rw [BitVec.toNat_ofNat, Nat.mod_eq_of_lt (by omega)]
  have hne : BitVec.ofNat 52 m ≠ 0#52 := by
    intro hz
    rw [hz] at hmv
    simp at hmv
    omega
  simp only [UnpackedFloat.pack, show Format.binary64.exponentBias = 1023 from rfl]
  rw [if_neg (by decide), if_neg hlog, unpack_packComponents, if_neg (by decide), if_pos rfl,
    dif_neg hne]
  simp only [hmv]

/-- **Packing loses nothing** but numbers whose exponent is too large. -/
theorem unpack_pack {f : UnpackedFloat} (hf : Rounded f) :
    UnpackedFloat.unpack Format.binary64 (UnpackedFloat.pack Format.binary64 f) = saturated f := by
  cases f with
  | notANumber => rfl
  | infinity s => cases s <;> rfl
  | zero s => cases s <;> rfl
  | finite s m e h =>
    obtain ⟨hm, he, hn⟩ := hf
    by_cases hTop : e ≤ 971
    · rw [saturated, if_pos hTop]
      by_cases hlow : 2 ^ 52 ≤ m
      · exact unpack_pack_normal s h hlow hm he hTop
      · obtain rfl : e = -1074 := hn.resolve_left hlow
        exact unpack_pack_subnormal s h (by omega)
    · rw [saturated, if_neg hTop]
      simp only [UnpackedFloat.pack, show Format.binary64.exponentBias = 1023 from rfl]
      rw [if_pos (by show 2 ^ 11 ≤ _; omega)]
      cases s <;> rfl

end Housewright.Binary64
