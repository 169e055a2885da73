import Housewright.Proofs.Binary64.Sums

/-!
# Products and quotients of floating-point numbers

The product or the quotient of two finite numbers has the size of the exact one, rounded, as
long as no bits of it are below the last one that a number can have:

* `mul_hasSize`, `div_hasSize`: products and quotients of finite parts;
* `mul_of_whole`, `div_of_whole`: those of whole numbers;
* `ofNat_hasSize`: whole numbers of 53 bits are numbers;
* `roundPlace_le_units_mul`: a product is as large as its factors say, up to rounding.
-/

namespace Housewright.Binary64

open Decimal Float.Model Float.Model.UnpackedFloat

/-- What is below the last bit that is kept is dropped. -/
theorem le_droppedBits {n k : ℕ} (h : 2 ^ (k + 52) ≤ n) : k ≤ droppedBits n := by
  have hn : n ≠ 0 := by
    have : 0 < 2 ^ (k + 52) := by positivity
    omega
  have := (Nat.le_log2 hn).2 h
  unfold droppedBits
  omega

theorem fractionMantissa_mul_right (num den : ℕ) {c : ℕ} (hc : 0 < c) :
    fractionMantissa (num * c) (den * c) = fractionMantissa num den := by
  have hsticky : (2 * num % den * c != 0) = (2 * num % den != 0) := by
    rw [Bool.eq_iff_iff, bne_iff_ne, bne_iff_ne]
    exact Nat.mul_ne_zero_iff.trans (and_iff_left hc.ne')
  simp only [fractionMantissa, ← Nat.mul_assoc, Nat.mul_div_mul_right _ _ hc,
    Nat.mul_mod_mul_right, hsticky]

/-- Equal fractions are rounded alike. -/
theorem roundFraction_congr {a b c d : ℕ} (hb : 0 < b) (hd : 0 < d) (h : a * d = c * b) :
    roundFraction a b = roundFraction c d := by
  rw [← roundFraction_mul_right a b hd, h, Nat.mul_comm b d, roundFraction_mul_right c d hb]

section Finite

variable (s t : Sign) {m₁ m₂ : ℕ} {e₁ e₂ : ℤ} (h₁ : 0 < m₁) (h₂ : 0 < m₂)

/-- **A product is rounded once.** -/
theorem mul_hasSize (he : -1074 ≤ e₁ + e₂) (hbits : 2 ^ 52 ≤ m₁ * m₂) :
    HasSize (s * t) (roundUnits (sizeInUnits (m₁ * m₂) (e₁ + e₂)))
      (UnpackedFloat.mul Format.binary64 (.finite s m₁ e₁ h₁) (.finite t m₂ e₂ h₂)) := by
  rw [← roundFraction_one]
  refine roundWithAccuracy_eq _ _ Nat.one_pos he ?_ ?_
  · rw [Nat.one_mul, sizeInUnits]
    exact ofMantissa_exact _ (by positivity)
  · rw [Nat.div_one, sizeInUnits]
    refine le_droppedBits ?_
    rw [Nat.add_comm, Nat.pow_add]
    exact Nat.mul_le_mul_right _ hbits

/-- **A quotient is rounded once.** -/
theorem div_hasSize (he : -1074 ≤ e₁ - e₂) :
    HasSize (s / t) (roundFraction (m₁ * 2 ^ (e₁ - e₂ + 1074).toNat) m₂)
      (UnpackedFloat.div Format.binary64 (.finite s m₁ e₁ h₁) (.finite t m₂ e₂ h₂)) := by
  set E := e₁ - e₂ with hE
  set u := min E (Format.binary64.targetExponent (totalExponent m₁ e₁ - totalExponent m₂ e₂))
    with hu
  have htarget : Format.binary64.targetExponent (totalExponent m₁ e₁ - totalExponent m₂ e₂) =
      max ((m₁.log2 : ℤ) - m₂.log2 + E - 53) (-1074) := by
    have hmin : Format.binary64.minExponent = -1074 := rfl
    have hbits : Format.binary64.mantissaBits = 53 := rfl
    simp only [Format.targetExponent, totalExponent, hmin, hbits]
    omega
  set D := (u + 1074).toNat with hD
  -- the mantissa is moved down as far as the quotient needs
  set k := (E - u).toNat with hk
  have hnum : m₁ <<< k * 2 ^ D = m₁ * 2 ^ (E + 1074).toNat := by
    rw [Nat.shiftLeft_eq, Nat.mul_assoc, ← Nat.pow_add]
    congr 2
    omega
  refine roundWithAccuracy_eq (s / t) (accuracyOfFraction (m₁ <<< k % m₂) m₂)
    (m := m₁ <<< k / m₂) (e := u) h₂ (by omega) ?_ ?_
  · rw [ofMantissa_fraction _ h₂, ← hD, ← hnum, fractionMantissa_mul_right _ _ (by positivity)]
  · rcases Nat.eq_zero_or_pos D with hzero | hpos
    · rw [← hD, hzero]
      exact Nat.zero_le _
    refine le_droppedBits ((Nat.le_div_iff_mul_le h₂).2 ?_)
    calc 2 ^ (D + 52) * m₂ ≤ 2 ^ (D + 52) * 2 ^ (m₂.log2 + 1) :=
          Nat.mul_le_mul_left _ Nat.lt_log2_self.le
      _ = 2 ^ (D + 52 + (m₂.log2 + 1)) := (Nat.pow_add _ _ _).symm
      _ ≤ 2 ^ (m₁.log2 + (E + 1074).toNat) := Nat.pow_le_pow_right (by decide) (by omega)
      _ = 2 ^ m₁.log2 * 2 ^ (E + 1074).toNat := Nat.pow_add _ _ _
      _ ≤ m₁ * 2 ^ (E + 1074).toNat := Nat.mul_le_mul_right _ (Nat.log2_self_le h₁.ne')

end Finite

/-! ## Sizes of numbers -/

/-- A number above zero has its place as its size. -/
theorem hasSize_of_units {x : Float} (hx : x.isFinite = true) {n : ℕ} (hn : 0 < n)
    (h : units x = n) : HasSize .positive n (parts x) := by
  have hr := rounded_parts x
  rw [isFinite_eq] at hx
  rw [units] at h
  cases hp : parts x with
  | notANumber => simp [hp, UnpackedFloat.isFinite] at hx
  | infinity s => simp [hp, UnpackedFloat.isFinite] at hx
  | zero s =>
    rw [hp] at h
    simp only [place] at h
    omega
  | finite s m e hm =>
    rw [hp] at h hr
    cases s with
    | negative =>
      simp only [place, Sign.apply] at h
      omega
    | positive =>
      obtain rfl : sizeInUnits m e = n := Int.ofNat.inj h
      exact .finite hr

/-- What is at infinity or beyond is infinite. -/
theorem HasSize.saturated_of_le {s : Sign} {n : ℕ} {f : UnpackedFloat} (h : HasSize s n f)
    (hn : infinityUnits ≤ n) : Binary64.saturated f = .infinity s := by
  cases h with
  | zero => exact absurd infinityUnits_pos (not_lt.2 hn)
  | finite hr => exact if_neg fun he => absurd ((sizeInUnits_lt_iff hr).2 he) (not_lt.2 hn)

theorem HasSize.eq_zero {s : Sign} {f : UnpackedFloat} (h : HasSize s 0 f) : f = .zero s := by
  generalize hn : 0 = n at h
  cases h with
  | zero => rfl
  | @finite m e hm hr => exact absurd hn (sizeInUnits_pos hm e).ne

/-- A size has one mantissa and one exponent. -/
theorem HasSize.unique {s : Sign} {n : ℕ} {f g : UnpackedFloat} (hf : HasSize s n f)
    (hg : HasSize s n g) : f = g := by
  cases hf with
  | zero => exact hg.eq_zero.symm
  | @finite m e hm hr =>
    generalize hn : sizeInUnits m e = n at hg
    cases hg with
    | zero => exact absurd hn (sizeInUnits_pos hm e).ne'
    | @finite m' e' hm' hr' =>
      have hcompare := compare_exponent_then_mantissa hr hr'
      rw [hn, compare_eq_iff_eq.2 rfl, Ordering.then_eq_eq, compare_eq_iff_eq,
        compare_eq_iff_eq] at hcompare
      obtain ⟨rfl, rfl⟩ := hcompare
      rfl

/-! ## Whole numbers -/

/-- A one, in units. -/
@[irreducible] def oneUnits : ℕ := sizeInUnits 1 0

/-- The exponent stays a variable here, so that no such power is ever computed. -/
theorem exists_oneUnits_eq : ∃ k : ℕ, k = 1074 ∧ oneUnits = 2 ^ k := by
  refine ⟨(0 + 1074 : ℤ).toNat, rfl, ?_⟩
  unfold oneUnits sizeInUnits
  rw [Nat.one_mul]

/-- Infinity is a power of two times one. -/
theorem exists_infinityUnits_eq :
    ∃ r k : ℕ, r = 1024 ∧ k = 1074 ∧ oneUnits = 2 ^ k ∧ infinityUnits = 2 ^ (r + k) := by
  obtain ⟨k, hk, hone⟩ := exists_oneUnits_eq
  refine ⟨_, k, rfl, hk, hone, ?_⟩
  unfold infinityUnits
  rw [← Nat.pow_add]
  congr 1
  omega

theorem oneUnits_pos : 0 < oneUnits := by
  obtain ⟨k, -, hone⟩ := exists_oneUnits_eq
  rw [hone]
  positivity

theorem two_pow_mul_oneUnits {a b c : ℤ} (h : a + 1074 = b + c) (ha : 0 ≤ a) (hb : 0 ≤ b)
    (hc : 0 ≤ c) : 2 ^ a.toNat * oneUnits = 2 ^ b.toNat * 2 ^ c.toNat := by
  obtain ⟨k, hk, hone⟩ := exists_oneUnits_eq
  rw [hone, ← Nat.pow_add, ← Nat.pow_add]
  congr 1
  omega

/-- A whole number has a full mantissa and an exponent that fits its size. -/
theorem HasSize.exists_of_whole {s : Sign} {n : ℕ} {f : UnpackedFloat}
    (h : HasSize s (n * oneUnits) f) (hn : 0 < n) :
    ∃ (m : ℕ) (e : ℤ) (hm : 0 < m), f = .finite s m e hm ∧ 2 ^ 52 ≤ m ∧
      sizeInUnits m e = n * oneUnits ∧ -52 ≤ e ∧ ∀ j : ℕ, n < 2 ^ j → e + 53 ≤ j := by
  have hpos := Nat.mul_pos hn oneUnits_pos
  generalize hN : n * oneUnits = N at h hpos
  obtain ⟨k, hk, hone⟩ := exists_oneUnits_eq
  rw [hone] at hN
  cases h with
  | zero => exact absurd hpos (lt_irrefl 0)
  | @finite m e hm hr =>
    have hlow : 2 ^ k < 2 ^ (53 + (e + 1074).toNat) := by
      calc 2 ^ k ≤ n * 2 ^ k := Nat.le_mul_of_pos_left _ hn
        _ < 2 ^ 53 * 2 ^ (e + 1074).toNat :=
            hN ▸ Nat.mul_lt_mul_of_pos_right hr.1 (by positivity)
        _ = 2 ^ (53 + (e + 1074).toNat) := (Nat.pow_add _ _ _).symm
    rw [Nat.pow_lt_pow_iff_right (by decide)] at hlow
    have hfull : 2 ^ 52 ≤ m := hr.2.2.resolve_right (by omega)
    refine ⟨m, e, hm, rfl, hfull, rfl, by omega, fun j hj => ?_⟩
    have hhigh : 2 ^ (52 + (e + 1074).toNat) < 2 ^ (j + k) := by
      calc 2 ^ (52 + (e + 1074).toNat) = 2 ^ 52 * 2 ^ (e + 1074).toNat := Nat.pow_add _ _ _
        _ ≤ n * 2 ^ k := hN ▸ Nat.mul_le_mul_right _ hfull
        _ < 2 ^ j * 2 ^ k := Nat.mul_lt_mul_of_pos_right hj (by positivity)
        _ = 2 ^ (j + k) := (Nat.pow_add _ _ _).symm
    rw [Nat.pow_lt_pow_iff_right (by decide)] at hhigh
    omega

section Whole

variable {s t : Sign} {a b : ℕ} {f g : UnpackedFloat}

/-- The product of whole numbers is the rounded product. -/
theorem mul_of_whole (ha : 0 < a) (hb : 0 < b) (hf : HasSize s (a * oneUnits) f)
    (hg : HasSize t (b * oneUnits) g) :
    HasSize (s * t) (roundUnits (a * b * oneUnits)) (UnpackedFloat.mul Format.binary64 f g) := by
  obtain ⟨m, e, hm, rfl, hfull, hsize, he, -⟩ := hf.exists_of_whole ha
  obtain ⟨m', e', hm', rfl, -, hsize', he', -⟩ := hg.exists_of_whole hb
  have hpow := two_pow_mul_oneUnits (a := e + e' + 1074) (b := e + 1074) (c := e' + 1074)
    (by omega) (by omega) (by omega) (by omega)
  have hunits : sizeInUnits (m * m') (e + e') = a * b * oneUnits := by
    refine Nat.eq_of_mul_eq_mul_right oneUnits_pos ?_
    calc sizeInUnits (m * m') (e + e') * oneUnits
        = sizeInUnits m e * sizeInUnits m' e' := by
          rw [sizeInUnits, Nat.mul_assoc, hpow, Nat.mul_mul_mul_comm, sizeInUnits, sizeInUnits]
      _ = a * b * oneUnits * oneUnits := by rw [hsize, hsize']; ring
  rw [← hunits]
  exact mul_hasSize s t hm hm' (by omega) (hfull.trans (Nat.le_mul_of_pos_right _ hm'))

/-- The quotient of whole numbers is the rounded quotient. -/
theorem div_of_whole (ha : 0 < a) (hb : 0 < b) {j : ℕ} (hlimit : b < 2 ^ j) (hj : j ≤ 1000)
    (hf : HasSize s (a * oneUnits) f) (hg : HasSize t (b * oneUnits) g) :
    HasSize (s / t) (roundFraction (a * oneUnits) b) (UnpackedFloat.div Format.binary64 f g) := by
  obtain ⟨m, e, hm, rfl, -, hsize, he, -⟩ := hf.exists_of_whole ha
  obtain ⟨m', e', hm', rfl, -, hsize', he', hhigh⟩ := hg.exists_of_whole hb
  have hrange := hhigh j hlimit
  have hpow := two_pow_mul_oneUnits (a := e + 1074) (b := e - e' + 1074) (c := e' + 1074)
    (by omega) (by omega) (by omega) (by omega)
  have hcross : m * 2 ^ (e - e' + 1074).toNat * b = a * oneUnits * m' := by
    refine Nat.eq_of_mul_eq_mul_right (Nat.two_pow_pos (e' + 1074).toNat) ?_
    calc m * 2 ^ (e - e' + 1074).toNat * b * 2 ^ (e' + 1074).toNat
        = m * (2 ^ (e - e' + 1074).toNat * 2 ^ (e' + 1074).toNat) * b := by ring
      _ = sizeInUnits m e * (b * oneUnits) := by rw [← hpow, sizeInUnits]; ring
      _ = a * oneUnits * m' * 2 ^ (e' + 1074).toNat := by
        rw [hsize, ← hsize', sizeInUnits]; ring
  rw [← roundFraction_congr hm' hb hcross]
  exact div_hasSize s t hm hm' (by omega)

end Whole

/-- A whole number of 53 bits is a number. -/
theorem ofNat_hasSize {n : ℕ} (hpos : 0 < n) (hn : n < 2 ^ 53) :
    HasSize .positive (n * oneUnits) (parts n.toUInt64.toFloat) := by
  have hsize : HasSize .positive (n * oneUnits) (UnpackedFloat.ofInt Format.binary64 n) := by
    have hunits : roundUnits (sizeInUnits n 0) = n * oneUnits := by
      obtain ⟨k, hk, hone⟩ := exists_oneUnits_eq
      rw [hone, sizeInUnits, roundUnits_mul_two_pow hn]
      congr 2
      omega
    rw [← hunits]
    unfold UnpackedFloat.ofInt UnpackedFloat.normalize
    rw [compare_gt_iff_gt.2 (by exact_mod_cast hpos)]
    exact round_hasSize .positive hpos (by decide)
  obtain ⟨m, e, hm, hparts, -, -, -, hhigh⟩ := hsize.exists_of_whole hpos
  have hrange : InRange (UnpackedFloat.ofInt Format.binary64 n) := by
    rw [hparts]
    have := hhigh 53 hn
    show e ≤ 971
    omega
  have hnat : n.toUInt64.toNat = n := by
    rw [UInt64.toNat_ofNat', Nat.mod_eq_of_lt (by omega)]
  have hpack : parts n.toUInt64.toFloat = UnpackedFloat.unpack Format.binary64
      (UnpackedFloat.pack Format.binary64 (UnpackedFloat.ofInt Format.binary64
        (n.toUInt64.toNat : ℤ))) := rfl
  rw [hpack, hnat, unpack_pack hsize.saturated.1, saturated_of_inRange hrange]
  exact hsize

/-! ## Products of any size -/

theorem parts_mul (x y : Float) : parts (x * y) = UnpackedFloat.unpack Format.binary64
    (UnpackedFloat.pack Format.binary64
      (UnpackedFloat.mul Format.binary64 (parts x) (parts y))) := rfl

theorem abs_apply (s : Sign) (n : ℕ) : |s.apply (n : ℤ)| = n := by
  cases s
  · exact (abs_neg _).trans (Nat.abs_cast n)
  · exact Nat.abs_cast n

/-- A number that is at least one has an exponent that is not far below zero. -/
theorem lt_exponent_of_oneUnits_le {t : Sign} {m : ℕ} {e : ℤ} {hm : 0 < m}
    (hr : Rounded (.finite t m e hm)) (hle : oneUnits ≤ sizeInUnits m e) : -53 < e := by
  obtain ⟨j, hj, hpow⟩ := exists_oneUnits_eq
  have hlt : 2 ^ j < 2 ^ (53 + (e + 1074).toNat) := by
    rw [← hpow, Nat.pow_add]
    exact hle.trans_lt (Nat.mul_lt_mul_of_pos_right hr.1 (by positivity))
  rw [Nat.pow_lt_pow_iff_right (by decide)] at hlt
  omega

/-- A full mantissa makes up for the exponent. -/
theorem sizeInUnits_div_le {m k : ℕ} {e : ℤ} (m' : ℕ) (hfull : 2 ^ 52 ≤ m)
    (he : -1074 ≤ -52 - (k : ℤ) + e) :
    sizeInUnits m' e / 2 ^ k ≤ sizeInUnits (m * m') (-52 - k + e) := by
  refine Nat.div_le_of_le_mul ?_
  have hpow : 2 ^ (e + 1074).toNat = 2 ^ k * (2 ^ 52 * 2 ^ (-52 - k + e + 1074).toNat) := by
    rw [← Nat.pow_add, ← Nat.pow_add]
    congr 1
    omega
  calc sizeInUnits m' e
      = 2 ^ k * (2 ^ 52 * m' * 2 ^ (-52 - k + e + 1074).toNat) := by
        rw [sizeInUnits, hpow]
        ring
    _ ≤ 2 ^ k * (m * m' * 2 ^ (-52 - k + e + 1074).toNat) :=
        Nat.mul_le_mul_left _ (Nat.mul_le_mul_right _ (Nat.mul_le_mul_right _ hfull))

/-- **A product** with a factor of at least `2 ^ -k` is as large as the fraction of the other
factor. -/
theorem roundPlace_le_units_mul {x y : Float} {s : Sign} {m k : ℕ} {hm : 0 < m}
    (hx : parts x = .finite s m (-52 - k) hm) (hfull : 2 ^ 52 ≤ m) (hk : k ≤ 900)
    (hy : y.isFinite = true) (hlarge : oneUnits ≤ |units y|) :
    (x * y).isNaN = false ∧ roundPlace (|units y| / 2 ^ k) ≤ |units (x * y)| := by
  have hr := rounded_parts y
  have hone := oneUnits_pos
  rw [isFinite_eq] at hy
  rw [units] at hlarge ⊢
  cases hp : parts y with
  | notANumber => simp [hp, UnpackedFloat.isFinite] at hy
  | infinity t => simp [hp, UnpackedFloat.isFinite] at hy
  | zero t =>
    rw [hp] at hlarge
    exact absurd (hone.trans_le (Int.ofNat_le.1 hlarge)) (lt_irrefl 0)
  | finite t m' e hm' =>
    rw [hp] at hlarge hr
    have hsize : |place (.finite t m' e hm')| = sizeInUnits m' e := abs_apply t _
    have hle : oneUnits ≤ sizeInUnits m' e := Int.ofNat_le.1 (hsize ▸ hlarge)
    have he := lt_exponent_of_oneUnits_le hr hle
    have hexponent : -1074 ≤ -52 - (k : ℤ) + e := by omega
    have hfraction := sizeInUnits_div_le m' hfull hexponent
    have hmul := mul_hasSize s t hm hm' hexponent (hfull.trans (Nat.le_mul_of_pos_right _ hm'))
    rw [← hx, ← hp] at hmul
    obtain ⟨hrounded, hnan, hplace⟩ := hmul.saturated
    rw [← unpack_pack hrounded, ← parts_mul] at hnan hplace
    refine ⟨hnan, ?_⟩
    rw [units, hplace, abs_apply, hsize, ← Nat.cast_ofNat, ← Nat.cast_pow, ← Int.natCast_ediv,
      roundPlace_of_nonneg (Int.natCast_nonneg _), Int.natAbs_natCast]
    exact Int.ofNat_le.2 (min_le_min_right _ (roundUnits_mono hfraction))

end Housewright.Binary64
