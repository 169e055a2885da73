import Housewright.Proofs.Binary64.Order

/-!
# Sums of floating-point numbers

The sum of two finite numbers is at the rounded sum of their places (`units_add`), and a
difference is a sum with the opposite number (`sub_eq_add_neg`, `units_sub`).  What is needed of them
later:

* `add_of_ne_infinity`: a sum of numbers is a number unless opposite infinities meet;
* `isFinite_of_isFinite_add`: only finite numbers have a finite sum;
* `add_le_add`, `add_le_add_of_lt_infinity`: addition keeps the order, unless opposite infinities
  meet;
* `le_add_of_pos`, `sub_le_of_pos`: adding a positive number does not go down, and taking
  one away does not go up, so that they overflow to one side only.
-/

namespace Housewright.Binary64

open Float.Model Float.Model.UnpackedFloat

/-! ## Rounding a place -/

/-- The place of the number nearest to a whole number of units. -/
def roundPlace (n : ℤ) : ℤ := n.sign * (min (roundUnits n.natAbs) infinityUnits : ℕ)

@[simp] theorem roundPlace_zero : roundPlace 0 = 0 := by simp [roundPlace]

theorem roundPlace_neg (n : ℤ) : roundPlace (-n) = -roundPlace n := by
  simp [roundPlace, Int.sign_neg]

theorem roundPlace_of_nonneg {n : ℤ} (h : 0 ≤ n) :
    roundPlace n = (min (roundUnits n.natAbs) infinityUnits : ℕ) := by
  rcases h.lt_or_eq with hpos | rfl
  · rw [roundPlace, Int.sign_eq_one_of_pos hpos, one_mul]
  · simp [roundUnits, droppedBits, Decimal.roundDiv]

/-- Nothing but zero is rounded to zero. -/
theorem eq_zero_of_roundPlace {n : ℤ} (h : roundPlace n = 0) : n = 0 := by
  by_contra hn
  have hround : 0 < roundUnits n.natAbs := roundUnits_pos (Int.natAbs_pos.2 hn)
  have hmin : 0 < min (roundUnits n.natAbs) infinityUnits := lt_min hround infinityUnits_pos
  rcases mul_eq_zero.1 h with hsign | hsize
  · exact hn (Int.sign_eq_zero_iff_zero.1 hsign)
  · omega

theorem roundPlace_nonneg {n : ℤ} (h : 0 ≤ n) : 0 ≤ roundPlace n := by
  rw [roundPlace_of_nonneg h]
  exact Int.natCast_nonneg _

theorem roundPlace_mono_of_nonneg {a b : ℤ} (ha : 0 ≤ a) (h : a ≤ b) :
    roundPlace a ≤ roundPlace b := by
  rw [roundPlace_of_nonneg ha, roundPlace_of_nonneg (ha.trans h)]
  exact Int.ofNat_le.2 (min_le_min_right _ (roundUnits_mono (by omega)))

/-- Rounding keeps the order of places. -/
theorem roundPlace_mono {a b : ℤ} (h : a ≤ b) : roundPlace a ≤ roundPlace b := by
  rcases le_total 0 a with ha | ha
  · exact roundPlace_mono_of_nonneg ha h
  · rcases le_total 0 b with hb | hb
    · have hneg := roundPlace_nonneg (n := -a) (by omega)
      rw [roundPlace_neg] at hneg
      have hpos := roundPlace_nonneg hb
      omega
    · have hflip := roundPlace_mono_of_nonneg (a := -b) (b := -a) (by omega) (by omega)
      rw [roundPlace_neg, roundPlace_neg] at hflip
      omega

theorem roundPlace_apply (s : Sign) (n : ℕ) :
    roundPlace (s.apply n) = s.apply (min (roundUnits n) infinityUnits : ℕ) := by
  cases s
  · rw [Sign.apply, roundPlace_neg, roundPlace_of_nonneg (Int.natCast_nonneg n)]
    rfl
  · exact roundPlace_of_nonneg (Int.natCast_nonneg n)

/-! ## Parts of sums -/

theorem place_saturated {s : Sign} {m : ℕ} {e : ℤ} {h : 0 < m} (hr : Rounded (.finite s m e h)) :
    place (saturated (.finite s m e h)) = s.apply (min (sizeInUnits m e) infinityUnits : ℕ) := by
  have hiff := sizeInUnits_lt_iff hr
  by_cases hTop : e ≤ 971
  · rw [saturated, if_pos hTop, min_eq_left (hiff.2 hTop).le]
    rfl
  · rw [saturated, if_neg hTop, min_eq_right (not_lt.1 fun hlt => hTop (hiff.1 hlt))]
    rfl

/-- What has a size is a number, at that size or at infinity. -/
theorem HasSize.saturated {s : Sign} {n : ℕ} {f : UnpackedFloat} (h : HasSize s n f) :
    Rounded f ∧ (saturated f).isNaN = false ∧
      place (Binary64.saturated f) = s.apply (min n infinityUnits : ℕ) := by
  cases h with
  | zero =>
    refine ⟨trivial, rfl, ?_⟩
    rw [Nat.zero_min]
    cases s <;> rfl
  | @finite m e hm hr =>
    refine ⟨hr, ?_, place_saturated hr⟩
    by_cases hTop : e ≤ 971
    · rw [Binary64.saturated, if_pos hTop]
      rfl
    · rw [Binary64.saturated, if_neg hTop]
      rfl

theorem saturated_of_inRange {f : UnpackedFloat} (h : InRange f) : saturated f = f := by
  cases f with
  | finite s m e hm => exact if_pos h
  | _ => rfl

/-- What has a full mantissa and is in range is not changed by rounding. -/
theorem roundPlace_place {f : UnpackedFloat} (hr : Rounded f) (hi : InRange f)
    (hf : f.isFinite = true) : roundPlace (place f) = place f := by
  cases f with
  | notANumber => exact roundPlace_zero
  | infinity s => simp [UnpackedFloat.isFinite] at hf
  | zero s => exact roundPlace_zero
  | finite s m e h =>
    have hlt := (sizeInUnits_lt_iff hr).2 hi
    have hfix : roundUnits (sizeInUnits m e) = sizeInUnits m e := roundUnits_mul_two_pow hr.1 _
    show roundPlace (s.apply (sizeInUnits m e)) = _
    rw [roundPlace_apply, hfix, min_eq_left hlt.le]
    rfl

/-- A signed mantissa is brought to the place of its rounded size. -/
theorem normalize_spec (n : ℤ) {e : ℤ} (he : -1074 ≤ e) :
    Rounded (UnpackedFloat.normalize Format.binary64 n e .positive) ∧
      (saturated (UnpackedFloat.normalize Format.binary64 n e .positive)).isNaN = false ∧
      place (saturated (UnpackedFloat.normalize Format.binary64 n e .positive)) =
        roundPlace (n * 2 ^ (e + 1074).toNat) := by
  have key : ∀ (s : Sign) (m : ℕ), 0 < m → s.apply m = n →
      Rounded (UnpackedFloat.round Format.binary64 s m e) ∧
        (saturated (UnpackedFloat.round Format.binary64 s m e)).isNaN = false ∧
        place (saturated (UnpackedFloat.round Format.binary64 s m e)) =
          roundPlace (n * 2 ^ (e + 1074).toNat) := by
    intro s m hm hn
    have hval : n * 2 ^ (e + 1074).toNat = s.apply (sizeInUnits m e) := by
      rw [← hn]
      cases s <;> simp [Sign.apply, sizeInUnits]
    rw [hval, roundPlace_apply]
    exact (round_hasSize s hm he).saturated
  unfold UnpackedFloat.normalize
  rcases lt_trichotomy n 0 with h | rfl | h
  · rw [compare_lt_iff_lt.2 h]
    exact key .negative (-n).toNat (by omega) (by simp only [Sign.apply]; omega)
  · rw [compare_eq_iff_eq.2 rfl]
    exact ⟨trivial, rfl, by simp [saturated, place]⟩
  · rw [compare_gt_iff_gt.2 h]
    exact key .positive n.toNat (by omega) (by simp only [Sign.apply]; omega)

/-- Lowering the exponent keeps the size. -/
theorem apply_decreaseExponent (s : Sign) (m : ℕ) {e t : ℤ} (h : t ≤ e) (ht : -1074 ≤ t) :
    s.apply (decreaseExponent m e t).1 * 2 ^ (t + 1074).toNat = s.apply (sizeInUnits m e) := by
  have hsize : (decreaseExponent m e t).1 * 2 ^ (t + 1074).toNat = sizeInUnits m e := by
    rw [sizeInUnits, decreaseExponent]
    simp only
    rw [Nat.shiftLeft_eq, Nat.mul_assoc, ← Nat.pow_add]
    congr 2
    omega
  rw [← hsize]
  cases s <;> simp [Sign.apply]

/-- **Finite parts are added exactly and then rounded.** -/
theorem add_spec {f g : UnpackedFloat} (hf : f.isFinite = true) (hg : g.isFinite = true)
    (rf : Rounded f) (rg : Rounded g) (cf : InRange f) (cg : InRange g) :
    Rounded (add Format.binary64 f g) ∧
      (saturated (add Format.binary64 f g)).isNaN = false ∧
      place (saturated (add Format.binary64 f g)) = roundPlace (place f + place g) := by
  cases f with
  | notANumber => simp [UnpackedFloat.isFinite] at hf
  | infinity s => simp [UnpackedFloat.isFinite] at hf
  | zero s =>
    cases g with
    | notANumber => simp [UnpackedFloat.isFinite] at hg
    | infinity t => simp [UnpackedFloat.isFinite] at hg
    | zero t =>
      have hzero : ∃ u, UnpackedFloat.add Format.binary64 (.zero s) (.zero t) = .zero u := by
        cases s <;> cases t <;> exact ⟨_, rfl⟩
      obtain ⟨u, hu⟩ := hzero
      rw [hu]
      exact ⟨trivial, rfl, by simp [place, saturated]⟩
    | finite t m e h =>
      refine ⟨rg, ?_, ?_⟩
      · show (saturated (.finite t m e h)).isNaN = false
        rw [saturated_of_inRange cg]
        rfl
      · show place (saturated (.finite t m e h)) = roundPlace (0 + _)
        rw [saturated_of_inRange cg, zero_add, roundPlace_place rg cg rfl]
  | finite s m e h =>
    cases g with
    | notANumber => simp [UnpackedFloat.isFinite] at hg
    | infinity t => simp [UnpackedFloat.isFinite] at hg
    | zero t =>
      refine ⟨rf, ?_, ?_⟩
      · show (saturated (.finite s m e h)).isNaN = false
        rw [saturated_of_inRange cf]
        rfl
      · show place (saturated (.finite s m e h)) = roundPlace (_ + 0)
        rw [saturated_of_inRange cf, add_zero, roundPlace_place rf cf rfl]
    | finite t m' e' h' =>
      have hmin : -1074 ≤ min e e' := le_min rf.2.1 rg.2.1
      have hsum := normalize_spec (s.apply (decreaseExponent m e (min e e')).1 +
        t.apply (decreaseExponent m' e' (min e e')).1) hmin
      rw [add_mul, apply_decreaseExponent s m (min_le_left e e') hmin,
        apply_decreaseExponent t m' (min_le_right e e') hmin] at hsum
      exact hsum

/-! ## Sums -/

theorem parts_add (x y : Float) :
    parts (x + y) = UnpackedFloat.unpack Format.binary64
      (UnpackedFloat.pack Format.binary64
        (UnpackedFloat.add Format.binary64 (parts x) (parts y))) :=
  rfl

/-- **The sum of finite numbers** is a number, at the rounded sum of their places. -/
theorem units_add {x y : Float} (hx : x.isFinite = true) (hy : y.isFinite = true) :
    (x + y).isNaN = false ∧ units (x + y) = roundPlace (units x + units y) := by
  rw [isFinite_eq] at hx hy
  obtain ⟨hr, hn, hp⟩ := add_spec hx hy (rounded_parts x) (rounded_parts y) (inRange_parts x)
    (inRange_parts y)
  rw [isNaN_eq, units, parts_add, unpack_pack hr]
  exact ⟨hn, hp⟩

/-- A number that is not finite is an infinity. -/
theorem exists_infinity {x : Float} (hx : x.isNaN = false) (h : ¬ x.isFinite = true) :
    ∃ s, parts x = .infinity s := by
  rw [isNaN_eq] at hx
  rw [isFinite_eq] at h
  cases hp : parts x with
  | infinity s => exact ⟨s, rfl⟩
  | notANumber => simp [hp, UnpackedFloat.isNaN] at hx
  | zero s => simp [hp, UnpackedFloat.isFinite] at h
  | finite s m e hm => simp [hp, UnpackedFloat.isFinite] at h

/-- An infinity absorbs what is added to it, unless that is the opposite infinity. -/
theorem infinity_add (s : Sign) {g : UnpackedFloat} (hg : g.isNaN = false)
    (h : g ≠ .infinity (-s)) : UnpackedFloat.add Format.binary64 (.infinity s) g = .infinity s := by
  cases g with
  | notANumber => simp [UnpackedFloat.isNaN] at hg
  | infinity t => cases s <;> cases t <;> first | rfl | exact absurd rfl h
  | zero t => rfl
  | finite t m e hm => rfl

/-- An infinity is not changed by what it is added to, unless that is the opposite infinity. -/
theorem add_infinity (s : Sign) {f : UnpackedFloat} (hf : f.isNaN = false)
    (h : f ≠ .infinity (-s)) : UnpackedFloat.add Format.binary64 f (.infinity s) = .infinity s := by
  cases f with
  | notANumber => simp [UnpackedFloat.isNaN] at hf
  | infinity t => cases s <;> cases t <;> first | rfl | exact absurd rfl h
  | zero t => rfl
  | finite t m e hm => rfl

/-- The places of numbers are between those of the infinities. -/
theorem units_le {x : Float} (hx : x.isNaN = false) :
    -(infinityUnits : ℤ) ≤ units x ∧ units x ≤ infinityUnits := by
  by_cases h : x.isFinite = true
  · obtain ⟨hlow, hhigh⟩ := (isFinite_iff hx).1 h
    exact ⟨hlow.le, hhigh.le⟩
  · obtain ⟨s, hs⟩ := exists_infinity hx h
    have hpos := infinityUnits_pos
    rw [units, hs]
    cases s <;> simp only [place, Sign.apply] <;> omega

theorem ne_negative_infinity {x : Float} (h : -(infinityUnits : ℤ) < units x) :
    parts x ≠ .infinity .negative := by
  intro hx
  rw [units, hx] at h
  exact lt_irrefl _ h

theorem ne_positive_infinity {x : Float} (h : units x < infinityUnits) :
    parts x ≠ .infinity .positive := by
  intro hx
  rw [units, hx] at h
  exact lt_irrefl _ h

/-- A sum without the infinity of one sign is a sum of finite numbers or the infinity of the
other sign. -/
theorem add_of_ne_infinity (s : Sign) {x y : Float} (hx : x.isNaN = false) (hy : y.isNaN = false)
    (ix : parts x ≠ .infinity (-s)) (iy : parts y ≠ .infinity (-s)) :
    (x + y).isNaN = false ∧
      (x.isFinite = true ∧ y.isFinite = true ∨ parts (x + y) = .infinity s) := by
  have hsame : ∀ {t : Sign}, UnpackedFloat.infinity t ≠ .infinity (-s) → t = s := by
    intro t ht
    cases s <;> cases t <;> first | rfl | exact absurd rfl ht
  have hinf : UnpackedFloat.add Format.binary64 (parts x) (parts y) = .infinity s →
      (x + y).isNaN = false ∧
        (x.isFinite = true ∧ y.isFinite = true ∨ parts (x + y) = .infinity s) := by
    intro hadd
    have hp : parts (x + y) = .infinity s := by
      rw [parts_add, hadd, unpack_pack (f := .infinity s) trivial]
      rfl
    rw [isNaN_eq, hp]
    exact ⟨rfl, .inr rfl⟩
  by_cases fx : x.isFinite = true
  · by_cases fy : y.isFinite = true
    · exact ⟨(units_add fx fy).1, .inl ⟨fx, fy⟩⟩
    · obtain ⟨t, ht⟩ := exists_infinity hy fy
      obtain rfl := hsame (ht ▸ iy)
      exact hinf (ht ▸ add_infinity t (isNaN_eq x ▸ hx) ix)
  · obtain ⟨t, ht⟩ := exists_infinity hx fx
    obtain rfl := hsame (ht ▸ ix)
    exact hinf (ht ▸ infinity_add t (isNaN_eq y ▸ hy) iy)

/-- A sum with a finite number is a number. -/
theorem isNaN_add_of_isFinite {x y : Float} (hx : x.isFinite = true) (hy : y.isNaN = false) :
    (x + y).isNaN = false := by
  have hnx := isNaN_of_isFinite hx
  obtain ⟨hlow, hhigh⟩ := (isFinite_iff hnx).1 hx
  by_cases iy : parts y = .infinity .negative
  · refine (add_of_ne_infinity .negative hnx hy (ne_positive_infinity hhigh) ?_).1
    rw [iy]
    exact fun h => nomatch h
  · exact (add_of_ne_infinity .positive hnx hy (ne_negative_infinity hlow) iy).1

/-- Parts that are not finite do not have a finite sum. -/
theorem not_isFinite_add {f g : UnpackedFloat} (h : ¬ (f.isFinite = true ∧ g.isFinite = true)) :
    Rounded (UnpackedFloat.add Format.binary64 f g) ∧
      ¬ (saturated (UnpackedFloat.add Format.binary64 f g)).isFinite = true := by
  cases f with
  | notANumber => exact ⟨trivial, by simp [UnpackedFloat.add, saturated, UnpackedFloat.isFinite]⟩
  | infinity s =>
    cases g with
    | infinity t =>
      cases s <;> cases t <;> exact ⟨trivial, Bool.false_ne_true⟩
    | _ => exact ⟨trivial, Bool.false_ne_true⟩
  | zero s =>
    cases g with
    | zero t => exact absurd ⟨rfl, rfl⟩ h
    | finite t m e hm => exact absurd ⟨rfl, rfl⟩ h
    | _ => exact ⟨trivial, Bool.false_ne_true⟩
  | finite s m e hm =>
    cases g with
    | zero t => exact absurd ⟨rfl, rfl⟩ h
    | finite t m' e' hm' => exact absurd ⟨rfl, rfl⟩ h
    | _ => exact ⟨trivial, Bool.false_ne_true⟩

/-- Only finite numbers have a finite sum. -/
theorem isFinite_of_isFinite_add {x y : Float} (h : (x + y).isFinite = true) :
    x.isFinite = true ∧ y.isFinite = true := by
  by_contra hn
  rw [isFinite_eq, isFinite_eq] at hn
  obtain ⟨hr, hs⟩ := not_isFinite_add hn
  rw [isFinite_eq, parts_add, unpack_pack hr] at h
  exact hs h

/-- **Addition keeps the order**, as long as nothing is infinite below. -/
theorem add_le_add {a b c d : Float} (hab : a ≤ b) (hcd : c ≤ d)
    (la : -(infinityUnits : ℤ) < units a) (lc : -(infinityUnits : ℤ) < units c) :
    a + c ≤ b + d := by
  obtain ⟨ha, hb⟩ := isNaN_of_le hab
  obtain ⟨hc, hd⟩ := isNaN_of_le hcd
  rw [le_iff ha hb] at hab
  rw [le_iff hc hd] at hcd
  obtain ⟨hac, -⟩ := add_of_ne_infinity .positive ha hc (ne_negative_infinity la)
    (ne_negative_infinity lc)
  obtain ⟨hbd, fin | inf⟩ := add_of_ne_infinity .positive hb hd
    (ne_negative_infinity (la.trans_le hab)) (ne_negative_infinity (lc.trans_le hcd))
  · have fa : a.isFinite = true :=
      (isFinite_iff ha).2 ⟨la, hab.trans_lt ((isFinite_iff hb).1 fin.1).2⟩
    have fc : c.isFinite = true :=
      (isFinite_iff hc).2 ⟨lc, hcd.trans_lt ((isFinite_iff hd).1 fin.2).2⟩
    rw [le_iff hac hbd, (units_add fa fc).2, (units_add fin.1 fin.2).2]
    exact roundPlace_mono (by omega)
  · rw [le_iff hac hbd, units.eq_1 (b + d), inf]
    exact (units_le hac).2

/-- **Addition keeps the order**, as long as nothing is infinite above. -/
theorem add_le_add_of_lt_infinity {a b c d : Float} (hab : a ≤ b) (hcd : c ≤ d)
    (lb : units b < infinityUnits) (ld : units d < infinityUnits) : a + c ≤ b + d := by
  obtain ⟨ha, hb⟩ := isNaN_of_le hab
  obtain ⟨hc, hd⟩ := isNaN_of_le hcd
  rw [le_iff ha hb] at hab
  rw [le_iff hc hd] at hcd
  obtain ⟨hbd, -⟩ := add_of_ne_infinity .negative hb hd (ne_positive_infinity lb)
    (ne_positive_infinity ld)
  obtain ⟨hac, fin | inf⟩ := add_of_ne_infinity .negative ha hc
    (ne_positive_infinity (hab.trans_lt lb)) (ne_positive_infinity (hcd.trans_lt ld))
  · have fb : b.isFinite = true :=
      (isFinite_iff hb).2 ⟨((isFinite_iff ha).1 fin.1).1.trans_le hab, lb⟩
    have fd : d.isFinite = true :=
      (isFinite_iff hd).2 ⟨((isFinite_iff hc).1 fin.2).1.trans_le hcd, ld⟩
    rw [le_iff hac hbd, (units_add fin.1 fin.2).2, (units_add fb fd).2]
    exact roundPlace_mono (by omega)
  · rw [le_iff hac hbd, units.eq_1 (a + c), inf]
    exact (units_le hbd).1

/-! ## Opposites and differences -/

theorem rounded_neg {f : UnpackedFloat} (h : Rounded f) : Rounded f.neg := by
  cases f <;> exact h

theorem inRange_neg {f : UnpackedFloat} (h : InRange f) : InRange f.neg := by
  cases f <;> exact h

theorem apply_neg (s : Sign) (n : ℤ) : (-s).apply n = -s.apply n := by
  cases s with
  | negative => exact (Int.neg_neg n).symm
  | positive => rfl

theorem place_neg (f : UnpackedFloat) : place f.neg = -place f := by
  cases f with
  | notANumber => rfl
  | infinity s => exact apply_neg s _
  | zero s => rfl
  | finite s m e h => exact apply_neg s _

theorem parts_neg (x : Float) : parts (-x) = (parts x).neg := by
  have hp : parts (-x) = UnpackedFloat.unpack Format.binary64
      (UnpackedFloat.pack Format.binary64 (parts x).neg) := rfl
  rw [hp, unpack_pack (rounded_neg (rounded_parts x)),
    saturated_of_inRange (inRange_neg (inRange_parts x))]

@[simp] theorem units_neg (x : Float) : units (-x) = -units x := by
  rw [units, parts_neg, place_neg, units]

@[simp] theorem isNaN_neg (x : Float) : (-x).isNaN = x.isNaN := by
  rw [isNaN_eq, isNaN_eq, parts_neg]
  cases parts x <;> rfl

@[simp] theorem isFinite_neg (x : Float) : (-x).isFinite = x.isFinite := by
  rw [isFinite_eq, isFinite_eq, parts_neg]
  cases parts x <;> rfl

theorem parts_abs (x : Float) : parts x.abs = (parts x).abs := by
  have hp : parts x.abs = UnpackedFloat.unpack Format.binary64
      (UnpackedFloat.pack Format.binary64 (parts x).abs) := rfl
  have hr : Rounded (parts x).abs := by
    have h := rounded_parts x
    revert h
    cases parts x <;> exact id
  have hi : InRange (parts x).abs := by
    have h := inRange_parts x
    revert h
    cases parts x <;> exact id
  rw [hp, unpack_pack hr, saturated_of_inRange hi]

@[simp] theorem isNaN_abs (x : Float) : x.abs.isNaN = x.isNaN := by
  rw [isNaN_eq, isNaN_eq, parts_abs]
  cases parts x <;> rfl

theorem units_abs (x : Float) : units x.abs = |units x| := by
  rw [units, units, parts_abs]
  cases parts x with
  | notANumber => rfl
  | zero s => rfl
  | infinity s => cases s <;> simp [UnpackedFloat.abs, place, Sign.apply]
  | finite s m e h => cases s <;> simp [UnpackedFloat.abs, place, Sign.apply]

theorem sub_parts (f g : UnpackedFloat) :
    UnpackedFloat.sub Format.binary64 f g = UnpackedFloat.add Format.binary64 f g.neg := by
  cases f <;> cases g <;> try rfl
  rename_i s m e h t m' e' h'
  simp only [UnpackedFloat.sub, UnpackedFloat.neg, UnpackedFloat.add, apply_neg,
    Int.sub_eq_add_neg]

/-- A difference is the sum with the opposite number. -/
theorem sub_eq_add_neg (x y : Float) : x - y = x + -y := by
  have hsub : x - y = .ofModel
      (.pack (UnpackedFloat.sub Format.binary64 (parts x) (parts y))) := rfl
  have hadd : x + -y = .ofModel
      (.pack (UnpackedFloat.add Format.binary64 (parts x) (parts (-y)))) := rfl
  rw [hsub, hadd, parts_neg, sub_parts]

/-- **A finite difference** is at the rounded difference of the places. -/
theorem units_sub {x y : Float} (hx : x.isFinite = true) (hy : y.isFinite = true) :
    (x - y).isNaN = false ∧ units (x - y) = roundPlace (units x - units y) := by
  have hsum := units_add hx ((isFinite_neg y).trans hy)
  rwa [← sub_eq_add_neg, units_neg, ← Int.sub_eq_add_neg] at hsum

/-! ## Moving up and down -/

theorem units_zero : units 0.0 = 0 := by decide +kernel

theorem units_pos {x : Float} (h : 0.0 < x) : 0 < units x := by
  obtain ⟨hz, hx⟩ := isNaN_of_lt h
  rwa [lt_iff hz hx, units_zero] at h

/-- A finite number is where it is rounded to. -/
theorem roundPlace_units {x : Float} (h : x.isFinite = true) : roundPlace (units x) = units x :=
  roundPlace_place (rounded_parts x) (inRange_parts x) (isFinite_eq x ▸ h)

/-- Adding a positive number does not go down. -/
theorem le_add_of_pos {x y : Float} (hx : x.isFinite = true) (hy : y.isFinite = true)
    (h : 0.0 < y) : x ≤ x + y := by
  have hpos := units_pos h
  obtain ⟨hn, hu⟩ := units_add hx hy
  rw [le_iff (isNaN_of_isFinite hx) hn, hu]
  calc units x = roundPlace (units x) := (roundPlace_units hx).symm
    _ ≤ roundPlace (units x + units y) := roundPlace_mono (by omega)

/-- **Taking a positive number away does not go up.** -/
theorem sub_le_of_pos {x y : Float} (hx : x.isFinite = true) (hy : y.isFinite = true)
    (h : 0.0 < y) : x - y ≤ x := by
  have hpos := units_pos h
  obtain ⟨hn, hu⟩ := units_sub hx hy
  rw [le_iff hn (isNaN_of_isFinite hx), hu]
  calc roundPlace (units x - units y) ≤ roundPlace (units x) := roundPlace_mono (by omega)
    _ = units x := roundPlace_units hx

/-- A difference is a number if nothing is taken from the infinity above and the infinity
below is not taken from anything. -/
theorem isNaN_sub {x y : Float} (hx : x.isNaN = false) (hy : y.isNaN = false)
    (ix : units x < infinityUnits) (iy : -(infinityUnits : ℤ) < units y) :
    (x - y).isNaN = false := by
  rw [sub_eq_add_neg]
  refine (add_of_ne_infinity .negative hx ((isNaN_neg y).trans hy) (ne_positive_infinity ix)
    (ne_positive_infinity ?_)).1
  rw [units_neg]
  omega

end Housewright.Binary64
