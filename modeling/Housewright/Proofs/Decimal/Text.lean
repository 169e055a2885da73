import Housewright.Decimal.Shortest
import Housewright.Proofs.Decimal.Digits

/-!
# The texts of finite numbers

A finite number is written as a sign, a digit, and then digits, a point and an exponent:
`exists_render_eq`.  Nothing is said here about which digits these are.
-/

namespace Housewright.Decimal

open Float.Model

/-! ## Finite numbers have parts -/

/-- The biased exponent of an encoding. -/
theorem toNat_unpackExponent (b : BitVec 64) :
    (@UnpackedFloat.unpackExponent Format.binary64 b).toNat =
      b.toNat / Nat.pow 2 52 % Nat.pow 2 11 := by
  have h : @UnpackedFloat.unpackExponent Format.binary64 b = b.extractLsb' 52 11 := rfl
  rw [h, BitVec.extractLsb'_toNat, Nat.shiftRight_eq_div_pow]
  rfl

/-- A finite number is a whole number times a power of two. -/
theorem exists_ofFloat?_eq {x : Float} (h : x.isFinite = true) :
    ∃ b, BinaryForm.ofFloat? x = some b := by
  have hfinite :
      (UnpackedFloat.unpack Format.binary64 x.toModel.toBits.toBitVec).isFinite = true := h
  have htop : x.toBits.toNat / Nat.pow 2 52 % Nat.pow 2 11 ≠ 2047 := by
    intro hbits
    have hexp : @UnpackedFloat.unpackExponent Format.binary64 x.toModel.toBits.toBitVec = -1#11 :=
      BitVec.eq_of_toNat_eq ((toNat_unpackExponent _).trans hbits)
    unfold UnpackedFloat.unpack at hfinite
    dsimp only at hfinite
    rw [if_pos hexp] at hfinite
    split at hfinite <;> cases hfinite
  rw [BinaryForm.ofFloat?, if_neg (by simpa using htop)]
  split <;> exact ⟨_, rfl⟩

/-! ## Their characters -/

/-- A character that a number may have after its first digit. -/
def Numeral (c : Char) : Prop := c.isDigit = true ∨ c ∈ ['.', 'e', '+', '-']

theorem isDigit_of_mem_digits {n : ℕ} {c : Char} (h : c ∈ digits n) : c.isDigit = true :=
  Nat.isDigit_of_mem_toDigits (by decide) (by decide) h

theorem isDigit_of_mem_zeros {n : ℕ} {c : Char} (h : c ∈ List.replicate n '0') :
    c.isDigit = true := by
  rw [List.eq_of_mem_replicate h]
  rfl

theorem isDigit_of_mem_padded {width n : ℕ} {c : Char} (h : c ∈ padded width n) :
    c.isDigit = true := by
  rcases List.mem_append.1 h with h | h
  · exact isDigit_of_mem_zeros h
  · exact isDigit_of_mem_digits h

theorem mem_of_mem_trimZeros {ds : List Char} {c : Char} (h : c ∈ trimZeros ds) : c ∈ ds :=
  List.mem_reverse.1 ((List.dropWhile_sublist _).subset (List.mem_reverse.1 h))

theorem numeral_of_mem_exponentText {k : Int} {c : Char} (h : c ∈ exponentText k) :
    Numeral c := by
  rcases List.mem_cons.1 h with rfl | h
  · right
    split <;> simp
  · exact .inl (isDigit_of_mem_padded h)

theorem digitsValue_padded (width n : ℕ) : digitsValue (padded width n) = n := by
  rw [padded, digitsValue_zeros_append]
  exact digitsValue_toDigits n

/-- What is trimmed is zeros. -/
theorem exists_trimZeros_eq (ds : List Char) :
    ∃ z, ds = trimZeros ds ++ List.replicate z '0' := by
  obtain ⟨z, hzeros⟩ : ∃ z, ds.reverse.takeWhile (· == '0') = List.replicate z '0' :=
    ⟨_, List.eq_replicate_iff.2 ⟨rfl, fun c hc => by
      simpa using List.all_eq_true.1 List.all_takeWhile c hc⟩⟩
  have hsplit := List.takeWhile_append_dropWhile (p := (· == '0')) (l := ds.reverse)
  refine ⟨z, ?_⟩
  rw [trimZeros, ← List.reverse_replicate, ← hzeros, ← List.reverse_append, hsplit,
    List.reverse_reverse]

/-- The digits of a number without the zeros at their end still start with its first digit, and
the zeros are a factor of it. -/
theorem trimZeros_digits {n : ℕ} (hn : 0 < n) :
    trimZeros (digits n) ≠ [] ∧ (trimZeros (digits n)).head? ≠ some '0' ∧
      ∃ z, (digits n).length = (trimZeros (digits n)).length + z ∧
        digitsValue (trimZeros (digits n)) * 10 ^ z = n := by
  obtain ⟨z, hz⟩ := exists_trimZeros_eq (digits n)
  have hfirst : (digits n).head? ≠ some '0' := head?_toDigits_ne hn
  have hne : trimZeros (digits n) ≠ [] := fun hnil => by
    rw [hnil, List.nil_append] at hz
    cases z with
    | zero => exact Nat.toDigits_ne_nil hz
    | succ z => exact hfirst (by rw [hz]; rfl)
  refine ⟨hne, ?_, z, ?_, ?_⟩
  · obtain ⟨c, tail, htrim⟩ := List.exists_cons_of_ne_nil hne
    rw [hz, htrim] at hfirst
    rwa [htrim]
  · rw [congrArg List.length hz, List.length_append, List.length_replicate]
  · rw [← digitsValue_append_zeros, ← hz]
    exact digitsValue_toDigits n

/-- Digits that are laid out keep their first digit first, or a zero comes first. -/
theorem exists_place_eq (l : Layout) {ds : List Char} (k : Int) (hne : ds ≠ [])
    (hds : ∀ c ∈ ds, c.isDigit = true) :
    ∃ c tail, l.place ds k = c :: tail ∧ c.isDigit = true ∧ ∀ c ∈ tail, Numeral c := by
  obtain ⟨first, rest, rfl⟩ := List.exists_cons_of_ne_nil hne
  have hfirst := hds first List.mem_cons_self
  have hrest : ∀ c ∈ rest, c.isDigit = true := fun c hc => hds c (List.mem_cons_of_mem _ hc)
  have hpoint : Numeral '.' := .inr (by simp)
  rw [Layout.place]
  split
  · split
    · refine ⟨'0', _, rfl, rfl, fun c hc => ?_⟩
      rcases List.mem_cons.1 hc with rfl | hc
      · exact hpoint
      rcases List.mem_append.1 hc with hc | hc
      · exact .inl (isDigit_of_mem_zeros hc)
      · exact .inl (hds c hc)
    · refine ⟨first, _, rfl, hfirst, fun c hc => ?_⟩
      rcases List.mem_append.1 hc with hc | hc
      · rcases List.mem_append.1 hc with hc | hc
        · exact .inl (hrest c ((List.take_sublist _ _).subset hc))
        · exact .inl (isDigit_of_mem_zeros hc)
      rcases List.mem_cons.1 hc with rfl | hc
      · exact hpoint
      split at hc
      · rw [List.mem_singleton.1 hc]
        exact .inl rfl
      · exact .inl (hds c ((List.drop_sublist _ _).subset hc))
  · refine ⟨first, _, rfl, hfirst, fun c hc => ?_⟩
    rcases List.mem_append.1 hc with hc | hc
    · rcases List.mem_append.1 hc with hc | hc
      · exact absurd hc List.not_mem_nil
      split at hc
      · exact absurd hc List.not_mem_nil
      rcases List.mem_cons.1 hc with rfl | hc
      · exact hpoint
      · exact .inl (hrest c hc)
    rcases List.mem_cons.1 hc with rfl | hc
    · exact .inr (by simp)
    · exact numeral_of_mem_exponentText hc

/-- **The text of a finite number is a sign, a digit, and numerals.** -/
theorem exists_render_eq (l : Layout) {x : Float} (h : x.isFinite = true) :
    ∃ negative c tail, (l.render x).toList = sign negative ++ c :: tail ∧ c.isDigit = true ∧
      ∀ c ∈ tail, Numeral c := by
  obtain ⟨b, hb⟩ := exists_ofFloat?_eq h
  simp only [Layout.render, hb, String.toList_ofList]
  split
  · refine ⟨b.negative, '0', ['.', '0'], rfl, rfl, fun c hc => ?_⟩
    rcases List.mem_cons.1 hc with rfl | hc
    · exact .inr (by simp)
    · rw [List.mem_singleton.1 hc]
      exact .inl rfl
  next hne =>
    have hdigits : ∀ c ∈ trimZeros (digits (shortestOf b).coefficient), c.isDigit = true :=
      fun c hc => isDigit_of_mem_digits (mem_of_mem_trimZeros hc)
    obtain ⟨c, tail, hplace, hc, htail⟩ := exists_place_eq l
      ((digits (shortestOf b).coefficient).length - 1 + (shortestOf b).exponent)
      (fun hnil => hne (by rw [hnil]; rfl)) hdigits
    exact ⟨b.negative, c, tail, congrArg (sign b.negative ++ ·) hplace, hc, htail⟩

end Housewright.Decimal
