import Housewright.Proofs.Decimal.Shortest
import Housewright.Proofs.Json.Numbers

/-!
# Finite numbers are read back

Every layout of digits is read as the decimal that they stand for (`readsDecimal_place`), and the
digits of a finite number are a decimal that is rounded to it.  So every finite number is read
back from its own text.

## Main results

* `readUnsigned?_parts` : a number is read from its whole part, fraction and exponent.
* `readsDecimal_place` : digits that are laid out are read as their decimal.
* `readsBack_of_isFinite` : every finite number is read back.
-/

namespace Housewright.Json

open Decimal

/-! ## Numbers by their parts -/

/-- The text of a fraction, if there is one. -/
def fractionText : Option (List Char) → List Char
  | none => []
  | some ds => '.' :: ds

/-- The text of an exponent, if there is one. -/
def exponentPartText : Option Int → List Char
  | none => []
  | some k => 'e' :: exponentText k

theorem noDigitAhead_exponentPartText (e : Option Int) : NoDigitAhead (exponentPartText e) := by
  intro c hc
  cases e with
  | none => cases hc
  | some k =>
    obtain rfl := Option.some.inj hc
    rfl

theorem noDigitAhead_fractionText (f : Option (List Char)) (e : Option Int) :
    NoDigitAhead (fractionText f ++ exponentPartText e) := by
  cases f with
  | none => exact noDigitAhead_exponentPartText e
  | some ds =>
    intro c hc
    obtain rfl := Option.some.inj hc
    rfl

theorem readFraction?_text {f : Option (List Char)}
    (hf : ∀ ds, f = some ds → ds ≠ [] ∧ ∀ c ∈ ds, c.isDigit = true) (e : Option Int) :
    readFraction? (fractionText f ++ exponentPartText e) = some (f, exponentPartText e) := by
  cases f with
  | none =>
    cases e with
    | none => rfl
    | some k => rfl
  | some ds =>
    obtain ⟨hne, hdigits⟩ := hf ds rfl
    show readFraction? ('.' :: (ds ++ exponentPartText e)) = _
    rw [readFraction?, spanDigits_append hdigits (noDigitAhead_exponentPartText e)]
    simp [hne]

theorem readExponentPart?_text (e : Option Int) :
    readExponentPart? (exponentPartText e) = some (e, []) := by
  cases e with
  | none => rfl
  | some k =>
    have hspan : spanDigits (padded 2 k.natAbs) = (padded 2 k.natAbs, []) := by
      have hdigits : ∀ c ∈ padded 2 k.natAbs, c.isDigit = true := fun c hc =>
        isDigit_of_mem_padded hc
      have hnone : NoDigitAhead [] := nofun
      simpa using spanDigits_append hdigits hnone
    have hne : (padded 2 k.natAbs).isEmpty = false := by
      rw [List.isEmpty_eq_false_iff, padded]
      exact List.append_ne_nil_of_right_ne_nil _ Nat.toDigits_ne_nil
    have hread : ∀ negative, readDigits? negative (padded 2 k.natAbs) =
        some (if negative then -(k.natAbs : Int) else k.natAbs, []) := fun negative => by
      simp only [readDigits?, hspan, hne, digitsValue_padded]
      rfl
    show (readExponent? (exponentText k)).map _ = _
    rw [exponentText]
    by_cases hk : k < 0
    · rw [if_pos hk, readExponent?, hread true, if_pos rfl, show -(k.natAbs : Int) = k by omega]
      rfl
    · rw [if_neg hk, readExponent?, hread false, if_neg Bool.false_ne_true,
        show (k.natAbs : Int) = k by omega]
      rfl

/-- **A number is read from its parts.** -/
theorem readUnsigned?_parts (negative : Bool) {whole : List Char} {f : Option (List Char)}
    {e : Option Int} (hwhole : whole ≠ []) (hdigits : ∀ c ∈ whole, c.isDigit = true)
    (hzero : whole.head? = some '0' → whole.length ≤ 1)
    (hf : ∀ ds, f = some ds → ds ≠ [] ∧ ∀ c ∈ ds, c.isDigit = true)
    (hsome : f.isSome = true ∨ e.isSome = true) :
    readUnsigned? negative (whole ++ (fractionText f ++ exponentPartText e)) =
      some (.num (ofDecimal negative (digitsValue (whole ++ f.getD []))
        (-((f.getD []).length : Int) + e.getD 0)), []) := by
  refine readUnsigned?_eq_some_iff.2 ⟨whole, _, f, _, e, spanDigits_append hdigits
    (noDigitAhead_fractionText f e), ?_, readFraction?_text hf e, readExponentPart?_text e, ?_⟩
  · rintro (hempty | ⟨hhead, hlong⟩)
    · exact hwhole (List.isEmpty_iff.1 hempty)
    · exact absurd (hzero hhead) (not_le.2 hlong)
  · cases f with
    | some ds => rfl
    | none =>
      cases e with
      | some k => rfl
      | none => simp at hsome

/-! ## Numbers as they are laid out -/

/-- The text is read as a decimal of the given value, with either sign. -/
def ReadsDecimal (cs : List Char) (c : ℕ) (e : Int) : Prop :=
  ∀ negative, ∃ c' e', readUnsigned? negative cs = some (.num (ofDecimal negative c' e'), []) ∧
    Binary64.decimalUnits c' e' = Binary64.decimalUnits c e

section Place

variable {ds : List Char} {k : Int} (hdigits : ∀ c ∈ ds, c.isDigit = true)

include hdigits

/-- A number below one. -/
theorem readsDecimal_small (hne : ds ≠ []) {n : ℕ} (hn : (n : Int) + 1 = -k) :
    ReadsDecimal ('0' :: '.' :: (List.replicate n '0' ++ ds)) (digitsValue ds)
      (k + 1 - ds.length) := by
  intro negative
  have hfraction : ∀ c ∈ List.replicate n '0' ++ ds, c.isDigit = true := fun c hc =>
    (List.mem_append.1 hc).elim isDigit_of_mem_zeros (hdigits c)
  have hread := readUnsigned?_parts negative (f := some (List.replicate n '0' ++ ds))
    (e := none) (List.cons_ne_nil '0' []) (by simp) (fun _ => le_rfl) (by
      rintro _ ⟨⟩
      exact ⟨List.append_ne_nil_of_right_ne_nil _ hne, hfraction⟩) (.inl rfl)
  rw [exponentPartText, List.append_nil] at hread
  refine ⟨_, _, hread, ?_⟩
  have hvalue : digitsValue (['0'] ++ (List.replicate n '0' ++ ds)) = digitsValue ds :=
    (digitsValue_zeros_append 1 _).trans (digitsValue_zeros_append n _)
  rw [Option.getD_some, Option.getD_none, hvalue, List.length_append, List.length_replicate]
  congr 1
  omega

/-- A number whose digits reach past the point. -/
theorem readsDecimal_split (hfirst : ds.head? ≠ some '0') {n : ℕ} (hpos : 0 < n)
    (hn : n < ds.length) (hk : (n : Int) = k + 1) :
    ReadsDecimal (ds.take n ++ '.' :: ds.drop n) (digitsValue ds) (k + 1 - ds.length) := by
  intro negative
  have hwhole : ds.take n ≠ [] := by
    rw [← List.length_pos_iff, List.length_take]
    omega
  have hrest : ds.drop n ≠ [] := by
    rw [← List.length_pos_iff, List.length_drop]
    omega
  have hread := readUnsigned?_parts negative (f := some (ds.drop n)) (e := none) hwhole
    (fun c hc => hdigits c (List.mem_of_mem_take hc))
    (fun h => absurd (by rwa [List.head?_take, if_neg hpos.ne'] at h) hfirst) (by
      rintro _ ⟨⟩
      exact ⟨hrest, fun c hc => hdigits c (List.mem_of_mem_drop hc)⟩) (.inl rfl)
  rw [exponentPartText, List.append_nil] at hread
  refine ⟨_, _, hread, ?_⟩
  rw [Option.getD_some, Option.getD_none, List.take_append_drop, List.length_drop]
  congr 1
  omega

/-- A whole number. -/
theorem readsDecimal_whole (hne : ds ≠ []) (hfirst : ds.head? ≠ some '0') {z : ℕ}
    (hk : (ds.length : Int) + z = k + 1) :
    ReadsDecimal (ds ++ List.replicate z '0' ++ ['.', '0']) (digitsValue ds)
      (k + 1 - ds.length) := by
  intro negative
  have hread := readUnsigned?_parts negative (f := some ['0']) (e := none)
    (List.append_ne_nil_of_left_ne_nil hne (List.replicate z '0'))
    (fun c hc => (List.mem_append.1 hc).elim (hdigits c) isDigit_of_mem_zeros)
    (fun h => absurd (by rwa [List.head?_append_of_ne_nil _ hne] at h) hfirst) (by
      rintro _ ⟨⟩
      exact ⟨List.cons_ne_nil _ _, by simp⟩) (.inl rfl)
  rw [exponentPartText, List.append_nil] at hread
  refine ⟨_, _, hread, ?_⟩
  have hvalue : digitsValue (ds ++ List.replicate z '0' ++ ['0']) =
      digitsValue ds * 10 ^ (z + 1) := by
    rw [List.append_assoc, ← List.replicate_succ', digitsValue_append_zeros]
  rw [Option.getD_some, Option.getD_none, hvalue, Binary64.decimalUnits_mul_ten_pow]
  congr 1
  simp only [List.length_singleton]
  omega

/-- A number with an exponent. -/
theorem readsDecimal_exponent (hne : ds ≠ []) :
    ReadsDecimal (ds.take 1 ++ (if (ds.drop 1).isEmpty then [] else '.' :: ds.drop 1) ++
      'e' :: exponentText k) (digitsValue ds) (k + 1 - ds.length) := by
  intro negative
  obtain ⟨first, rest, rfl⟩ := List.exists_cons_of_ne_nil hne
  have hfirst : ∀ c ∈ [first], c.isDigit = true := fun c hc =>
    hdigits c (by rw [List.mem_singleton.1 hc]; exact List.mem_cons_self)
  cases rest with
  | nil =>
    refine ⟨_, _, readUnsigned?_parts negative (f := none) (e := some k) hne hfirst
      (fun _ => le_rfl) nofun (.inr rfl), ?_⟩
    rw [Option.getD_none, Option.getD_some, List.append_nil]
    congr 1
    simp only [List.length_nil, List.length_singleton]
    omega
  | cons second rest =>
    have hread := readUnsigned?_parts negative (f := some (second :: rest)) (e := some k)
      (List.cons_ne_nil first []) hfirst (fun _ => le_rfl) (by
        rintro _ ⟨⟩
        exact ⟨List.cons_ne_nil _ _, fun c hc => hdigits c (List.mem_cons_of_mem _ hc)⟩) (.inl rfl)
    refine ⟨_, _, hread, ?_⟩
    rw [Option.getD_some, Option.getD_some]
    congr 1
    simp only [List.length_cons]
    omega

/-- **Digits that are laid out are read back**, whatever the layout. -/
theorem readsDecimal_place (l : Layout) (hne : ds ≠ []) (hfirst : ds.head? ≠ some '0') :
    ReadsDecimal (l.place ds k) (digitsValue ds) (k + 1 - ds.length) := by
  rw [Layout.place]
  by_cases hplain : l.positionalFrom ≤ k ∧ k < l.positionalBelow
  · rw [if_pos hplain]
    by_cases hsmall : k < 0
    · rw [if_pos hsmall]
      exact readsDecimal_small hdigits hne (by omega)
    · rw [if_neg hsmall]
      dsimp only
      by_cases hsplit : k.toNat + 1 < ds.length
      · have hrest : (ds.drop (k.toNat + 1)).isEmpty = false := by
          rw [List.isEmpty_eq_false_iff, ← List.length_pos_iff, List.length_drop]
          omega
        rw [hrest, if_neg Bool.false_ne_true, show k.toNat + 1 - ds.length = 0 by omega,
          List.replicate_zero, List.append_nil]
        exact readsDecimal_split hdigits hfirst (Nat.succ_pos _) hsplit (by omega)
      · rw [List.drop_eq_nil_of_le (by omega), List.take_of_length_le (by omega)]
        exact readsDecimal_whole hdigits hne hfirst (by omega)
  · rw [if_neg hplain]
    exact readsDecimal_exponent hdigits hne

end Place

/-! ## Finite numbers -/

/-- A number that is read from its text after the sign is read back. -/
theorem readsBack_of_readUnsigned? {x : Float} {negative : Bool} {c : Char} {tail : List Char}
    (htext : ((Layout.plain .tokens).render x).toList = sign negative ++ c :: tail)
    (hc : c.isDigit = true) (hread : readUnsigned? negative (c :: tail) = some (.num x, [])) :
    ReadsBack x := by
  have hskip : skipBlanks (sign negative ++ c :: tail) = sign negative ++ c :: tail := by
    cases negative
    · exact skipBlanks_cons (not_isBlank_of_numeral (.inl hc))
    · exact skipBlanks_cons rfl
  simp only [ReadsBack, parse?, render, renderAt, htext, hskip, readValue_of_digit _ _ _ _ hc,
    hread]
  rfl

/-- **Every finite number is read back** from its own text. -/
theorem readsBack_of_isFinite {x : Float} (h : x.isFinite = true) : ReadsBack x := by
  obtain ⟨b, hb⟩ := exists_ofFloat?_eq h
  rcases Nat.eq_zero_or_pos b.mantissa with hzero | hpos
  · have htext : ((Layout.plain .tokens).render x).toList = sign b.negative ++ ['0', '.', '0'] := by
      simp only [Layout.render, hb, shortestOf, if_pos hzero, String.toList_ofList]
      rfl
    refine readsBack_of_readUnsigned? htext rfl ?_
    have hvalue : ofDecimal b.negative 0 (-1) = x := by
      refine Binary64.ofDecimal_eq hb ?_
      rw [hzero, Binary64.sizeInUnits, Nat.zero_mul]
      exact Binary64.roundFraction_eq_zero (by simp)
    rw [← hvalue]
    rfl
  · obtain ⟨hcoefficient, hunits⟩ := decimalUnits_shortestOf hb hpos
    obtain ⟨hne, hfirst, z, hlength, hsame⟩ := trimZeros_digits hcoefficient
    set ds := digits (shortestOf b).coefficient with hds
    set k : Int := (ds.length : Int) - 1 + (shortestOf b).exponent with hk
    have hdigits : ∀ c ∈ trimZeros ds, c.isDigit = true := fun c hc =>
      isDigit_of_mem_digits (mem_of_mem_trimZeros hc)
    obtain ⟨c, e, hread, hvalue⟩ :=
      readsDecimal_place (k := k) hdigits (.plain .tokens) hne hfirst b.negative
    -- the zeros that are trimmed go to the exponent
    have hx : ofDecimal b.negative c e = x := by
      refine Binary64.ofDecimal_eq hb ?_
      rw [hvalue, ← hunits, ← hsame, Binary64.decimalUnits_mul_ten_pow]
      congr 1
      omega
    have htext : ((Layout.plain .tokens).render x).toList =
        sign b.negative ++ (Layout.plain .tokens).place (trimZeros ds) k := by
      have hsome : (trimZeros ds).isEmpty = false := List.isEmpty_eq_false_iff.2 hne
      simp only [Layout.render, hb, ← hds, ← hk, hsome, String.toList_ofList]
      rfl
    obtain ⟨first, tail, hplace, hdigit, -⟩ := exists_place_eq (.plain .tokens) k hne hdigits
    rw [hplace] at htext hread
    exact readsBack_of_readUnsigned? htext hdigit (hx ▸ hread)

end Housewright.Json
