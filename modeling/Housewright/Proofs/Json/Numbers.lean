import Housewright.Json.Reader
import Housewright.Json.Writer
import Housewright.Proofs.Decimal.Text

/-!
# Numbers in a longer text

A number is read alike whatever follows it, as long as the text does not go on with a
character that could belong to the number (`Delimited`).  So a number whose own text reads
back (`ReadsBack`) reads back in the middle of a text, and a whole number always does.

## Main results

* `readValue_int` : a whole number within the limit is read back.
* `readValue_num` : so is a finite number whose text by itself is read back.
-/

namespace Housewright.Json

open Decimal (NoDigitAhead spanDigits spanDigits_eq spanDigits_append)

/-- The text does not go on with anything that could belong to a number. -/
def Delimited (cs : List Char) : Prop :=
  ∀ c, cs.head? = some c → c.isDigit = false ∧ c ≠ '.' ∧ c ≠ 'e' ∧ c ≠ 'E'

theorem Delimited.noDigitAhead {cs : List Char} (h : Delimited cs) : NoDigitAhead cs :=
  fun c hc => (h c hc).1

/-- The text of a number by itself is read back as the number. -/
def ReadsBack (x : Float) : Prop := parse? (render .page (.num x)) = some (.num x)

/-- Whether the text of a number is read back can be computed. -/
instance : DecidablePred ReadsBack := fun x =>
  match h : parse? (render .page (.num x)) with
  | some (.num y) =>
    if hxy : y = x then isTrue (by rw [ReadsBack, h, hxy])
    else isFalse fun hx => hxy (Json.num.inj (Option.some.inj (h.symm.trans hx)))
  | some .null | some (.bool _) | some (.int _) | some (.str _) | some (.arr _) | some (.obj _)
  | none => isFalse fun hx => nomatch h.symm.trans hx

/-! ## The parts of a number -/

/-- A number is read as some digits, maybe a fraction, and maybe an exponent. -/
theorem readUnsigned?_eq_some_iff {negative : Bool} {cs rest : List Char} {v : Json} :
    readUnsigned? negative cs = some (v, rest) ↔
      ∃ whole r₁ fraction r₂ exponent, spanDigits cs = (whole, r₁) ∧
        ¬ (whole.isEmpty = true ∨ whole.head? = some '0' ∧ 1 < whole.length) ∧
        readFraction? r₁ = some (fraction, r₂) ∧ readExponentPart? r₂ = some (exponent, rest) ∧
        numberOfParts? negative whole fraction exponent = some v := by
  obtain ⟨whole, r₁, hspan⟩ : ∃ w r, spanDigits cs = (w, r) := ⟨_, _, rfl⟩
  simp only [readUnsigned?, hspan]
  constructor
  · intro h
    split at h
    · cases h
    next hwhole =>
      simp only [Option.bind_eq_bind, Option.bind_eq_some_iff, Option.pure_def, Option.some.injEq,
        Prod.mk.injEq] at h
      obtain ⟨⟨f, r₂⟩, hf, ⟨e, r₃⟩, he, v', hv, rfl, rfl⟩ := h
      exact ⟨whole, r₁, f, r₂, e, rfl, hwhole, hf, he, hv⟩
  · rintro ⟨w, r, f, r₂, e, hw, hwhole, hf, he, hv⟩
    obtain ⟨rfl, rfl⟩ := Prod.mk.inj hw
    rw [if_neg hwhole, hf]
    simp only [Option.bind_eq_bind, Option.bind_some, he, hv]
    rfl

/-! ## What follows a number does not change it -/

section Append

variable {cs rest after : List Char} (hrest : Delimited rest)

include hrest

theorem spanDigits_append_rest {ds : List Char} (h : spanDigits cs = (ds, after)) :
    spanDigits (cs ++ rest) = (ds, after ++ rest) := by
  obtain ⟨rfl, hds, hafter⟩ := spanDigits_eq h
  rw [List.append_assoc]
  refine spanDigits_append hds fun c hc => ?_
  cases after with
  | nil => exact hrest.noDigitAhead c hc
  | cons a after => exact hafter c hc

theorem readFraction?_append {f : Option (List Char)} (h : readFraction? cs = some (f, after)) :
    readFraction? (cs ++ rest) = some (f, after ++ rest) := by
  rw [readFraction?.eq_def] at h
  split at h
  next cs' =>
    obtain ⟨ds, r, hspan⟩ : ∃ ds r, spanDigits cs' = (ds, r) := ⟨_, _, rfl⟩
    simp only [hspan] at h
    rw [List.cons_append, readFraction?]
    simp only [spanDigits_append_rest hrest hspan]
    split at h
    · cases h
    next hne =>
      obtain ⟨rfl, rfl⟩ := Prod.mk.inj (Option.some.inj h)
      rw [if_neg hne]
  next hpoint =>
    obtain ⟨rfl, rfl⟩ := Prod.mk.inj (Option.some.inj h)
    cases cs with
    | nil =>
      rw [List.nil_append, readFraction?.eq_def]
      split
      next c _ => exact absurd rfl (hrest '.' rfl).2.1
      · rfl
    | cons c cs =>
      rw [List.cons_append, readFraction?.eq_def]
      split
      next hc => exact absurd (congrArg (· :: cs) (List.cons.inj hc).1) (hpoint cs)
      · rfl

theorem readDigits?_append {negative : Bool} {n : Int}
    (h : readDigits? negative cs = some (n, after)) :
    readDigits? negative (cs ++ rest) = some (n, after ++ rest) := by
  obtain ⟨ds, r, hspan⟩ : ∃ ds r, spanDigits cs = (ds, r) := ⟨_, _, rfl⟩
  simp only [readDigits?, hspan, spanDigits_append_rest hrest hspan] at h ⊢
  split at h
  · cases h
  next hne =>
    obtain ⟨rfl, rfl⟩ := Prod.mk.inj (Option.some.inj h)
    rw [if_neg hne]

theorem readExponent?_append {n : Int} (h : readExponent? cs = some (n, after)) :
    readExponent? (cs ++ rest) = some (n, after ++ rest) := by
  rw [readExponent?.eq_def] at h
  split at h
  · exact readDigits?_append hrest h
  · exact readDigits?_append hrest h
  next hminus hplus =>
    have hne : cs ≠ [] := by
      rintro rfl
      cases h
    obtain ⟨c, cs, rfl⟩ := List.exists_cons_of_ne_nil hne
    rw [List.cons_append, readExponent?]
    · exact readDigits?_append hrest h
    · exact fun r hr => hminus cs (congrArg (· :: cs) (List.cons.inj hr).1)
    · exact fun r hr => hplus cs (congrArg (· :: cs) (List.cons.inj hr).1)

theorem readExponentPart?_append {e : Option Int} (h : readExponentPart? cs = some (e, after)) :
    readExponentPart? (cs ++ rest) = some (e, after ++ rest) := by
  cases cs with
  | nil =>
    obtain ⟨rfl, rfl⟩ := Prod.mk.inj (Option.some.inj h)
    cases rest with
    | nil => rfl
    | cons c rest =>
      have hc := hrest c rfl
      rw [List.nil_append, readExponentPart?, if_neg (by simp [hc.2.2])]
  | cons c cs =>
    rw [List.cons_append]
    rw [readExponentPart?] at h ⊢
    split at h
    next he =>
      obtain ⟨⟨n, r⟩, hn, hv⟩ := Option.map_eq_some_iff.1 h
      obtain ⟨rfl, rfl⟩ := Prod.mk.inj hv
      rw [if_pos he, readExponent?_append hrest hn]
      rfl
    next he =>
      obtain ⟨rfl, rfl⟩ := Prod.mk.inj (Option.some.inj h)
      rw [if_neg he]
      rfl

/-- **A number is read alike in a longer text that goes on with something else.** -/
theorem readUnsigned?_append {negative : Bool} {v : Json}
    (h : readUnsigned? negative cs = some (v, after)) :
    readUnsigned? negative (cs ++ rest) = some (v, after ++ rest) := by
  obtain ⟨whole, r₁, f, r₂, e, hspan, hwhole, hf, he, hv⟩ := readUnsigned?_eq_some_iff.1 h
  exact readUnsigned?_eq_some_iff.2 ⟨whole, r₁ ++ rest, f, r₂ ++ rest, e,
    spanDigits_append_rest hrest hspan, hwhole, readFraction?_append hrest hf,
    readExponentPart?_append hrest he, hv⟩

end Append

/-! ## What is left of a text -/

theorem readDigits?_suffix {negative : Bool} {cs rest : List Char} {n : Int}
    (h : readDigits? negative cs = some (n, rest)) : rest <:+ cs := by
  obtain ⟨ds, r, hspan⟩ : ∃ ds r, spanDigits cs = (ds, r) := ⟨_, _, rfl⟩
  simp only [readDigits?, hspan] at h
  split at h
  · cases h
  · obtain ⟨-, rfl⟩ := Prod.mk.inj (Option.some.inj h)
    exact ⟨ds, (spanDigits_eq hspan).1.symm⟩

theorem readExponent?_suffix {cs rest : List Char} {n : Int}
    (h : readExponent? cs = some (n, rest)) : rest <:+ cs := by
  rw [readExponent?.eq_def] at h
  split at h
  · exact (readDigits?_suffix h).trans (List.suffix_cons _ _)
  · exact (readDigits?_suffix h).trans (List.suffix_cons _ _)
  · exact readDigits?_suffix h

theorem readFraction?_suffix {cs rest : List Char} {f : Option (List Char)}
    (h : readFraction? cs = some (f, rest)) : rest <:+ cs := by
  rw [readFraction?.eq_def] at h
  split at h
  next cs =>
    obtain ⟨ds, r, hspan⟩ : ∃ ds r, spanDigits cs = (ds, r) := ⟨_, _, rfl⟩
    simp only [hspan] at h
    split at h
    · cases h
    · obtain ⟨-, rfl⟩ := Prod.mk.inj (Option.some.inj h)
      have hr : r <:+ cs := ⟨ds, (spanDigits_eq hspan).1.symm⟩
      exact hr.trans (List.suffix_cons _ _)
  · obtain ⟨-, rfl⟩ := Prod.mk.inj (Option.some.inj h)
    exact List.suffix_rfl

theorem readExponentPart?_suffix {cs rest : List Char} {e : Option Int}
    (h : readExponentPart? cs = some (e, rest)) : rest <:+ cs := by
  rw [readExponentPart?.eq_def] at h
  split at h
  · obtain ⟨-, rfl⟩ := Prod.mk.inj (Option.some.inj h)
    exact List.suffix_rfl
  · split at h
    · obtain ⟨⟨n, r⟩, hn, hv⟩ := Option.map_eq_some_iff.1 h
      obtain ⟨-, rfl⟩ := Prod.mk.inj hv
      exact (readExponent?_suffix hn).trans (List.suffix_cons _ _)
    · obtain ⟨-, rfl⟩ := Prod.mk.inj (Option.some.inj h)
      exact List.suffix_rfl

/-- The reader of numbers leaves the end of the text that it was given. -/
theorem readUnsigned?_suffix {negative : Bool} {cs rest : List Char} {v : Json}
    (h : readUnsigned? negative cs = some (v, rest)) : rest <:+ cs := by
  obtain ⟨whole, r₁, f, r₂, e, hspan, -, hf, he, -⟩ := readUnsigned?_eq_some_iff.1 h
  have hr₁ : r₁ <:+ cs := ⟨whole, (spanDigits_eq hspan).1.symm⟩
  exact ((readExponentPart?_suffix he).trans (readFraction?_suffix hf)).trans hr₁

/-! ## Numbers as values -/

/-- A digit, with a minus sign before it or not, starts a number. -/
theorem readValue_of_digit (d n : ℕ) (negative : Bool) {c : Char} (cs : List Char)
    (hc : c.isDigit = true) :
    readValue d (n + 1) (Decimal.sign negative ++ c :: cs) = readUnsigned? negative (c :: cs) := by
  have hne : ∀ a : Char, a.isDigit = false → ∀ r, c :: cs = a :: r → False := by
    rintro a ha r h
    obtain ⟨rfl, -⟩ := List.cons.inj h
    exact absurd hc (by rw [ha]; decide)
  cases negative with
  | true =>
    have hword : afterWord? "Infinity".toList (c :: cs) = none := by
      rw [show "Infinity".toList = 'I' :: "nfinity".toList from rfl, afterWord?, if_neg]
      rintro rfl
      cases hc
    show readNumber? ('-' :: c :: cs) = _
    rw [readNumber?, hword]
  | false =>
    show readValue d (n + 1) (c :: cs) = _
    rw [readValue, readNumber?]
    all_goals first | exact List.cons_ne_nil c cs | exact hne _ (by decide)

/-- A text that starts with something else has no blanks at its front. -/
theorem skipBlanks_cons {c : Char} {cs : List Char} (h : isBlank c = false) :
    skipBlanks (c :: cs) = c :: cs := by
  rw [skipBlanks, List.dropWhile_cons_of_neg (by rw [h]; decide)]

theorem ne_of_isDigit {c a : Char} (hc : c.isDigit = true) (ha : a.isDigit = false) : c ≠ a := by
  rintro rfl
  rw [ha] at hc
  cases hc

theorem not_isBlank_of_numeral {c : Char} (h : Decimal.Numeral c) : isBlank c = false := by
  rcases h with hc | hc
  · simp [isBlank, ne_of_isDigit hc]
  · simp only [List.mem_cons, List.not_mem_nil, or_false] at hc
    rcases hc with rfl | rfl | rfl | rfl <;> rfl

/-- A number that is read back is read from a sign and numerals with nothing left. -/
theorem ReadsBack.readUnsigned? {x : Float} {negative : Bool} {c : Char} {tail : List Char}
    (hback : ReadsBack x)
    (htext : ((Decimal.Layout.plain .tokens).render x).toList = Decimal.sign negative ++ c :: tail)
    (hc : c.isDigit = true) (htail : ∀ a ∈ tail, Decimal.Numeral a) :
    Json.readUnsigned? negative (c :: tail) = some (.num x, []) := by
  have hnumeral : ∀ a ∈ c :: tail, isBlank a = false := fun a ha => by
    rcases List.mem_cons.1 ha with rfl | ha
    · exact not_isBlank_of_numeral (.inl hc)
    · exact not_isBlank_of_numeral (htail a ha)
  have hskip : skipBlanks (Decimal.sign negative ++ c :: tail) =
      Decimal.sign negative ++ c :: tail := by
    cases negative
    · exact skipBlanks_cons (hnumeral c List.mem_cons_self)
    · exact skipBlanks_cons rfl
  have hparse : parse? (render .page (.num x)) = some (.num x) := hback
  simp only [parse?, render, renderAt, htext, hskip, readValue_of_digit _ _ _ _ hc] at hparse
  split at hparse
  next v after hv =>
    split at hparse
    next hblank =>
      have hnil : after = [] := by
        cases after with
        | nil => rfl
        | cons a after =>
          have ha := hnumeral a ((readUnsigned?_suffix hv).subset List.mem_cons_self)
          rw [skipBlanks_cons ha] at hblank
          cases hblank
      rw [hv, Option.some.inj hparse, hnil]
    · cases hparse
  · cases hparse

/-- A finite number whose own text is read back is read back in a longer text. -/
theorem readValue_num {d n : ℕ} {x : Float} {rest : List Char} (hx : x.isFinite = true)
    (hback : ReadsBack x) (hrest : Delimited rest) :
    readValue d (n + 1) (((Decimal.Layout.plain .tokens).render x).toList ++ rest) =
      some (.num x, rest) := by
  obtain ⟨negative, c, tail, htext, hc, htail⟩ :=
    Decimal.exists_render_eq (Decimal.Layout.plain .tokens) hx
  rw [htext, List.append_assoc, List.cons_append, readValue_of_digit d n negative _ hc]
  exact readUnsigned?_append hrest (hback.readUnsigned? htext hc htail)

/-- The digits of a whole number within the limit are read back. -/
theorem readUnsigned?_toDigits {negative : Bool} {m : ℕ} {rest : List Char}
    (hm : m < 10 ^ digitLimit) (hrest : Delimited rest) :
    readUnsigned? negative (Nat.toDigits 10 m ++ rest) =
      some (.int (if negative then -(m : Int) else m), rest) := by
  have hspan : spanDigits (Nat.toDigits 10 m ++ rest) = (Nat.toDigits 10 m, rest) :=
    spanDigits_append (fun c hc => Nat.isDigit_of_mem_toDigits (by decide) (by decide) hc)
      hrest.noDigitAhead
  have hlen : ¬ digitLimit < (Nat.toDigits 10 m).length :=
    Nat.not_lt.2 ((Nat.length_toDigits_le_iff (by decide) (by decide)).2 hm)
  have hzero : ¬ ((Nat.toDigits 10 m).isEmpty = true ∨
      (Nat.toDigits 10 m).head? = some '0' ∧ 1 < (Nat.toDigits 10 m).length) := by
    rintro (hnil | ⟨hhead, hlong⟩)
    · exact Nat.toDigits_ne_nil (List.isEmpty_iff.1 hnil)
    · rcases Nat.eq_zero_or_pos m with rfl | hpos
      · exact absurd hlong (by decide)
      · exact Decimal.head?_toDigits_ne hpos hhead
  have hfraction : readFraction? rest = some (none, rest) :=
    @readFraction?_append [] rest [] hrest none rfl
  have hexponent : readExponentPart? rest = some (none, rest) :=
    @readExponentPart?_append [] rest [] hrest none rfl
  refine readUnsigned?_eq_some_iff.2 ⟨_, _, _, _, _, hspan, hzero, hfraction, hexponent, ?_⟩
  simp only [numberOfParts?, if_neg hlen, Decimal.digitsValue_toDigits]

/-- A whole number is written as a sign and digits. -/
theorem toList_toString (k : Int) :
    (toString k).toList = Decimal.sign (decide (k < 0)) ++ Nat.toDigits 10 k.natAbs := by
  cases k with
  | ofNat m =>
    rw [@decide_eq_false (Int.ofNat m < 0) _ (Int.not_lt.2 (Int.natCast_nonneg m))]
    exact Nat.toList_repr
  | negSucc m =>
    rw [show toString (Int.negSucc m) = "-" ++ (m + 1).repr from rfl, String.toList_append,
      Nat.toList_repr, decide_eq_true (Int.negSucc_lt_zero m)]
    rfl

/-- **A whole number within the limit is read back.** -/
theorem readValue_int {d n : ℕ} {k : Int} {rest : List Char} (hk : k.natAbs < 10 ^ digitLimit)
    (hrest : Delimited rest) :
    readValue d (n + 1) ((toString k).toList ++ rest) = some (.int k, rest) := by
  have hvalue : (if decide (k < 0) then -(k.natAbs : Int) else k.natAbs) = k := by
    by_cases h : k < 0
    · rw [decide_eq_true h, if_pos rfl]
      omega
    · rw [decide_eq_false h, if_neg Bool.false_ne_true]
      omega
  obtain ⟨c, ds, hds⟩ := List.exists_cons_of_ne_nil (@Nat.toDigits_ne_nil k.natAbs 10)
  have hc : c.isDigit = true :=
    Nat.isDigit_of_mem_toDigits (by decide) (by decide) (hds ▸ List.mem_cons_self)
  rw [toList_toString, List.append_assoc, hds, List.cons_append, readValue_of_digit d n _ _ hc,
    ← List.cons_append, ← hds, readUnsigned?_toDigits hk hrest, hvalue]

end Housewright.Json
