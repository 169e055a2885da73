import Mathlib.Data.List.Basic
import Housewright.Json.Reader
import Housewright.Json.Writer

/-!
# Strings are read back

Every character of a string is read back, escaped or not: a character on its own, a
one-letter escape, one unit of sixteen bits, or two of them for a character outside the
Basic Multilingual Plane.  The main result is `readString_quote`.
-/

namespace Housewright.Json

theorem hexDigit?_hexDigit (n : ℕ) : hexDigit? (hexDigit n) = some (n % 16) := by
  have h : ∀ k < 16, hexDigit? (Nat.digitChar k) = some k := by decide
  exact h (n % 16) (Nat.mod_lt n (by decide))

/-- Four digits in base sixteen are read as the unit that they were written for. -/
theorem hexUnit?_hexDigit {u : ℕ} (hu : u < 0x10000) :
    hexUnit? (hexDigit (u / 4096)) (hexDigit (u / 256)) (hexDigit (u / 16)) (hexDigit u) =
      some u := by
  simp only [hexUnit?, hexDigit?_hexDigit, Option.bind_eq_bind, Option.bind_some, Option.pure_def,
    Option.some.injEq]
  omega

/-- The escape of a unit that is no surrogate is read as its character. -/
theorem readString_unitEscape (acc rest : List Char) {u : ℕ} (hu : u < 0x10000)
    (hplain : u < 0xD800 ∨ 0xDFFF < u) :
    readString acc (unitEscape u ++ rest) = readString (Char.ofNat u :: acc) rest := by
  show readString acc ('\\' :: 'u' :: _ :: _ :: _ :: _ :: rest) = _
  rw [readString]
  simp only [hexUnit?_hexDigit hu, if_pos hplain]

/-- The escapes of two surrogates are read as the character that they stand for. -/
theorem readString_surrogates (acc rest : List Char) {v : ℕ} (hv : v < 0x100000) :
    readString acc (unitEscape (0xD800 + v / 0x400) ++ unitEscape (0xDC00 + v % 0x400) ++ rest) =
      readString (Char.ofNat (0x10000 + v) :: acc) rest := by
  have hhigh := @hexUnit?_hexDigit (0xD800 + v / 0x400) (by omega)
  have hlow := @hexUnit?_hexDigit (0xDC00 + v % 0x400) (by omega)
  have hvalue : 0x10000 + (0xD800 + v / 0x400 - 0xD800) * 0x400 +
      (0xDC00 + v % 0x400 - 0xDC00) = 0x10000 + v := by omega
  show readString acc
    ('\\' :: 'u' :: _ :: _ :: _ :: _ :: '\\' :: 'u' :: _ :: _ :: _ :: _ :: rest) = _
  rw [readString]
  simp only [hhigh, hlow]
  rw [if_neg (by omega), if_neg (by omega), if_pos (by omega), hvalue]

theorem readString_shortEscape (acc rest : List Char) {e c : Char} (he : e ≠ 'u')
    (h : shortEscape? e = some c) :
    readString acc ('\\' :: e :: rest) = readString (c :: acc) rest := by
  rw [readString]
  · simp only [h]
  · exact fun _ _ _ _ _ hu => absurd hu he

/-- A character that needs no escape stands for itself. -/
theorem readString_plain (acc rest : List Char) {c : Char} (hquote : c ≠ '"') (hslash : c ≠ '\\')
    (hcontrol : ¬ c.toNat < 0x20) : readString acc (c :: rest) = readString (c :: acc) rest := by
  rw [readString, if_neg hcontrol]
  all_goals simp [hquote, hslash]

/-- **A character inside a string is read back.** -/
theorem readString_escapeChar (asciiOnly : Bool) (c : Char) (acc rest : List Char) :
    readString acc (escapeChar asciiOnly c ++ rest) = readString (c :: acc) rest := by
  have hvalid : c.toNat < 0xD800 ∨ 0xDFFF < c.toNat ∧ c.toNat < 0x110000 := c.valid
  rw [escapeChar]
  -- the seven characters with a one-letter escape come first
  iterate 7
    split
    next h =>
      subst h
      exact readString_shortEscape acc rest (by decide) rfl
  next hquote hslash _ _ _ _ _ =>
    split
    next hcontrol =>
      rw [readString_unitEscape acc rest (by omega) (by omega), Char.ofNat_toNat]
    next hcontrol =>
      split
      · split
        next hplane =>
          rw [readString_unitEscape acc rest hplane (by omega), Char.ofNat_toNat]
        next hplane =>
          rw [readString_surrogates acc rest (by omega),
            show 0x10000 + (c.toNat - 0x10000) = c.toNat by omega, Char.ofNat_toNat]
      · exact readString_plain acc rest hquote hslash hcontrol

/-- **A string is read back, and what follows it is left.** -/
theorem readString_quote (asciiOnly : Bool) (s : String) (rest : List Char) :
    readString [] (s.toList.flatMap (escapeChar asciiOnly) ++ '"' :: rest) = some (s, rest) := by
  suffices h : ∀ cs acc : List Char,
      readString acc (cs.flatMap (escapeChar asciiOnly) ++ '"' :: rest) =
        some (String.ofList (acc.reverse ++ cs), rest) by
    rw [h, List.reverse_nil, List.nil_append, String.ofList_toList]
  intro cs
  induction cs with
  | nil =>
    intro acc
    rw [List.flatMap_nil, List.nil_append, readString_closing, List.append_nil]
  | cons c cs ih =>
    intro acc
    rw [List.flatMap_cons, List.append_assoc, readString_escapeChar, ih, List.reverse_cons,
      List.append_assoc]
    rfl

end Housewright.Json
