import Mathlib.Tactic.SplitIfs
import Housewright.Proofs.Json.Fields
import Housewright.Proofs.Json.Readable

/-!
# What a decoded value was decoded from

Read backwards, each combinator says where its result comes from: a field from a member of
the object or from its default, an entry of a list from an element of the array.  So what
is decoded from a readable value is itself within limits: `integer_natAbs_lt` for whole
numbers and `Readable.of_anyObject` for objects that are passed on.
-/

namespace Housewright.Json

variable {α β : Type}

/-! ## Combinators -/

theorem Decoded.map_eq_value {f : α → β} {x : Decoded α} {b : β} (h : f <$> x = .value b) :
    ∃ a, x = .value a ∧ f a = b := by
  cases x with
  | value a => exact ⟨a, rfl, Decoded.value.inj h⟩
  | refused cs => cases h

theorem Decoded.seq_eq_value {f : Decoded (α → β)} {x : Decoded α} {b : β}
    (h : f <*> x = .value b) : ∃ g a, f = .value g ∧ x = .value a ∧ g a = b := by
  cases f with
  | value g =>
    cases x with
    | value a => exact ⟨g, a, rfl, rfl, Decoded.value.inj h⟩
    | refused cs => cases h
  | refused cs => cases x <;> cases h

theorem Decoded.of_below_eq_value {p : Place} {x : Decoded α} {a : α}
    (h : x.below p = .value a) : x = .value a := by
  cases x with
  | value a => exact h
  | refused cs => cases h

theorem thing_eq_value {d : List (String × Json) → Decoded α} {j : Json} {a : α}
    (h : thing d j = .value a) : ∃ ms, j = .obj ms ∧ d ms = .value a := by
  cases j with
  | obj ms => exact ⟨ms, rfl, h⟩
  | _ => cases h

theorem mem_of_member? {key : String} {ms : List (String × Json)} {v : Json}
    (h : member? key ms = some v) : (key, v) ∈ ms := by
  induction ms with
  | nil => cases h
  | cons m ms ih =>
    rw [member?] at h
    split at h
    next hk =>
      rw [← hk, ← Option.some.inj h]
      exact List.mem_cons_self
    · exact List.mem_cons_of_mem _ (ih h)

theorem mem_of_field? {key : String} {ms : List (String × Json)} {m : String × Json}
    (h : field? key ms = some m) : m ∈ ms := by
  rw [field?] at h
  split at h
  next hv =>
    rw [← Option.some.inj h]
    exact mem_of_member? hv
  · obtain ⟨v, hv, rfl⟩ := Option.map_eq_some_iff.1 h
    exact mem_of_member? hv

section Fields

variable {ms : List (String × Json)} {key : String} {d : Decoder α}

/-- A field comes from a member. -/
theorem required_eq_value {a : α} (h : required ms key d = .value a) :
    ∃ m ∈ ms, d m.2 = .value a := by
  rw [required] at h
  split at h
  next hfield => exact ⟨_, mem_of_field? hfield, Decoded.of_below_eq_value h⟩
  · cases h

/-- A field with a default comes from a member, or it is the default. -/
theorem withDefault_eq_value {a default : α} (h : withDefault ms key default d = .value a) :
    a = default ∨ ∃ m ∈ ms, d m.2 = .value a := by
  rw [withDefault] at h
  split at h
  next hfield => exact .inr ⟨_, mem_of_field? hfield, Decoded.of_below_eq_value h⟩
  · exact .inl (Decoded.value.inj h).symm

/-- An optional field that is set comes from a member. -/
theorem maybe_eq_value {a : α} (h : maybe ms key d = .value (some a)) :
    ∃ m ∈ ms, d m.2 = .value a := by
  obtain h | ⟨m, hm, hd⟩ := withDefault_eq_value h
  · cases h
  · refine ⟨m, hm, ?_⟩
    rw [nullable.eq_def] at hd
    split at hd
    · cases hd
    · obtain ⟨a', ha', h'⟩ := Decoded.map_eq_value hd
      rw [ha', Option.some.inj h']

end Fields

/-- Every entry of a list comes from an element. -/
theorem list_eq_value {d : Decoder α} {j : Json} {as : List α} (h : list d j = .value as) :
    ∃ js, j = .arr js ∧ ∀ a ∈ as, ∃ v ∈ js, d v = .value a := by
  cases j with
  | arr js =>
    refine ⟨js, rfl, ?_⟩
    have hall : ∀ (i : Nat) (as : List α), elementsFrom d i js = .value as →
        ∀ a ∈ as, ∃ v ∈ js, d v = .value a := by
      clear h
      induction js with
      | nil =>
        intro i as h a ha
        rw [← Decoded.value.inj h] at ha
        exact absurd ha List.not_mem_nil
      | cons v js ih =>
        intro i as h a ha
        obtain ⟨g, rest, hg, hrest, rfl⟩ := Decoded.seq_eq_value h
        obtain ⟨first, hfirst, rfl⟩ := Decoded.map_eq_value hg
        rcases List.mem_cons.1 ha with rfl | ha
        · exact ⟨v, List.mem_cons_self, Decoded.of_below_eq_value hfirst⟩
        · obtain ⟨w, hw, hd⟩ := ih (i + 1) rest hrest a ha
          exact ⟨w, List.mem_cons_of_mem _ hw, hd⟩
    exact hall 0 as h
  | _ => cases h

/-! ## Limits -/

/-- Objects that are passed on are as readable as they were. -/
theorem Readable.of_anyObject {d : ℕ} {j : Json} {ms : List (String × Json)} (hj : Readable d j)
    (h : anyObject j = .value ms) : Readable d (.obj ms) := by
  cases j with
  | obj ms' =>
    rw [← Decoded.value.inj h]
    exact hj
  | _ => cases h

theorem natAbs_lt_of_lt_two_pow {n : ℕ} (h : n < 2 ^ 63) : n < 10 ^ digitLimit :=
  calc n < 10 ^ 19 := Nat.lt_of_lt_of_le h (by decide)
    _ ≤ 10 ^ digitLimit := Nat.pow_le_pow_right (by decide) (by decide)

/-- A number that is whole is below the limit. -/
theorem integerOfNumber_natAbs_lt {x : Float} {n : Int} (h : integerOfNumber x = .value n) :
    n.natAbs < 10 ^ digitLimit := by
  rw [integerOfNumber] at h
  split at h
  · cases h
  next b _ =>
    dsimp only at h
    split at h
    · cases h
    · split at h
      next hlt =>
        have hbound : b.ratio.1 / b.ratio.2 < 10 ^ digitLimit :=
          natAbs_lt_of_lt_two_pow (Int.ofNat_lt.1 hlt)
        rw [← Decoded.value.inj h]
        split
        · rw [Int.natAbs_neg]
          exact hbound
        · exact hbound
      · cases h

/-- Underscores between digits are taken out. -/
theorem isDigit_of_withoutUnderscores? {cs ds : List Char}
    (hcs : ∀ c ∈ cs, (c.isDigit || decide (c = '_')) = true)
    (h : withoutUnderscores? cs = some ds) : ∀ c ∈ ds, c.isDigit = true := by
  rw [withoutUnderscores?] at h
  split at h
  · rw [← Option.some.inj h]
    intro c hc
    obtain ⟨hmem, hne⟩ := List.mem_filter.1 hc
    simpa [of_decide_eq_true hne] using hcs c hmem
  · cases h

/-- The digits at the front of a text, with single underscores between them or not. -/
theorem isDigit_of_mem_whole {cs ds : List Char}
    (h : (if (cs.span fun c => c.isDigit || decide (c = '_')).1.contains '_' then
        withoutUnderscores? (cs.span fun c => c.isDigit || decide (c = '_')).1
      else some (cs.span fun c => c.isDigit || decide (c = '_')).1) = some ds) :
    ∀ c ∈ ds, c.isDigit = true := by
  rw [List.span_eq_takeWhile_dropWhile] at h
  have hall : ∀ c ∈ cs.takeWhile fun c => c.isDigit || decide (c = '_'),
      (c.isDigit || decide (c = '_')) = true := List.all_eq_true.1 List.all_takeWhile
  split at h
  · exact isDigit_of_withoutUnderscores? hall h
  next hnone =>
    rw [← Option.some.inj h]
    intro c hc
    rcases Bool.or_eq_true_iff.1 (hall c hc) with hdigit | hunderscore
    · exact hdigit
    · obtain rfl : c = '_' := of_decide_eq_true hunderscore
      exact absurd (List.contains_iff_mem.2 hc) hnone

/-- A text that holds a whole number has few enough digits. -/
theorem integerOfText_natAbs_lt {s : String} {n : Int} (h : integerOfText s = .value n) :
    n.natAbs < 10 ^ digitLimit := by
  rw [integerOfText] at h
  dsimp only at h
  split at h
  · cases h
  next ds hds =>
    split_ifs at h with hbad hlong hnegative
    · cases h
    · cases h
    all_goals
      rw [← Decoded.value.inj h]
      have hbound : Decimal.digitsValue ds < 10 ^ digitLimit :=
        Nat.lt_of_lt_of_le (Decimal.digitsValue_lt (isDigit_of_mem_whole hds))
          (Nat.pow_le_pow_right (by decide) (Nat.le_of_not_lt hlong))
    · rw [Int.natAbs_neg]
      exact hbound
    · exact hbound

/-- **A whole number that was decoded from a readable value is within the limit.** -/
theorem integer_natAbs_lt {d : ℕ} {j : Json} {n : Int} (hj : Readable d j)
    (h : integer j = .value n) : n.natAbs < 10 ^ digitLimit := by
  cases j with
  | int k =>
    rw [← Decoded.value.inj h]
    cases hj with
    | int digits => exact digits
  | num x => exact integerOfNumber_natAbs_lt h
  | bool b =>
    rw [← Decoded.value.inj h]
    exact natAbs_lt_of_lt_two_pow (by cases b <;> decide)
  | str s => exact integerOfText_natAbs_lt h
  | _ => cases h

end Housewright.Json
