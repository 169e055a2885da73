import Housewright.Json.Fields

/-!
# Decoding what was encoded

The decoders of plain values, lists, optional values and fields undo the encoders of the
same things.  Each lemma is about one combinator, so the round trip of a described thing
needs only the round trips of its fields.
-/

namespace Housewright.Json

variable {α β : Type}

/-! ## Outcomes -/

@[simp] theorem Decoded.map_value (f : α → β) (a : α) :
    f <$> (Decoded.value a) = .value (f a) := rfl

@[simp] theorem Decoded.seq_value (f : α → β) (a : α) :
    (Decoded.value f) <*> (Decoded.value a) = .value (f a) := rfl

@[simp] theorem Decoded.below_value (p : Place) (a : α) :
    (Decoded.value a).below p = .value a := rfl

/-! ## Plain values -/

@[simp] theorem string_str (s : String) : string (.str s) = .value s := rfl

@[simp] theorem number_num (x : Float) : number (.num x) = .value x := rfl

@[simp] theorem integer_int (n : Int) : integer (.int n) = .value n := rfl

@[simp] theorem boolean_bool (b : Bool) : boolean (.bool b) = .value b := rfl

@[simp] theorem anyObject_obj (ms : List (String × Json)) : anyObject (.obj ms) = .value ms := rfl

@[simp] theorem thing_obj (d : List (String × Json) → Decoded α) (ms : List (String × Json)) :
    thing d (.obj ms) = d ms := rfl

/-! ## Lists and optional values -/

theorem elementsFrom_map {d : Decoder α} {f : α → Json} (h : ∀ x, d (f x) = .value x) (i : Nat)
    (xs : List α) : elementsFrom d i (xs.map f) = .value xs := by
  induction xs generalizing i with
  | nil => rfl
  | cons x xs ih => simp [elementsFrom, h, ih]

/-- A list comes back if its elements do. -/
theorem list_ofList {d : Decoder α} {f : α → Json} (h : ∀ x, d (f x) = .value x) (xs : List α) :
    list d (ofList f xs) = .value xs := elementsFrom_map h 0 xs

/-- An optional value comes back if its value does and is never encoded as `null`. -/
theorem nullable_ofOption {d : Decoder α} {f : α → Json} (h : ∀ x, d (f x) = .value x)
    (hnull : ∀ x, f x ≠ .null) (o : Option α) : nullable d (ofOption f o) = .value o := by
  cases o with
  | none => rfl
  | some x =>
    rw [ofOption, nullable, h]
    · rfl
    · exact hnull x

/-! ## Fields -/

variable {ms : List (String × Json)} {key : String} {v : Json}

theorem field?_of_member (h : member? key ms = some v) : field? key ms = some (key, v) := by
  rw [field?, h]

/-- A field that is there is decoded. -/
theorem withDefault_eq {d : Decoder α} {a default : α} (hm : member? key ms = some v)
    (hd : d v = .value a) : withDefault ms key default d = .value a := by
  rw [withDefault, field?_of_member hm]
  exact congrArg (Decoded.below (.key key)) hd

theorem maybe_eq {d : Decoder α} {f : α → Json} {o : Option α}
    (hm : member? key ms = some (ofOption f o)) (h : ∀ x, d (f x) = .value x)
    (hnull : ∀ x, f x ≠ .null) : maybe ms key d = .value o :=
  withDefault_eq hm (nullable_ofOption h hnull o)

/-! ## Tagged values -/

/-- A value is decoded by the first variant of its tag. -/
theorem selectVariant_eq {d : Discriminator} {variants : List (Variant α)} {tag : String}
    {variant : Variant α} {a : α} (hfind : variants.find? (·.tag == tag) = some variant)
    (hdecode : variant.decode ms = .value a) :
    selectVariant d variants (.str tag) ms = .value a := by
  simp only [selectVariant, hfind, hdecode, Decoded.below_value]

end Housewright.Json
