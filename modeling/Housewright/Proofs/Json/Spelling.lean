import Mathlib.Data.List.Forall2
import Housewright.Proofs.Json.Fields

/-!
# Documents that are spelled differently

A field is found under its name in camel case or in snake case, members that name no field are
ignored, and a tag that has a default may be left out.  So one description can be spelled in
many ways.

`Schema` says of a value which objects in it are described things, and what their fields are.
`Respells s j j' f` is one change in the spelling of a value of schema `s`, at any depth.  A place
in a complaint names a key as it is spelled, and `f` is what the change does to places.  A decoder
that makes no difference but for these places *follows* the schema (`Follows`).

## Main results

* `field?_respelled` : what one change means for one field.
* `required_follows`, `withDefault_follows`, `list_follows`, `tagged_follows` : decoders follow
  their schemas if the decoders of their parts do.
-/

namespace Housewright.Json

/-! ## Schemas -/

/-- Which objects in a value are described things, and what their fields are. -/
inductive Schema where
  /-- It is passed on, or shown, as it is. -/
  | asIs
  /-- It has no parts. -/
  | plain
  | list (entry : Schema)
  | thing (fields : List (String × Schema))
  /-- A thing whose fields depend on its tag, which may have a default. -/
  | tagged (default? : Option String) (variants : List (String × List (String × Schema)))

/-- The two spellings of a field. -/
def Spells (field key : String) : Prop := key = field ∨ key = snakeCase field

instance (field key : String) : Decidable (Spells field key) :=
  inferInstanceAs (Decidable (_ ∨ _))

/-- No two fields have a spelling in common. -/
def SpelledApart (fields : List (String × Schema)) : Prop :=
  (fields.map (·.1)).Pairwise fun a b => ∀ key ∈ [a, snakeCase a], ¬ Spells b key

instance (fields : List (String × Schema)) : Decidable (SpelledApart fields) :=
  inferInstanceAs (Decidable (List.Pairwise _ _))

/-- The tag of an object, if it is a string, or is left out and has a default. -/
def tagOf? (default? : Option String) (ms : List (String × Json)) : Option String :=
  match member? "type" ms with
  | some (.str tag) => some tag
  | some _ => none
  | none => default?

/-- Objects are refused whatever is in them. -/
def Schema.refusesObjects : Schema → Prop
  | .plain | .list _ => True
  | .asIs | .thing _ | .tagged _ _ => False

/-- Arrays are refused whatever is in them. -/
def Schema.refusesArrays : Schema → Prop
  | .plain | .thing _ | .tagged _ _ => True
  | .asIs | .list _ => False

/-! ## Changes of spelling -/

/-- A change of places below a part of a value. -/
def under (p : Place) (f : List Place → List Place) : List Place → List Place
  | [] => []
  | q :: rest => if q = p then p :: f rest else q :: rest

/-- A change of the key at the front of places. -/
def renamed (key key' : String) : List Place → List Place
  | [] => []
  | q :: rest => if q = .key key then .key key' :: rest else q :: rest

/-- One change in the spelling of a value, and what it does to places. -/
inductive Respells : Schema → Json → Json → (List Place → List Place) → Prop
  /-- A field is spelled in the other way, if the object has it in one spelling only. -/
  | rename {fields : List (String × Schema)} {field : String × Schema} {key key' : String}
      {pre post : List (String × Json)} {v : Json} (hfield : field ∈ fields)
      (hkey : Spells field.1 key) (hkey' : Spells field.1 key')
      (honly : ∀ m ∈ pre ++ post, ¬ Spells field.1 m.1) :
      Respells (.thing fields) (.obj (pre ++ (key, v) :: post)) (.obj (pre ++ (key', v) :: post))
        (renamed key key')
  /-- Members that name no field are added, or are put in the place of others. -/
  | unknown {fields : List (String × Schema)} {pre xs xs' post : List (String × Json)}
      (hxs : ∀ m ∈ xs, ∀ field ∈ fields, ¬ Spells field.1 m.1)
      (hxs' : ∀ m ∈ xs', ∀ field ∈ fields, ¬ Spells field.1 m.1) :
      Respells (.thing fields) (.obj (pre ++ (xs ++ post))) (.obj (pre ++ (xs' ++ post))) id
  /-- A tag that has a default is written out. -/
  | tag {tag : String} {variants : List (String × List (String × Schema))}
      {pre post : List (String × Json)} (hnone : ∀ m ∈ pre ++ post, m.1 ≠ "type") :
      Respells (.tagged (some tag) variants) (.obj (pre ++ post))
        (.obj (pre ++ ("type", .str tag) :: post)) id
  /-- A change in a field. -/
  | field {fields : List (String × Schema)} {field : String × Schema} {key : String}
      {pre post : List (String × Json)} {v v' : Json} {f : List Place → List Place}
      (hfield : field ∈ fields) (hkey : Spells field.1 key) (hpre : ∀ m ∈ pre, m.1 ≠ key)
      (h : Respells field.2 v v' f) :
      Respells (.thing fields) (.obj (pre ++ (key, v) :: post)) (.obj (pre ++ (key, v') :: post))
        (under (.key key) f)
  /-- A change in an element. -/
  | element {entry : Schema} {pre post : List Json} {v v' : Json} {f : List Place → List Place}
      (h : Respells entry v v' f) :
      Respells (.list entry) (.arr (pre ++ v :: post)) (.arr (pre ++ v' :: post))
        (under (.index pre.length) f)
  /-- A change in the fields that go with the tag. -/
  | variant {default? : Option String} {variants : List (String × List (String × Schema))}
      {tag : String} {fields : List (String × Schema)} {ms ms' : List (String × Json)}
      {f : List Place → List Place} (hvariant : variants.lookup tag = some fields)
      (htag : tagOf? default? ms = some tag) (htype : member? "type" ms' = member? "type" ms)
      (h : Respells (.thing fields) (.obj ms) (.obj ms') f) :
      Respells (.tagged default? variants) (.obj ms) (.obj ms') (under (.key tag) f)
  /-- A change in an object of no known tag. -/
  | noVariant {default? : Option String} {variants : List (String × List (String × Schema))}
      {ms ms' : List (String × Json)}
      (hnone : ∀ tag, tagOf? default? ms = some tag → variants.lookup tag = none)
      (htype : member? "type" ms' = member? "type" ms) :
      Respells (.tagged default? variants) (.obj ms) (.obj ms') id
  /-- A change in an object that stands where none is expected. -/
  | misplacedObject {s : Schema} {ms ms' : List (String × Json)} (hs : s.refusesObjects) :
      Respells s (.obj ms) (.obj ms') id
  /-- A change in an array that stands where none is expected. -/
  | misplacedArray {s : Schema} {xs xs' : List Json} (hs : s.refusesArrays) :
      Respells s (.arr xs) (.arr xs') id

/-- Any number of changes, one after the other. -/
inductive Respelled (s : Schema) : Json → Json → (List Place → List Place) → Prop
  | same (j : Json) : Respelled s j j id
  | step {j j' j'' : Json} {f g : List Place → List Place} (h : Respelled s j j' f)
      (hlast : Respells s j' j'' g) : Respelled s j j'' (g ∘ f)

/-- A change is never one from or to `null`. -/
theorem Respells.ne_null {s : Schema} {j j' : Json} {f : List Place → List Place}
    (h : Respells s j j' f) : j ≠ .null ∧ j' ≠ .null := by
  cases h <;> exact ⟨nofun, nofun⟩

/-! ## Places in complaints -/

namespace Decoded

variable {α β : Type}

/-- The outcome with the places in complaints changed. -/
def relocate (f : List Place → List Place) : Decoded α → Decoded α
  | value a => value a
  | refused cs => refused (cs.map fun c => ⟨f c.place, c.reason⟩)

@[simp] theorem relocate_value (f : List Place → List Place) (a : α) :
    (value a).relocate f = value a := rfl

@[simp] theorem relocate_id (x : Decoded α) : x.relocate id = x := by
  cases x with
  | value a => rfl
  | refused cs => simp [relocate]

theorem relocate_relocate (f g : List Place → List Place) (x : Decoded α) :
    (x.relocate f).relocate g = x.relocate (g ∘ f) := by
  cases x with
  | value a => rfl
  | refused cs => simp [relocate]

theorem relocate_map (f : List Place → List Place) (g : α → β) (x : Decoded α) :
    (g <$> x).relocate f = g <$> x.relocate f := by
  cases x <;> rfl

theorem relocate_seq (f : List Place → List Place) (g : Decoded (α → β)) (x : Decoded α) :
    (g <*> x).relocate f = g.relocate f <*> x.relocate f := by
  cases g with
  | value g => cases x <;> rfl
  | refused cs =>
    cases x with
    | value a => rfl
    | refused ds =>
      show refused ((cs ++ ds).map _) = refused (cs.map _ ++ ds.map _)
      rw [List.map_append]

/-- Below a part, places change as those of the part do. -/
theorem relocate_below {f g : List Place → List Place} {p p' : Place}
    (h : ∀ places, f (p :: places) = p' :: g places) (x : Decoded α) :
    (x.below p).relocate f = (x.relocate g).below p' := by
  cases x with
  | value a => rfl
  | refused cs => simp [below, relocate, h]

end Decoded

theorem under_self (p : Place) (f : List Place → List Place) (places : List Place) :
    under p f (p :: places) = p :: f places := by
  rw [under, if_pos rfl]

theorem under_of_ne {p q : Place} (h : q ≠ p) (f : List Place → List Place)
    (places : List Place) : under p f (q :: places) = q :: places := by
  rw [under, if_neg h]

theorem under_id (p : Place) : under p id = id := by
  funext places
  cases places with
  | nil => rfl
  | cons q rest =>
    rw [under]
    split
    next hq => rw [hq]; rfl
    · rfl

/-- A change below one part is none below another. -/
theorem Decoded.relocate_below_of_ne {α : Type} {p q : Place} (h : q ≠ p)
    (f : List Place → List Place) (x : Decoded α) :
    (x.below q).relocate (under p f) = x.below q := by
  rw [Decoded.relocate_below (g := id) (under_of_ne h f), Decoded.relocate_id]

/-! ## Members and fields -/

theorem member?_append (key : String) (xs ys : List (String × Json)) :
    member? key (xs ++ ys) = (member? key xs).or (member? key ys) := by
  induction xs with
  | nil => simp [member?]
  | cons m xs ih =>
    rw [List.cons_append, member?, member?]
    split
    · rfl
    · exact ih

theorem member?_eq_none {key : String} {ms : List (String × Json)} (h : ∀ m ∈ ms, m.1 ≠ key) :
    member? key ms = none := by
  induction ms with
  | nil => rfl
  | cons m ms ih =>
    rw [member?, if_neg (h m List.mem_cons_self), ih fun m hm => h m (List.mem_cons_of_mem _ hm)]

section Members

variable {key key' : String} {pre xs xs' post : List (String × Json)} {v v' : Json}

/-- A member is found in the middle. -/
theorem member?_middle (hpre : ∀ m ∈ pre, m.1 ≠ key) :
    member? key (pre ++ (key, v) :: post) = some v := by
  rw [member?_append, member?_eq_none hpre, Option.none_or, member?, if_pos rfl]

/-- Members of other keys do not matter. -/
theorem member?_unknown (hxs : ∀ m ∈ xs, m.1 ≠ key) (hxs' : ∀ m ∈ xs', m.1 ≠ key) :
    member? key (pre ++ (xs' ++ post)) = member? key (pre ++ (xs ++ post)) := by
  simp only [member?_append, member?_eq_none hxs, member?_eq_none hxs']

/-- Members that do not name a field do not matter to it. -/
theorem field?_unknown (hxs : ∀ m ∈ xs, ¬ Spells key m.1) (hxs' : ∀ m ∈ xs', ¬ Spells key m.1) :
    field? key (pre ++ (xs' ++ post)) = field? key (pre ++ (xs ++ post)) := by
  have hcamel : member? key (pre ++ (xs' ++ post)) = member? key (pre ++ (xs ++ post)) :=
    member?_unknown (fun m hm h => hxs m hm (.inl h)) fun m hm h => hxs' m hm (.inl h)
  have hsnake : member? (snakeCase key) (pre ++ (xs' ++ post)) =
      member? (snakeCase key) (pre ++ (xs ++ post)) :=
    member?_unknown (fun m hm h => hxs m hm (.inr h)) fun m hm h => hxs' m hm (.inr h)
  rw [field?, field?, hcamel, hsnake]

/-- A field that is there in one spelling only is found under it. -/
theorem field?_middle (hkey : Spells key key') (honly : ∀ m ∈ pre ++ post, ¬ Spells key m.1) :
    field? key (pre ++ (key', v) :: post) = some (key', v) := by
  have hpre : ∀ m ∈ pre, m.1 ≠ key' := fun m hm h =>
    honly m (List.mem_append_left _ hm) (h ▸ hkey)
  rcases hkey with rfl | rfl
  · rw [field?, member?_middle hpre]
  · by_cases hsame : snakeCase key = key
    · rw [hsame] at hpre ⊢
      rw [field?, member?_middle hpre]
    · have hnone : member? key (pre ++ (snakeCase key, v) :: post) = none := by
        refine member?_eq_none fun m hm => ?_
        rcases List.mem_append.1 hm with hm | hm
        · exact fun h => honly m (List.mem_append_left _ hm) (.inl h)
        · rcases List.mem_cons.1 hm with rfl | hm
          · exact hsame
          · exact fun h => honly m (List.mem_append_right _ hm) (.inl h)
      rw [field?, hnone]
      dsimp only
      rw [member?_middle hpre]
      rfl

theorem field?_spells {ms : List (String × Json)} (h : field? key ms = some (key', v)) :
    Spells key key' := by
  rw [field?] at h
  split at h
  · exact .inl (congrArg Prod.fst (Option.some.inj h)).symm
  · obtain ⟨w, -, hw⟩ := Option.map_eq_some_iff.1 h
    exact .inr (congrArg Prod.fst hw).symm

end Members

theorem mem_spellings {field key : String} : key ∈ [field, snakeCase field] ↔ Spells field key := by
  simp [Spells]

/-- Two fields of a thing that share a spelling are one. -/
theorem SpelledApart.eq_of_spells {fields : List (String × Schema)} (h : SpelledApart fields)
    {a b : String × Schema} (ha : a ∈ fields) (hb : b ∈ fields) {key : String}
    (hka : Spells a.1 key) (hkb : Spells b.1 key) : a = b := by
  induction fields with
  | nil => cases ha
  | cons first rest ih =>
    rw [SpelledApart, List.map_cons, List.pairwise_cons] at h
    have hapart : ∀ c ∈ rest, Spells first.1 key → ¬ Spells c.1 key := fun c hc hfirst =>
      h.1 c.1 (List.mem_map_of_mem hc) key (mem_spellings.2 hfirst)
    rcases List.mem_cons.1 ha with rfl | har
    · rcases List.mem_cons.1 hb with rfl | hbr
      · rfl
      · exact absurd hkb (hapart b hbr hka)
    · rcases List.mem_cons.1 hb with rfl | hbr
      · exact absurd hka (hapart a har hkb)
      · exact ih h.2 har hbr

/-- A spelling of one field of a thing is none of another. -/
theorem SpelledApart.not_spells {fields : List (String × Schema)} (h : SpelledApart fields)
    {a b : String × Schema} (ha : a ∈ fields) (hb : b ∈ fields) (hne : a ≠ b) {key : String}
    (hka : Spells a.1 key) : ¬ Spells b.1 key :=
  fun hkb => hne (h.eq_of_spells ha hb hka hkb)

/-! ## Decoders that follow a schema -/

/-- Changes of spelling make no difference to a decoder but for the places in complaints. -/
def Follows {α : Type} (d : Decoder α) (s : Schema) : Prop :=
  ∀ ⦃j j' f⦄, Respells s j j' f → d j' = (d j).relocate f

/-- The same for a decoder of the members of a thing. -/
def FieldsFollow {α : Type} (d : List (String × Json) → Decoded α)
    (fields : List (String × Schema)) : Prop :=
  ∀ ⦃ms ms' f⦄, Respells (.thing fields) (.obj ms) (.obj ms') f → d ms' = (d ms).relocate f

section Fields

variable {α β : Type} {fields : List (String × Schema)} {key : String} {s : Schema} {d : Decoder α}
  {ms ms' : List (String × Json)} {f : List Place → List Place}

/-- What a change means for one field: it is missing before and after, or it is found before and
after, and then what is below it changes as its value does. -/
inductive FieldRespelled (d : Decoder α) (key : String) (ms ms' : List (String × Json))
    (f : List Place → List Place) : Prop
  | missing (h : field? key ms = none) (h' : field? key ms' = none)
    (place : f [.key key] = [.key key])
  | found {k k' : String} {v v' : Json} {g : List Place → List Place}
    (h : field? key ms = some (k, v)) (h' : field? key ms' = some (k', v'))
    (below : ∀ places, f (.key k :: places) = .key k' :: g places)
    (value : d v' = (d v).relocate g)

theorem field?_of_member?_eq_none {v : Json} (hnone : member? key ms = none)
    (hsnake : member? (snakeCase key) ms = some v) : field? key ms = some (snakeCase key, v) := by
  rw [field?, hnone, hsnake]
  rfl

/-- A field that is found as before, with the places below it as they were. -/
theorem FieldRespelled.of_eq (hsame : field? key ms' = field? key ms)
    (hf : ∀ k, Spells key k → ∀ places, f (.key k :: places) = .key k :: places) :
    FieldRespelled d key ms ms' f := by
  cases h : field? key ms with
  | none => exact .missing h (hsame.trans h) (hf key (.inl rfl) [])
  | some m => exact .found h (hsame.trans h) (hf m.1 (field?_spells h)) (Decoded.relocate_id _).symm

/-- When the value of a member changes, a field that it spells changes as the value does, unless a
member in camel case is found instead of it. -/
theorem FieldRespelled.of_member {k : String} {pre post : List (String × Json)} {v v' : Json}
    {g : List Place → List Place} (hk : Spells key k) (hpre : ∀ m ∈ pre, m.1 ≠ k)
    (hv : d v' = (d v).relocate g) :
    FieldRespelled d key (pre ++ (k, v) :: post) (pre ++ (k, v') :: post) (under (.key k) g) := by
  have hthis : ∀ w, member? k (pre ++ (k, w) :: post) = some w := fun w => member?_middle hpre
  by_cases hcamel : k = key
  · subst hcamel
    exact .found (field?_of_member (hthis v)) (field?_of_member (hthis v')) (under_self _ g) hv
  · obtain rfl : k = snakeCase key := hk.resolve_left hcamel
    have hsame : member? key (pre ++ ([(snakeCase key, v')] ++ post)) =
        member? key (pre ++ ([(snakeCase key, v)] ++ post)) :=
      member?_unknown (by simpa using hcamel) (by simpa using hcamel)
    cases hfound : member? key (pre ++ (snakeCase key, v) :: post) with
    | some w =>
      exact .found (field?_of_member hfound) (field?_of_member (hsame.trans hfound))
        (under_of_ne (fun h => hcamel (Place.key.inj h).symm) g) (Decoded.relocate_id _).symm
    | none =>
      exact .found (field?_of_member?_eq_none hfound (hthis v))
        (field?_of_member?_eq_none (hsame.trans hfound) (hthis v')) (under_self _ g) hv

/-- **What one change means for one field** of a thing. -/
theorem field?_respelled (hapart : SpelledApart fields) (hkey : (key, s) ∈ fields)
    (hd : Follows d s) (h : Respells (.thing fields) (.obj ms) (.obj ms') f) :
    FieldRespelled d key ms ms' f := by
  cases h with
  | @rename _ field k k' pre post v hfield hk hk' honly =>
    by_cases hsame : field = (key, s)
    · subst hsame
      refine .found (field?_middle hk honly) (field?_middle hk' honly) (fun places => ?_)
        (Decoded.relocate_id _).symm
      rw [renamed, if_pos rfl]
      rfl
    · have hother := hapart.not_spells hfield hkey hsame hk
      have hother' := hapart.not_spells hfield hkey hsame hk'
      refine .of_eq ?_ fun k₀ hk₀ places => ?_
      · show field? key (pre ++ ([(k', v)] ++ post)) = field? key (pre ++ ([(k, v)] ++ post))
        exact field?_unknown (by simpa using hother) (by simpa using hother')
      · rw [renamed, if_neg]
        rintro h
        exact hother (Place.key.inj h ▸ hk₀)
  | unknown hxs hxs' =>
    refine .of_eq (field?_unknown (fun m hm => hxs m hm _ hkey) fun m hm => hxs' m hm _ hkey) ?_
    exact fun _ _ _ => rfl
  | @field _ field k pre post v v' g hfield hk hpre hv =>
    by_cases hsame : field = (key, s)
    · subst hsame
      exact .of_member hk hpre (hd hv)
    · have hother := hapart.not_spells hfield hkey hsame hk
      refine .of_eq ?_ fun k₀ hk₀ places => under_of_ne ?_ _ _
      · show field? key (pre ++ ([(k, v')] ++ post)) = field? key (pre ++ ([(k, v)] ++ post))
        exact field?_unknown (by simpa using hother) (by simpa using hother)
      · rintro h
        exact hother (Place.key.inj h ▸ hk₀)
  | misplacedObject hs => exact absurd hs id

theorem required_follows (hapart : SpelledApart fields) (hkey : (key, s) ∈ fields)
    (hd : Follows d s) : FieldsFollow (fun ms => required ms key d) fields := by
  intro ms ms' f h
  dsimp only [required]
  cases field?_respelled hapart hkey hd h with
  | missing hms hms' place => simp [hms, hms', Decoded.relocate, place]
  | found hms hms' below value => simp only [hms, hms', value, Decoded.relocate_below below]

theorem withDefault_follows (hapart : SpelledApart fields) (hkey : (key, s) ∈ fields)
    (hd : Follows d s) (default : α) :
    FieldsFollow (fun ms => withDefault ms key default d) fields := by
  intro ms ms' f h
  dsimp only [withDefault]
  cases field?_respelled hapart hkey hd h with
  | missing hms hms' place => simp [hms, hms']
  | found hms hms' below value => simp only [hms, hms', value, Decoded.relocate_below below]

theorem nullable_follows (hd : Follows d s) : Follows (nullable d) s := by
  intro j j' f h
  obtain ⟨hj, hj'⟩ := h.ne_null
  rw [nullable, nullable, hd h]
  · exact (Decoded.relocate_map f some (d j)).symm
  · exact hj
  · exact hj'

theorem maybe_follows (hapart : SpelledApart fields) (hkey : (key, s) ∈ fields)
    (hd : Follows d s) : FieldsFollow (fun ms => maybe ms key d) fields :=
  withDefault_follows hapart hkey (nullable_follows hd) none

namespace FieldsFollow

variable {F : List (String × Json) → Decoded (α → β)} {x : List (String × Json) → Decoded α}

theorem map (hx : FieldsFollow x fields) (g : α → β) :
    FieldsFollow (fun ms => g <$> x ms) fields := fun ms ms' f h => by
  simp only [hx h, Decoded.relocate_map]

theorem seq (hF : FieldsFollow F fields) (hx : FieldsFollow x fields) :
    FieldsFollow (fun ms => F ms <*> x ms) fields := fun ms ms' f h => by
  simp only [hF h, hx h, Decoded.relocate_seq]

end FieldsFollow

theorem thing_follows {x : List (String × Json) → Decoded α} (hx : FieldsFollow x fields) :
    Follows (thing x) (.thing fields) := by
  intro j j' f h
  cases j with
  | obj ms =>
    cases j' with
    | obj ms' => exact hx h
    | _ => cases h
  | arr xs =>
    cases h
    rfl
  | _ => cases h

end Fields

/-! ## Plain values and lists -/

section Plain

variable {α : Type}

/-- A decoder that looks into no object and no array. -/
theorem follows_plain {d : Decoder α} (hobj : ∀ ms ms', d (.obj ms') = d (.obj ms))
    (harr : ∀ xs xs', d (.arr xs') = d (.arr xs)) : Follows d .plain := by
  intro j j' f h
  cases h with
  | misplacedObject => rw [hobj, Decoded.relocate_id]
  | misplacedArray => rw [harr, Decoded.relocate_id]

theorem follows_asIs {d : Decoder α} : Follows d .asIs := by
  intro j j' f h
  cases h with
  | misplacedObject hs => exact absurd hs id
  | misplacedArray hs => exact absurd hs id

theorem string_follows : Follows string .plain := follows_plain (fun _ _ => rfl) fun _ _ => rfl

theorem number_follows : Follows number .plain := follows_plain (fun _ _ => rfl) fun _ _ => rfl

theorem integer_follows : Follows integer .plain := follows_plain (fun _ _ => rfl) fun _ _ => rfl

theorem boolean_follows : Follows boolean .plain := follows_plain (fun _ _ => rfl) fun _ _ => rfl

theorem word_follows (table : List (String × α)) : Follows (word table) .plain :=
  follows_plain (fun _ _ => rfl) fun _ _ => rfl

theorem namedKind_follows (table : List (String × α)) : Follows (namedKind table) .plain :=
  follows_plain (fun _ _ => rfl) fun _ _ => rfl

/-- Elements after the one that changes are decoded as they were. -/
theorem elementsFrom_relocate_of_lt {d : Decoder α} {n i : Nat} (h : n < i)
    (f : List Place → List Place) (xs : List Json) :
    (elementsFrom d i xs).relocate (under (.index n) f) = elementsFrom d i xs := by
  induction xs generalizing i with
  | nil => rfl
  | cons v xs ih =>
    have hne : (Place.index i) ≠ .index n := fun heq => by
      have := Place.index.inj heq
      omega
    rw [elementsFrom, Decoded.relocate_seq, Decoded.relocate_map, ih (by omega),
      Decoded.relocate_below_of_ne hne]

/-- One element changes. -/
theorem elementsFrom_respelled {d : Decoder α} {v v' : Json} {f : List Place → List Place}
    (hv : d v' = (d v).relocate f) (i : Nat) (pre post : List Json) :
    elementsFrom d i (pre ++ v' :: post) =
      (elementsFrom d i (pre ++ v :: post)).relocate (under (.index (i + pre.length)) f) := by
  induction pre generalizing i with
  | nil =>
    rw [List.length_nil, Nat.add_zero, List.nil_append, List.nil_append, elementsFrom, elementsFrom,
      Decoded.relocate_seq, Decoded.relocate_map, Decoded.relocate_below (under_self _ f),
      elementsFrom_relocate_of_lt (Nat.lt_succ_self i), hv]
  | cons w pre ih =>
    have hne : (Place.index i) ≠ .index (i + (w :: pre).length) := fun heq => by
      have := Place.index.inj heq
      simp at this
    rw [List.cons_append, List.cons_append, elementsFrom, elementsFrom, ih (i + 1),
      Decoded.relocate_seq, Decoded.relocate_map, Decoded.relocate_below_of_ne hne,
      List.length_cons, Nat.add_assoc, Nat.add_comm 1]

theorem list_follows {d : Decoder α} {s : Schema} (hd : Follows d s) :
    Follows (list d) (.list s) := by
  intro j j' f h
  cases h with
  | @element _ pre post v v' f hv =>
    have helements := elementsFrom_respelled (hd hv) 0 pre post
    rwa [Nat.zero_add] at helements
  | misplacedObject hs => rw [Decoded.relocate_id]; rfl
  | misplacedArray hs => exact absurd hs id

end Plain

/-! ## Tagged values -/

section Tagged

variable {α : Type} {variants : List (Variant α)}
  {schemas : List (String × List (String × Schema))}

/-- The variants of a tagged value follow the schemas of its tags, one by one. -/
def VariantsFollow (variants : List (Variant α))
    (schemas : List (String × List (String × Schema))) : Prop :=
  List.Forall₂ (fun v s => v.tag = s.1 ∧ FieldsFollow v.decode s.2) variants schemas

/-- A known tag has a variant that follows its schema. -/
theorem VariantsFollow.exists_find? (h : VariantsFollow variants schemas) {tag : String}
    {fields : List (String × Schema)} (htag : schemas.lookup tag = some fields) :
    ∃ v, variants.find? (·.tag == tag) = some v ∧ v.tag = tag ∧ FieldsFollow v.decode fields := by
  induction h with
  | nil => cases htag
  | @cons v s variants schemas hv _ ih =>
    obtain ⟨t, fs⟩ := s
    obtain ⟨rfl, hfollow⟩ := hv
    rw [List.lookup_cons] at htag
    by_cases heq : tag = v.tag
    · subst heq
      simp only [beq_self_eq_true] at htag
      obtain rfl := Option.some.inj htag
      exact ⟨v, by simp, rfl, hfollow⟩
    · simp only [beq_eq_false_iff_ne.2 heq] at htag
      obtain ⟨w, hw, hrest⟩ := ih htag
      refine ⟨w, ?_, hrest⟩
      rw [List.find?_cons_of_neg (by simpa using Ne.symm heq), hw]

theorem VariantsFollow.find?_eq_none (h : VariantsFollow variants schemas) {tag : String}
    (htag : schemas.lookup tag = none) : variants.find? (·.tag == tag) = none := by
  induction h with
  | nil => rfl
  | @cons v s variants schemas hv _ ih =>
    obtain ⟨t, fs⟩ := s
    obtain ⟨rfl, -⟩ := hv
    rw [List.lookup_cons] at htag
    by_cases heq : tag = v.tag
    · subst heq
      simp at htag
    · simp only [beq_eq_false_iff_ne.2 heq] at htag
      rw [List.find?_cons_of_neg (by simpa using Ne.symm heq), ih htag]

variable {disc : Discriminator} {ms ms' : List (String × Json)}

/-- A tag that is not known is refused whatever the fields. -/
theorem selectVariant_eq_refuse {tag : Json}
    (h : ∀ t, tag = .str t → variants.find? (·.tag == t) = none) :
    selectVariant disc variants tag ms =
      .refuse (.tagUnknown tag disc (variants.map fun v => v.tag)) := by
  cases tag with
  | str t => simp only [selectVariant, h t rfl]
  | _ => rfl

/-- A change in an object of no known tag makes no difference. -/
theorem selectVariant_unknown (hv : VariantsFollow variants schemas) {tag : Json}
    (h : ∀ t, tag = .str t → schemas.lookup t = none) :
    selectVariant disc variants tag ms' = selectVariant disc variants tag ms := by
  have hnone : ∀ t, tag = .str t → variants.find? (·.tag == t) = none := fun t ht =>
    hv.find?_eq_none (h t ht)
  rw [selectVariant_eq_refuse hnone, selectVariant_eq_refuse hnone]

/-- The fields that go with a tag change. -/
theorem selectVariant_respelled (hv : VariantsFollow variants schemas) {tag : String}
    {fields : List (String × Schema)} {f : List Place → List Place}
    (htag : schemas.lookup tag = some fields)
    (h : Respells (.thing fields) (.obj ms) (.obj ms') f) :
    selectVariant disc variants (.str tag) ms' =
      (selectVariant disc variants (.str tag) ms).relocate (under (.key tag) f) := by
  obtain ⟨v, hfind, rfl, hfollow⟩ := hv.exists_find? htag
  simp only [selectVariant, hfind, hfollow h]
  exact (Decoded.relocate_below (under_self _ f) _).symm

/-- A value whose member `type` is its tag follows the schemas of its variants. -/
theorem tagged_follows (hv : VariantsFollow variants schemas) :
    Follows (tagged variants) (.tagged none schemas) := by
  intro j j' f h
  cases h with
  | @variant _ _ tag fields ms ms' f hvariant htag htype h =>
    have htype' : member? "type" ms = some (.str tag) := by
      rw [tagOf?] at htag
      split at htag
      next hms => rw [hms, Option.some.inj htag]
      · cases htag
      · cases htag
    simp only [tagged, htype, htype']
    exact selectVariant_respelled hv hvariant h
  | @noVariant _ _ ms ms' hnone htype =>
    simp only [tagged, htype, Decoded.relocate_id]
    cases hms : member? "type" ms with
    | none => rfl
    | some tag =>
      have hunknown : ∀ t, tag = .str t → schemas.lookup t = none := by
        rintro t rfl
        exact hnone t (by rw [tagOf?, hms])
      exact selectVariant_unknown hv hunknown
  | misplacedObject hs => exact absurd hs id
  | misplacedArray => rw [Decoded.relocate_id]; rfl

end Tagged

end Housewright.Json
