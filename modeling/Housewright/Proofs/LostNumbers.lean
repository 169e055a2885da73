import Housewright.Proofs.Json.FiniteNumbers
import Housewright.Proofs.SaveLoad

/-!
# What is lost in a saved house

JSON has no spelling for a number that is not finite, so a saved file has `null` in its place.
Where the description may do without the number, in the spans of a face and inside styles, the
file is still a house, without the number (`House.asWritten`).  Everywhere else the reader asks
for a number, and refuses the file with a complaint about each that is gone.

## Main results

* `House.decode_finiteOnly` : what the encoding of a house decodes to once such numbers are gone.
* `House.leftIn_save` : what is loaded from the text that is saved for a house.
-/

namespace Housewright

open Json

/-! ## Values without their lost numbers -/

namespace Json

/-- How many of some numbers cannot be written: those that are not finite. -/
def lost (xs : List Float) : ℕ := xs.countP fun x => !x.isFinite

@[simp] theorem lost_nil : lost [] = 0 := rfl

@[simp] theorem lost_append (xs ys : List Float) : lost (xs ++ ys) = lost xs + lost ys :=
  List.countP_append

theorem lost_eq_zero_iff {xs : List Float} : lost xs = 0 ↔ ∀ x ∈ xs, x.isFinite = true := by
  simp [lost, List.countP_eq_zero]

theorem finiteElements_eq_map (xs : List Json) : finiteElements xs = xs.map finiteOnly := by
  induction xs with
  | nil => rfl
  | cons v xs ih => rw [finiteElements, ih, List.map_cons]

theorem finiteMembers_eq_map (ms : List (String × Json)) :
    finiteMembers ms = ms.map fun m => (m.1, m.2.finiteOnly) := by
  induction ms with
  | nil => rfl
  | cons m ms ih => rw [finiteMembers, ih, List.map_cons]

/-- The numbers that are left are the finite ones. -/
theorem mem_numbers_finiteOnly {v : Json} {x : Float} :
    x ∈ v.finiteOnly.numbers ↔ x ∈ v.numbers ∧ x.isFinite = true := by
  induction v using Json.induction with
  | null | bool | int | str => simp [finiteOnly, numbers]
  | num y =>
    rw [finiteOnly]
    split
    next hy => simpa [numbers] using fun h : x = y => h ▸ hy
    next hy => simpa [numbers] using fun h : x = y => h ▸ Bool.eq_false_iff.2 hy
  | arr xs ih =>
    simp only [finiteOnly, numbers, mem_elementNumbers, finiteElements_eq_map, List.mem_map]
    constructor
    · rintro ⟨_, ⟨v, hv, rfl⟩, hx⟩
      exact ⟨⟨v, hv, ((ih v hv).1 hx).1⟩, ((ih v hv).1 hx).2⟩
    · rintro ⟨⟨v, hv, hx⟩, hfinite⟩
      exact ⟨_, ⟨v, hv, rfl⟩, (ih v hv).2 ⟨hx, hfinite⟩⟩
  | obj ms ih =>
    simp only [finiteOnly, numbers, mem_memberNumbers, finiteMembers_eq_map, List.mem_map]
    constructor
    · rintro ⟨_, ⟨m, hm, rfl⟩, hx⟩
      exact ⟨⟨m, hm, ((ih m hm).1 hx).1⟩, ((ih m hm).1 hx).2⟩
    · rintro ⟨⟨m, hm, hx⟩, hfinite⟩
      exact ⟨_, ⟨m, hm, rfl⟩, (ih m hm).2 ⟨hx, hfinite⟩⟩

/-- What the reader can hold, it can hold without those numbers. -/
theorem Readable.finiteOnly {d : ℕ} {v : Json} (h : Readable d v) : Readable d v.finiteOnly := by
  induction h with
  | null => exact .null
  | bool b => exact .bool b
  | int digits => exact .int digits
  | num x =>
    rw [Json.finiteOnly]
    split
    · exact .num x
    · exact .null
  | str s => exact .str s
  | arr _ ih =>
    refine .arr fun v hv => ?_
    rw [finiteElements_eq_map] at hv
    obtain ⟨w, hw, rfl⟩ := List.mem_map.1 hv
    exact ih w hw
  | obj keys _ ih =>
    rw [Json.finiteOnly, finiteMembers_eq_map]
    refine .obj (by rwa [List.map_map]) fun m hm => ?_
    obtain ⟨w, hw, rfl⟩ := List.mem_map.1 hm
    exact ih w hw

theorem member?_finiteMembers {key : String} {ms : List (String × Json)} {v : Json}
    (h : member? key ms = some v) : member? key (finiteMembers ms) = some v.finiteOnly := by
  induction ms with
  | nil => cases h
  | cons m ms ih =>
    rw [finiteMembers, member?]
    rw [member?] at h
    split at h
    next hk => rw [if_pos hk, Option.some.inj h]
    next hk => rw [if_neg hk, ih h]

end Json

/-! ## Decoding what is left -/

namespace Json.Decoded

variable {α β : Type}

/-- The outcome for a thing of which some numbers that have to be there were lost: the thing, if
there are none, and else a complaint about each. -/
inductive Loses (a : α) : Decoded α → ℕ → Prop
  | nothing : Loses a (.value a) 0
  | numbers {cs : List Complaint} (hne : cs ≠ []) (h : ∀ c ∈ cs, c.reason = .expectedNumber) :
    Loses a (.refused cs) cs.length

namespace Loses

variable {x : Decoded α} {a : α} {n m : ℕ}

theorem congr {b : α} (h : x.Loses a n) (ha : a = b) (hn : n = m) : x.Loses b m := ha ▸ hn ▸ h

theorem map (f : α → β) (h : x.Loses a n) : (f <$> x).Loses (f a) n := by
  cases h with
  | nothing => exact .nothing
  | numbers hne h => exact .numbers hne h

/-- What two parts lost adds up. -/
theorem seq {F : Decoded (α → β)} {f : α → β} (hf : F.Loses f n) (hx : x.Loses a m) :
    (F <*> x).Loses (f a) (n + m) := by
  cases hf with
  | nothing =>
    rw [Nat.zero_add]
    cases hx with
    | nothing => exact .nothing
    | numbers hne h => exact .numbers hne h
  | numbers hne h =>
    cases hx with
    | nothing => exact .numbers hne h
    | numbers _ h' =>
      rw [← List.length_append]
      exact .numbers (List.append_ne_nil_of_left_ne_nil hne _) (List.forall_mem_append.2 ⟨h, h'⟩)

theorem below (p : Place) (h : x.Loses a n) : (x.below p).Loses a n := by
  cases h with
  | nothing => exact .nothing
  | @numbers cs hne h =>
    refine congr (.numbers (by simpa using hne) ?_) rfl (List.length_map _)
    simpa using h

theorem of_eq_value (h : x = .value a) : x.Loses a 0 := h ▸ .nothing

/-- Nothing was lost, or there is a complaint. -/
theorem eq_value_iff {b : α} (h : x.Loses a n) : x = .value b ↔ n = 0 ∧ b = a := by
  cases h with
  | nothing => exact ⟨fun h => ⟨rfl, (Decoded.value.inj h).symm⟩, fun h => by rw [h.2]⟩
  | numbers hne h => simp [hne]

theorem of_eq_refused {cs : List Complaint} (h : x.Loses a n) (hx : x = .refused cs) :
    cs.length = n ∧ ∀ c ∈ cs, c.reason = .expectedNumber := by
  cases h with
  | nothing => cases hx
  | numbers hne h =>
    obtain rfl := Decoded.refused.inj hx
    exact ⟨rfl, h⟩

end Loses

end Json.Decoded

namespace Json

variable {α β : Type}

/-! ### Plain values, lists and optional values -/

theorem number_finiteOnly (x : Float) :
    (number (Json.num x).finiteOnly).Loses x (lost (Json.num x).numbers) := by
  rw [finiteOnly]
  split
  next hx => exact .congr .nothing rfl (by simp [numbers, lost, hx])
  next hx =>
    have hone : [(⟨[], .expectedNumber⟩ : Complaint)] ≠ [] := List.cons_ne_nil _ _
    refine .congr (.numbers hone ?_) rfl ?_
    · simp
    · simp [numbers, lost, hx]

section Lists

variable {d : Decoder α} {f : α → Json} {g : α → α}
  (h : ∀ x, (d (f x).finiteOnly).Loses (g x) (lost (f (g x)).numbers))

include h

theorem elementsFrom_finiteElements (i : ℕ) (xs : List α) :
    (elementsFrom d i (finiteElements (xs.map f))).Loses (xs.map g)
      (lost (elementNumbers ((xs.map g).map f))) := by
  induction xs generalizing i with
  | nil => exact .nothing
  | cons x xs ih =>
    refine .congr (.seq (.map List.cons ((h x).below _)) (ih (i + 1))) rfl ?_
    simp [elementNumbers]

/-- A list loses what its entries lose. -/
theorem list_finiteOnly (xs : List α) : (list d (ofList f xs).finiteOnly).Loses (xs.map g)
    (lost (ofList f (xs.map g)).numbers) := elementsFrom_finiteElements h 0 xs

end Lists

section Plain

variable {d : Decoder α} {f : α → Json}
  (h : ∀ x, (d (f x).finiteOnly).Loses x (lost (f x).numbers))

include h

/-- A list loses what its entries lose, which are there as they were. -/
theorem list_finiteOnly_self (xs : List α) :
    (list d (ofList f xs).finiteOnly).Loses xs (lost (ofList f xs).numbers) := by
  simpa using list_finiteOnly (g := id) h xs

/-- An optional value loses what its value loses, if that is never written as `null`. -/
theorem nullable_finiteOnly (hnull : ∀ x, (f x).finiteOnly ≠ .null) (o : Option α) :
    (nullable d (ofOption f o).finiteOnly).Loses o (lost (ofOption f o).numbers) := by
  cases o with
  | none => exact .nothing
  | some x =>
    rw [ofOption, nullable]
    · exact (h x).map some
    · exact hnull x

end Plain

/-- An optional number that is not finite is unset. -/
theorem nullable_number_finiteOnly (o : Option Float) :
    nullable number (ofOption .num o).finiteOnly = .value (o.filter Float.isFinite) := by
  cases o with
  | none => rfl
  | some x =>
    rw [ofOption, finiteOnly, Option.filter_some]
    split <;> rfl

/-! ### Fields -/

section Fields

variable {ms : List (String × Json)} {key : String} {v : Json} {d : Decoder α} {a : α} {n : ℕ}
  (hm : member? key ms = some v)

include hm

/-- A field that is there loses what its value loses. -/
theorem withDefault_finiteMembers (default : α) (h : (d v.finiteOnly).Loses a n) :
    (withDefault (finiteMembers ms) key default d).Loses a n := by
  rw [withDefault, field?_of_member (member?_finiteMembers hm)]
  exact h.below _

theorem required_finiteMembers (h : (d v.finiteOnly).Loses a n) :
    (required (finiteMembers ms) key d).Loses a n := by
  rw [required, field?_of_member (member?_finiteMembers hm)]
  exact h.below _

end Fields

/-- A tagged value loses what its variant loses. -/
theorem selectVariant_loses {d : Discriminator} {variants : List (Variant α)}
    {tag : String} {variant : Variant α} {ms : List (String × Json)} {a : α} {n : ℕ}
    (hfind : variants.find? (·.tag == tag) = some variant)
    (h : (variant.decode ms).Loses a n) :
    (selectVariant d variants (.str tag) ms).Loses a n := by
  simp only [selectVariant, hfind]
  exact h.below _

end Json

/-! ## Described things without their lost numbers -/

/-- The face as its file has it: the ends of its span are unset where they are not finite. -/
def RoofFace.asWritten (f : RoofFace Float) : RoofFace Float :=
  { f with
    ridgeT0 := f.ridgeT0.filter Float.isFinite
    ridgeT1 := f.ridgeT1.filter Float.isFinite }

/-- The roof as its file has it. -/
def Roof.asWritten : Roof Float → Roof Float
  | .multiPlane r => .multiPlane { r with faces := r.faces.map RoofFace.asWritten }
  | r => r

/-- The opening as its file has it: in its style, numbers that are not finite are `null`. -/
def Opening.asWritten (o : Opening Float) : Opening Float :=
  { o with style := o.style.map finiteMembers }

/-- The house as its file has it: without those numbers that are not finite and that it may do
without. -/
def House.asWritten (h : House Float) : House Float :=
  { h with
    roofs := h.roofs.map Roof.asWritten
    openings := h.openings.map Opening.asWritten }

theorem Point.decode_finiteOnly (p : Point Float) :
    (Point.decode p.encode.finiteOnly).Loses p (lost p.encode.numbers) := by
  rw [Point.encode, finiteOnly, Point.decode, thing_obj]
  refine .congr (.seq (.map _ (required_finiteMembers rfl (number_finiteOnly p.x)))
    (required_finiteMembers rfl (number_finiteOnly p.y))) rfl ?_
  simp only [numbers, memberNumbers, lost_append, lost_nil, Nat.add_zero]

theorem PlanePoint.decode_finiteOnly (p : PlanePoint Float) :
    (PlanePoint.decode p.encode.finiteOnly).Loses p (lost p.encode.numbers) := by
  rw [PlanePoint.encode, finiteOnly, PlanePoint.decode, thing_obj]
  refine .congr (.seq (.seq (.map _ (required_finiteMembers rfl (number_finiteOnly p.x)))
    (required_finiteMembers rfl (number_finiteOnly p.y)))
    (required_finiteMembers rfl (number_finiteOnly p.h))) rfl ?_
  simp only [numbers, memberNumbers, lost_append, lost_nil]
  omega

/-- A half-plane, wherever its members are found. -/
theorem HalfPlane.decodeFields_finiteMembers {h : HalfPlane Float} {ms : List (String × Json)}
    (ha : member? "a" ms = some h.a.encode) (hb : member? "b" ms = some h.b.encode)
    (hkeep : member? "keep" ms = some (.str h.keep.word)) :
    (HalfPlane.decodeFields (finiteMembers ms)).Loses h (lost h.encode.numbers) := by
  refine .congr (.seq (.seq (.map _ (required_finiteMembers ha h.a.decode_finiteOnly))
    (required_finiteMembers hb h.b.decode_finiteOnly))
    (required_finiteMembers hkeep (.of_eq_value (Side.decode_word h.keep)))) rfl ?_
  simp only [HalfPlane.encode, HalfPlane.members, numbers, memberNumbers, lost_append, lost_nil,
    Nat.add_zero]

theorem HalfPlane.decode_finiteOnly (h : HalfPlane Float) :
    (HalfPlane.decode h.encode.finiteOnly).Loses h (lost h.encode.numbers) :=
  HalfPlane.decodeFields_finiteMembers rfl rfl rfl

theorem RegionItem.decode_finiteOnly (i : RegionItem Float) :
    (RegionItem.decode i.encode.finiteOnly).Loses i (lost i.encode.numbers) := by
  have htag : RegionItem.decode i.encode.finiteOnly = selectVariant tagRule variants (.str i.tag)
    (finiteMembers (("type", .str i.tag) :: i.members)) := rfl
  rw [htag]
  cases i with
  | explicit h =>
    refine selectVariant_loses rfl ?_
    exact .congr (.map _ (HalfPlane.decodeFields_finiteMembers rfl rfl rfl)) rfl rfl
  | materialized h ridgeId =>
    refine selectVariant_loses rfl ?_
    have hridge := nullable_finiteOnly (d := string) (f := .str) (fun s => .nothing) nofun ridgeId
    refine .congr (.seq (.map _ (HalfPlane.decodeFields_finiteMembers rfl rfl rfl))
      (withDefault_finiteMembers rfl _ hridge)) rfl ?_
    simp [RegionItem.encode, HalfPlane.encode, HalfPlane.members, RegionItem.members, numbers,
      memberNumbers]
    omega
  | divider ridgeId keep =>
    refine selectVariant_loses rfl ?_
    exact .congr (.seq (.map _ (required_finiteMembers rfl .nothing))
      (required_finiteMembers rfl (.of_eq_value (Side.decode_word keep)))) rfl rfl
  | perpCut ridgeId t keep =>
    refine selectVariant_loses rfl ?_
    refine .congr (.seq (.seq (.map _ (required_finiteMembers rfl .nothing))
      (required_finiteMembers rfl (number_finiteOnly t)))
      (required_finiteMembers rfl (.of_eq_value (CutSide.decode_word keep)))) rfl ?_
    simp [RegionItem.encode, RegionItem.members, numbers, memberNumbers]

theorem FaceRegion.decode_finiteOnly (r : FaceRegion Float) :
    (FaceRegion.decode r.encode.finiteOnly).Loses r (lost r.encode.numbers) := by
  have htag : FaceRegion.decode r.encode.finiteOnly = selectVariant (.member "type") variants
    (.str r.tag) (finiteMembers (("type", .str r.tag) :: r.members)) := rfl
  rw [htag]
  cases r with
  | halfPlanes planes =>
    refine selectVariant_loses rfl (.congr (.map _ (required_finiteMembers rfl
      (list_finiteOnly_self HalfPlane.decode_finiteOnly planes))) rfl ?_)
    simp [FaceRegion.encode, FaceRegion.members, numbers, memberNumbers]
  | ridgeCap ridgeId cap =>
    exact selectVariant_loses rfl (.congr (.seq (.map _ (required_finiteMembers rfl .nothing))
      (required_finiteMembers rfl (.of_eq_value (RidgeEnd.decode_word cap)))) rfl rfl)
  | compound items =>
    refine selectVariant_loses rfl (.congr (.map _ (required_finiteMembers rfl
      (list_finiteOnly_self RegionItem.decode_finiteOnly items))) rfl ?_)
    simp [FaceRegion.encode, FaceRegion.members, numbers, memberNumbers]

theorem Ridge.decode_finiteOnly (r : Ridge Float) :
    (Ridge.decode r.encode.finiteOnly).Loses r (lost r.encode.numbers) := by
  rw [Ridge.encode, finiteOnly, Ridge.decode, thing_obj]
  refine .congr (.seq (.seq (.seq (.seq (.seq (.map _ (required_finiteMembers rfl .nothing))
    (required_finiteMembers rfl r.start.decode_finiteOnly))
    (required_finiteMembers rfl r.finish.decode_finiteOnly))
    (required_finiteMembers rfl (number_finiteOnly r.height)))
    (withDefault_finiteMembers rfl _ .nothing)) (withDefault_finiteMembers rfl _ .nothing)) rfl ?_
  simp only [numbers, memberNumbers, lost_append, lost_nil, Nat.add_zero]
  omega

theorem RidgeLine.decode_finiteOnly (r : RidgeLine Float) :
    (RidgeLine.decode r.encode.finiteOnly).Loses r (lost r.encode.numbers) := by
  rw [RidgeLine.encode, finiteOnly, RidgeLine.decode, thing_obj]
  refine .congr (.seq (.map _ (required_finiteMembers rfl r.start.decode_finiteOnly))
    (required_finiteMembers rfl r.finish.decode_finiteOnly)) rfl ?_
  simp only [numbers, memberNumbers, lost_append, lost_nil, Nat.add_zero]

/-- A face loses the numbers of its points and of its region, and its span is unset. -/
theorem RoofFace.decode_finiteOnly (f : RoofFace Float) :
    (RoofFace.decode f.encode.finiteOnly).Loses f.asWritten (lost f.asWritten.encode.numbers) := by
  have hstring := nullable_finiteOnly (d := string) (f := .str) (fun _ => .nothing) nofun
  have hside := nullable_finiteOnly (d := word Side.words) (f := .str ∘ Side.word)
    (fun s => .of_eq_value (Side.decode_word s)) nofun
  have hend := nullable_finiteOnly (d := word RidgeEnd.words) (f := .str ∘ RidgeEnd.word)
    (fun e => .of_eq_value (RidgeEnd.decode_word e)) nofun
  have hpoint := nullable_finiteOnly PlanePoint.decode_finiteOnly nofun
  have hnumber := fun o => Decoded.Loses.of_eq_value (nullable_number_finiteOnly o)
  rw [RoofFace.encode, finiteOnly, RoofFace.decode, thing_obj]
  refine .congr (.seq (.seq (.seq (.seq (.seq (.seq (.seq (.seq (.seq (.seq
    (.map _ (required_finiteMembers rfl .nothing))
    (required_finiteMembers rfl (.of_eq_value (FaceKind.decode_word f.kind))))
    (withDefault_finiteMembers rfl _ (hstring f.ridgeId)))
    (withDefault_finiteMembers rfl _ (hnumber f.ridgeT0)))
    (withDefault_finiteMembers rfl _ (hnumber f.ridgeT1)))
    (withDefault_finiteMembers rfl _ (hside f.side)))
    (withDefault_finiteMembers rfl _ (hend f.capEnd)))
    (withDefault_finiteMembers rfl _ (hpoint f.p1)))
    (withDefault_finiteMembers rfl _ (hpoint f.p2)))
    (withDefault_finiteMembers rfl _ (hpoint f.p3)))
    (required_finiteMembers rfl f.region.decode_finiteOnly)) rfl ?_
  have hspan : ∀ o : Option Float, lost (ofOption .num (o.filter Float.isFinite)).numbers = 0 := by
    rintro (_ | x)
    · rfl
    · by_cases hx : x.isFinite = true <;> simp [Option.filter_some, hx, ofOption, numbers, lost]
  simp only [RoofFace.encode, RoofFace.asWritten, numbers, memberNumbers, lost_append, lost_nil,
    hspan]
  omega

/-- A roof loses the numbers that it has to have. -/
theorem Roof.decode_finiteOnly (r : Roof Float) :
    (Roof.decode r.encode.finiteOnly).Loses r.asWritten (lost r.asWritten.encode.numbers) := by
  have htag : Roof.decode r.encode.finiteOnly = selectVariant (.member "type") variants
    (.str r.tag) (finiteMembers (("type", .str r.tag) :: r.members)) := rfl
  rw [htag]
  cases r with
  | flat r =>
    have hstring := nullable_finiteOnly (d := string) (f := .str) (fun _ => .nothing) nofun
    refine selectVariant_loses rfl (.congr (.map _ (.seq (.seq (.seq (.seq
      (.map _ (required_finiteMembers rfl .nothing))
      (required_finiteMembers rfl .nothing))
      (withDefault_finiteMembers rfl _ (hstring r.subtractAboveLevelId)))
      (withDefault_finiteMembers rfl _ (number_finiteOnly r.thickness)))
      (withDefault_finiteMembers rfl _ (number_finiteOnly r.overhang)))) rfl ?_)
    simp only [asWritten, Roof.encode, Roof.members, numbers, memberNumbers, lost_append, lost_nil]
    omega
  | gable r =>
    refine selectVariant_loses rfl (.congr (.map _ (.seq (.seq (.seq (.seq (.seq (.seq
      (.map _ (required_finiteMembers rfl .nothing))
      (required_finiteMembers rfl .nothing))
      (required_finiteMembers rfl (number_finiteOnly r.eaveHeight)))
      (required_finiteMembers rfl (number_finiteOnly r.ridgeHeight)))
      (required_finiteMembers rfl r.ridge.decode_finiteOnly))
      (withDefault_finiteMembers rfl _ (number_finiteOnly r.overhang)))
      (withDefault_finiteMembers rfl _ (number_finiteOnly r.thickness)))) rfl ?_)
    simp only [asWritten, Roof.encode, Roof.members, numbers, memberNumbers, lost_append, lost_nil]
    omega
  | multiRidge r =>
    refine selectVariant_loses rfl (.congr (.map _ (.seq (.seq (.seq (.seq (.seq
      (.map _ (required_finiteMembers rfl .nothing))
      (required_finiteMembers rfl .nothing))
      (required_finiteMembers rfl (number_finiteOnly r.eaveHeight)))
      (withDefault_finiteMembers rfl _ (number_finiteOnly r.thickness)))
      (withDefault_finiteMembers rfl _ (number_finiteOnly r.overhang)))
      (required_finiteMembers rfl (list_finiteOnly_self Ridge.decode_finiteOnly r.ridges)))) rfl ?_)
    simp only [asWritten, Roof.encode, Roof.members, numbers, memberNumbers, lost_append, lost_nil]
    omega
  | multiPlane r =>
    refine selectVariant_loses rfl (.congr (.map _ (.seq (.seq (.seq (.seq (.seq (.seq
      (.map _ (required_finiteMembers rfl .nothing))
      (required_finiteMembers rfl .nothing))
      (withDefault_finiteMembers rfl _ (number_finiteOnly r.eaveHeight)))
      (withDefault_finiteMembers rfl _ (number_finiteOnly r.thickness)))
      (withDefault_finiteMembers rfl _ (number_finiteOnly r.overhang)))
      (withDefault_finiteMembers rfl _ (list_finiteOnly_self Ridge.decode_finiteOnly r.ridges)))
      (withDefault_finiteMembers rfl _ (list_finiteOnly RoofFace.decode_finiteOnly r.faces))))
      rfl ?_)
    simp only [asWritten, Roof.encode, Roof.members, numbers, memberNumbers, lost_append, lost_nil]
    omega

theorem Ring.decode_finiteOnly (r : Ring Float) :
    (list Point.decode (Ring.encode r).finiteOnly).Loses r (lost (Ring.encode r).numbers) :=
  list_finiteOnly_self Point.decode_finiteOnly r

theorem Footprint.decode_finiteOnly (f : Footprint Float) :
    (Footprint.decode f.encode.finiteOnly).Loses f (lost f.encode.numbers) := by
  rw [Footprint.encode, finiteOnly, Footprint.decode, thing_obj]
  refine .congr (.seq (.map _ (required_finiteMembers rfl (Ring.decode_finiteOnly f.outer)))
    (withDefault_finiteMembers rfl _ (list_finiteOnly_self Ring.decode_finiteOnly f.holes))) rfl ?_
  simp only [numbers, memberNumbers, lost_append, lost_nil, Nat.add_zero]

theorem SlabSpec.decode_finiteOnly (s : SlabSpec Float) :
    (SlabSpec.decode s.encode.finiteOnly).Loses s (lost s.encode.numbers) := by
  rw [SlabSpec.encode, finiteOnly, SlabSpec.decode, thing_obj]
  refine .congr (.seq (.map _ (required_finiteMembers rfl (number_finiteOnly s.thickness)))
    (withDefault_finiteMembers rfl _ (number_finiteOnly s.inset))) rfl ?_
  simp only [numbers, memberNumbers, lost_append, lost_nil, Nat.add_zero]

theorem Level.decode_finiteOnly (l : Level Float) :
    (Level.decode l.encode.finiteOnly).Loses l (lost l.encode.numbers) := by
  have hslab := nullable_finiteOnly SlabSpec.decode_finiteOnly nofun
  rw [Level.encode, finiteOnly, Level.decode, thing_obj]
  refine .congr (.seq (.seq (.seq (.seq (.map _ (required_finiteMembers rfl .nothing))
    (required_finiteMembers rfl (number_finiteOnly l.elevation)))
    (required_finiteMembers rfl (number_finiteOnly l.height)))
    (required_finiteMembers rfl l.footprint.decode_finiteOnly))
    (withDefault_finiteMembers rfl _ (hslab l.slab))) rfl ?_
  simp only [numbers, memberNumbers, lost_append, lost_nil]
  omega

/-- An edge reference has no number to lose. -/
theorem EdgeRef.decode_finiteOnly (e : EdgeRef) :
    (EdgeRef.decode e.encode.finiteOnly).Loses e 0 := by
  have hside : (ofOption (.str ∘ Side.word) e.outwardSide).finiteOnly =
      ofOption (.str ∘ Side.word) e.outwardSide := by
    cases e.outwardSide <;> rfl
  have hself : e.encode.finiteOnly = e.encode := by
    simp [EdgeRef.encode, finiteOnly, finiteMembers, hside]
  exact .of_eq_value (hself.symm ▸ e.decode_encode)

/-- An opening loses the numbers that it has to have, and in its style numbers become `null`. -/
theorem Opening.decode_finiteOnly (o : Opening Float) :
    (Opening.decode o.encode.finiteOnly).Loses o.asWritten (lost o.asWritten.encode.numbers) := by
  have hstyle : (nullable anyObject (ofOption .obj o.style).finiteOnly).Loses
      (o.style.map finiteMembers) (lost (ofOption .obj (o.style.map finiteMembers)).numbers) := by
    cases o.style with
    | none => exact .nothing
    | some ms =>
      have hnone : lost (Json.obj ms).finiteOnly.numbers = 0 :=
        lost_eq_zero_iff.2 fun x hx => (mem_numbers_finiteOnly.1 hx).2
      exact .congr .nothing rfl hnone.symm
  have hkind : (namedKind OpeningKind.words (Json.str o.kind.word).finiteOnly).Loses o.kind 0 :=
    .of_eq_value (OpeningKind.decode_word o.kind)
  rw [Opening.encode, finiteOnly, Opening.decode, thing_obj]
  refine .congr (.seq (.seq (.seq (.seq (.seq (.seq (.seq (.seq
    (.map _ (required_finiteMembers rfl .nothing))
    (withDefault_finiteMembers rfl _ hkind))
    (required_finiteMembers rfl .nothing))
    (required_finiteMembers rfl o.edge.decode_finiteOnly))
    (required_finiteMembers rfl (number_finiteOnly o.offset)))
    (required_finiteMembers rfl (number_finiteOnly o.width)))
    (required_finiteMembers rfl (number_finiteOnly o.height)))
    (withDefault_finiteMembers rfl _ (number_finiteOnly o.sillHeight)))
    (withDefault_finiteMembers rfl _ hstyle)) rfl ?_
  have hedge : lost o.edge.encode.numbers = 0 := by
    cases h : o.edge.outwardSide <;> simp [EdgeRef.encode, h, ofOption, numbers, memberNumbers]
  simp only [Opening.asWritten, Opening.encode, numbers, memberNumbers, lost_append, lost_nil,
    hedge]
  omega

/-- **What is left of a house.**  Decoding the encoding of a house without its lost numbers gives
the house as its file has it, or a complaint about each number that has to be there. -/
theorem House.decode_finiteOnly (h : House Float) :
    (House.decode h.encode.finiteOnly).Loses h.asWritten (lost h.asWritten.encode.numbers) := by
  have hgaps := list_finiteOnly_self (d := string) (f := .str) (fun _ => .nothing)
    h.supportGapLevelIds
  have hconvention : (namedKind ElevationConvention.words
      (Json.str h.elevationConvention.word).finiteOnly).Loses h.elevationConvention 0 :=
    .of_eq_value (ElevationConvention.decode_word h.elevationConvention)
  rw [House.encode, finiteOnly, House.decode, thing_obj]
  refine .congr (.seq (.seq (.seq (.seq (.seq (.seq (.seq
    (.map _ (withDefault_finiteMembers rfl _ .nothing))
    (withDefault_finiteMembers rfl _ (number_finiteOnly h.wallThickness)))
    (withDefault_finiteMembers rfl _ hconvention))
    (withDefault_finiteMembers rfl _ .nothing))
    (withDefault_finiteMembers rfl _ hgaps))
    (withDefault_finiteMembers rfl _ (list_finiteOnly_self Level.decode_finiteOnly h.levels)))
    (withDefault_finiteMembers rfl _ (list_finiteOnly Roof.decode_finiteOnly h.roofs)))
    (withDefault_finiteMembers rfl _ (list_finiteOnly Opening.decode_finiteOnly h.openings))) rfl ?_
  simp only [House.asWritten, House.encode, numbers, memberNumbers, lost_append, lost_nil]
  omega

/-! ## The file of a house -/

/-- What is loaded from the text that is saved for a house. -/
structure House.LeftIn (h : House Float) (text : String) : Prop where
  /-- The text is accepted if every number that a house has to have is finite, and then it gives
  the house without its other numbers that are not. -/
  accepted : ∀ h', House.load text = .ok h' ↔
    (∀ x ∈ h.asWritten.encode.numbers, x.isFinite = true) ∧ h' = h.asWritten
  /-- Else it is refused, with one complaint for each such number: a number was expected. -/
  refused : ∀ e, House.load text = .error e → ∃ cs, e = .complaints cs ∧
    cs.length = lost h.asWritten.encode.numbers ∧ ∀ c ∈ cs, c.reason = .expectedNumber
  /-- Nothing is lost only if there was nothing to lose. -/
  intact : House.load text = .ok h ↔ ∀ x ∈ h.encode.numbers, x.isFinite = true
  /-- No number that is not finite comes back. -/
  finite : ∀ h', House.load text = .ok h' → ∀ x ∈ h'.encode.numbers, x.isFinite = true

/-- **What is left of a house in its file.** -/
theorem House.leftIn_save {h : House Float} (hopenings : ∀ o ∈ h.openings, o.PassedOnReadable) :
    h.LeftIn h.save := by
  have hparse : parse? h.save = some h.encode.finiteOnly :=
    parse?_render (House.encode_readable hopenings).finiteOnly
      (fun x hx => (mem_numbers_finiteOnly.1 hx).2)
      fun x hx => readsBack_of_isFinite (mem_numbers_finiteOnly.1 hx).2
  have hloses := House.decode_finiteOnly h
  have haccepted : ∀ h', House.load h.save = .ok h' ↔
      (∀ x ∈ h.asWritten.encode.numbers, x.isFinite = true) ∧ h' = h.asWritten := by
    intro h'
    rw [← lost_eq_zero_iff, ← hloses.eq_value_iff, House.load, hparse]
    dsimp only
    cases House.decode h.encode.finiteOnly with
    | value a => simp
    | refused cs => simp
  refine ⟨haccepted, fun e he => ?_, ⟨fun hload => ?_, fun hfinite => ?_⟩, fun h' hload => ?_⟩
  · rw [House.load, hparse] at he
    dsimp only at he
    split at he
    · cases he
    next cs hcs => exact ⟨cs, (Except.error.inj he).symm, hloses.of_eq_refused hcs⟩
  · obtain ⟨hfinite, hself⟩ := (haccepted h).1 hload
    exact hself ▸ hfinite
  · rw [House.save, finiteOnly_eq_self hfinite]
    exact House.load_render (House.encode_readable hopenings) hfinite
      (fun x hx => readsBack_of_isFinite (hfinite x hx)) (House.decode_encode h)
  · obtain ⟨hfinite, rfl⟩ := (haccepted h').1 hload
    exact hfinite

end Housewright
