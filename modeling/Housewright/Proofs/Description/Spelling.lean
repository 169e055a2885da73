import Housewright.Proofs.Json.Inversion
import Housewright.Proofs.Json.RoundTrip
import Housewright.Proofs.Json.Spelling
import Housewright.Description.Decoder

/-!
# House files that are spelled differently

Every described thing has a schema, which lists its fields as its decoder does, and its decoder
follows that schema.  So a house file may spell its keys in camel case or in snake case, hold
members that name no field, and leave out the tag of a divider that was written out: the same
house is loaded from it, or the same complaints are made.  What does change with the spelling of
a key is its name in the places of complaints.

## Main results

* `House.decode_follows` : the decoder of houses follows their schema.
* `House.load_respelled` : what is loaded from files that differ in spelling.
* `House.spelling_shows` : the spelling of a key shows in the place of a complaint.
-/

namespace Housewright

open Json

/-! ## Schemas of described things -/

/-- The fields of a point. -/
def Point.fields : List (String × Schema) := [("x", .plain), ("y", .plain)]

/-- The fields of a plan point with a height. -/
def PlanePoint.fields : List (String × Schema) := [("x", .plain), ("y", .plain), ("h", .plain)]

/-- The fields of a half-plane. -/
def HalfPlane.fields : List (String × Schema) :=
  [("a", .thing Point.fields), ("b", .thing Point.fields), ("keep", .plain)]

/-- The fields of a ridge line. -/
def RidgeLine.fields : List (String × Schema) :=
  [("start", .thing Point.fields), ("end", .thing Point.fields)]

/-- The fields of a ridge. -/
def Ridge.fields : List (String × Schema) :=
  [("id", .plain), ("start", .thing Point.fields), ("end", .thing Point.fields),
    ("height", .plain), ("hipStart", .plain), ("hipEnd", .plain)]

/-- The fields of a divider that was written out. -/
def RegionItem.materializedFields : List (String × Schema) :=
  HalfPlane.fields ++ [("ridgeId", .plain)]

/-- The fields of a divider that refers to its ridge. -/
def RegionItem.dividerFields : List (String × Schema) := [("ridgeId", .plain), ("keep", .plain)]

/-- The fields of a cut across a ridge. -/
def RegionItem.cutFields : List (String × Schema) :=
  [("ridgeId", .plain), ("t", .plain), ("keep", .plain)]

/-- The region items, by their tags. -/
def RegionItem.schemas : List (String × List (String × Schema)) :=
  [("explicit", HalfPlane.fields), ("materializedDivider", materializedFields),
    ("ridgeDivider", dividerFields), ("ridgePerpCut", cutFields)]

/-- Region items: the tag of a divider that was written out may be left out. -/
def RegionItem.schema : Schema := .tagged (some "materializedDivider") schemas

/-- The fields of a region of half-planes. -/
def FaceRegion.planesFields : List (String × Schema) :=
  [("planes", .list (.thing HalfPlane.fields))]

/-- The fields of the triangle at one end of a ridge. -/
def FaceRegion.capFields : List (String × Schema) := [("ridgeId", .plain), ("end", .plain)]

/-- The fields of a compound region. -/
def FaceRegion.compoundFields : List (String × Schema) := [("items", .list RegionItem.schema)]

/-- Face regions. -/
def FaceRegion.schema : Schema :=
  .tagged none
    [("halfPlanes", planesFields), ("ridgeCapTriangle", capFields), ("compound", compoundFields)]

/-- The fields of a roof face. -/
def RoofFace.fields : List (String × Schema) :=
  [("id", .plain), ("kind", .plain), ("ridgeId", .plain), ("ridgeT0", .plain),
    ("ridgeT1", .plain), ("side", .plain), ("capEnd", .plain), ("p1", .thing PlanePoint.fields),
    ("p2", .thing PlanePoint.fields), ("p3", .thing PlanePoint.fields),
    ("region", FaceRegion.schema)]

/-- The fields of a flat roof. -/
def FlatRoof.fields : List (String × Schema) :=
  [("id", .plain), ("baseLevelId", .plain), ("subtractAboveLevelId", .plain),
    ("thickness", .plain), ("overhang", .plain)]

/-- The fields of a gable roof. -/
def GableRoof.fields : List (String × Schema) :=
  [("id", .plain), ("baseLevelId", .plain), ("eaveHeight", .plain), ("ridgeHeight", .plain),
    ("ridge", .thing RidgeLine.fields), ("overhang", .plain), ("thickness", .plain)]

/-- The fields of a roof that is split through its first ridge. -/
def MultiRidgeRoof.fields : List (String × Schema) :=
  [("id", .plain), ("baseLevelId", .plain), ("eaveHeight", .plain), ("thickness", .plain),
    ("overhang", .plain), ("ridgeSegments", .list (.thing Ridge.fields))]

/-- The fields of a multi-plane roof. -/
def MultiPlaneRoof.fields : List (String × Schema) :=
  [("id", .plain), ("baseLevelId", .plain), ("eaveHeight", .plain), ("thickness", .plain),
    ("overhang", .plain), ("ridgeSegments", .list (.thing Ridge.fields)),
    ("faces", .list (.thing RoofFace.fields))]

/-- Roofs. -/
def Roof.schema : Schema :=
  .tagged none
    [("flat", FlatRoof.fields), ("gable", GableRoof.fields), ("multi-ridge", MultiRidgeRoof.fields),
      ("multi-plane", MultiPlaneRoof.fields)]

/-- The fields of a footprint. -/
def Footprint.fields : List (String × Schema) :=
  [("outer", .list (.thing Point.fields)), ("holes", .list (.list (.thing Point.fields)))]

/-- The fields of a slab. -/
def SlabSpec.fields : List (String × Schema) := [("thickness", .plain), ("inset", .plain)]

/-- The fields of a level. -/
def Level.fields : List (String × Schema) :=
  [("id", .plain), ("elevation", .plain), ("height", .plain),
    ("footprint", .thing Footprint.fields), ("slab", .thing SlabSpec.fields)]

/-- The fields of an edge reference. -/
def EdgeRef.fields : List (String × Schema) :=
  [("edgeIndex", .plain), ("fromEnd", .plain), ("outwardSide", .plain)]

/-- The fields of an opening; its style is passed on as it is. -/
def Opening.fields : List (String × Schema) :=
  [("id", .plain), ("kind", .plain), ("levelId", .plain), ("edge", .thing EdgeRef.fields),
    ("offset", .plain), ("width", .plain), ("height", .plain), ("sillHeight", .plain),
    ("style", .asIs)]

/-- The fields of a house. -/
def House.fields : List (String × Schema) :=
  [("name", .plain), ("wallThickness", .plain), ("elevationConvention", .plain),
    ("allowGroundSupport", .plain), ("supportGapLevelIds", .list .plain),
    ("levels", .list (.thing Level.fields)), ("roofs", .list Roof.schema),
    ("openings", .list (.thing Opening.fields))]

/-- The fields of everything that is described. -/
def allFields : List (List (String × Schema)) :=
  [Point.fields, PlanePoint.fields, HalfPlane.fields, RidgeLine.fields, Ridge.fields,
    RegionItem.materializedFields, RegionItem.dividerFields, RegionItem.cutFields,
    FaceRegion.planesFields, FaceRegion.capFields, FaceRegion.compoundFields, RoofFace.fields,
    FlatRoof.fields, GableRoof.fields, MultiRidgeRoof.fields, MultiPlaneRoof.fields,
    Footprint.fields, SlabSpec.fields, Level.fields, EdgeRef.fields, Opening.fields, House.fields]

/-- The fields of no thing have a spelling in common. -/
theorem spelledApart_of_mem : ∀ fields ∈ allFields, SpelledApart fields := by decide +kernel

/-! ## Decoders -/

theorem Point.decode_follows : Follows Point.decode (.thing Point.fields) := by
  have hapart := spelledApart_of_mem Point.fields (by simp [allFields])
  exact thing_follows (.seq (.map (required_follows hapart (by simp [fields]) number_follows) _)
    (required_follows hapart (by simp [fields]) number_follows))

theorem HalfPlane.decodeFields_follows {fields : List (String × Schema)}
    (hapart : SpelledApart fields) (ha : ("a", .thing Point.fields) ∈ fields)
    (hb : ("b", .thing Point.fields) ∈ fields) (hkeep : ("keep", .plain) ∈ fields) :
    FieldsFollow HalfPlane.decodeFields fields :=
  .seq (.seq (.map (required_follows hapart ha Point.decode_follows) _)
    (required_follows hapart hb Point.decode_follows))
    (required_follows hapart hkeep (word_follows _))

theorem PlanePoint.decode_follows : Follows PlanePoint.decode (.thing PlanePoint.fields) := by
  have hapart := spelledApart_of_mem PlanePoint.fields (by simp [allFields])
  exact thing_follows (.seq (.seq
    (.map (required_follows hapart (by simp [fields]) number_follows) _)
    (required_follows hapart (by simp [fields]) number_follows))
    (required_follows hapart (by simp [fields]) number_follows))

theorem HalfPlane.decode_follows : Follows HalfPlane.decode (.thing HalfPlane.fields) :=
  thing_follows (HalfPlane.decodeFields_follows
    (spelledApart_of_mem HalfPlane.fields (by simp [allFields])) (by simp [fields])
    (by simp [fields]) (by simp [fields]))

theorem RidgeLine.decode_follows : Follows RidgeLine.decode (.thing RidgeLine.fields) := by
  have hapart := spelledApart_of_mem RidgeLine.fields (by simp [allFields])
  exact thing_follows (.seq
    (.map (required_follows hapart (by simp [fields]) Point.decode_follows) _)
    (required_follows hapart (by simp [fields]) Point.decode_follows))

theorem Ridge.decode_follows : Follows Ridge.decode (.thing Ridge.fields) := by
  have hapart := spelledApart_of_mem Ridge.fields (by simp [allFields])
  exact thing_follows (.seq (.seq (.seq (.seq (.seq
    (.map (required_follows hapart (by simp [fields]) string_follows) _)
    (required_follows hapart (by simp [fields]) Point.decode_follows))
    (required_follows hapart (by simp [fields]) Point.decode_follows))
    (required_follows hapart (by simp [fields]) number_follows))
    (withDefault_follows hapart (by simp [fields]) boolean_follows _))
    (withDefault_follows hapart (by simp [fields]) boolean_follows _))

/-! ### Regions -/

/-- The variants of region items follow the schemas of their tags. -/
theorem RegionItem.variants_follow :
    VariantsFollow RegionItem.variants RegionItem.schemas := by
  have hplane := spelledApart_of_mem HalfPlane.fields (by simp [allFields])
  have hmaterialized := spelledApart_of_mem materializedFields (by simp [allFields])
  have hdivider := spelledApart_of_mem dividerFields (by simp [allFields])
  have hcut := spelledApart_of_mem cutFields (by simp [allFields])
  refine .cons ⟨rfl, ?_⟩ (.cons ⟨rfl, ?_⟩ (.cons ⟨rfl, ?_⟩ (.cons ⟨rfl, ?_⟩ .nil)))
  · exact .map (HalfPlane.decodeFields_follows hplane (by simp [HalfPlane.fields])
      (by simp [HalfPlane.fields]) (by simp [HalfPlane.fields])) _
  · exact .seq (.map (HalfPlane.decodeFields_follows hmaterialized
      (by simp [materializedFields, HalfPlane.fields])
      (by simp [materializedFields, HalfPlane.fields])
      (by simp [materializedFields, HalfPlane.fields])) _)
      (maybe_follows hmaterialized (by simp [materializedFields]) string_follows)
  · exact .seq (.map (required_follows hdivider (by simp [dividerFields]) string_follows) _)
      (required_follows hdivider (by simp [dividerFields]) (word_follows _))
  · exact .seq (.seq (.map (required_follows hcut (by simp [cutFields]) string_follows) _)
      (required_follows hcut (by simp [cutFields]) number_follows))
      (required_follows hcut (by simp [cutFields]) (word_follows _))

/-- The tag of a region item selects its variant, also if it was left out. -/
theorem RegionItem.decode_obj {ms : List (String × Json)} {tag : String}
    (h : tagOf? (some "materializedDivider") ms = some tag) :
    RegionItem.decode (.obj ms) = selectVariant tagRule variants (.str tag) ms := by
  rw [tagOf?] at h
  rw [RegionItem.decode]
  split at h
  next hms =>
    rw [hms]
    obtain rfl := Option.some.inj h
    rfl
  · cases h
  next hms =>
    rw [hms]
    obtain rfl := Option.some.inj h
    rfl

theorem RegionItem.decode_follows : Follows RegionItem.decode RegionItem.schema := by
  intro j j' f h
  cases h with
  | @tag _ _ pre post hnone =>
    have hwithout : tagOf? (some "materializedDivider") (pre ++ post) =
        some "materializedDivider" := by
      rw [tagOf?, member?_eq_none hnone]
    have hwith : tagOf? (some "materializedDivider")
        (pre ++ ("type", .str "materializedDivider") :: post) = some "materializedDivider" := by
      rw [tagOf?, member?_middle fun m hm => hnone m (List.mem_append_left _ hm)]
    rw [decode_obj hwithout, decode_obj hwith, ← under_id (.key "materializedDivider")]
    have hadded : Respells (.thing materializedFields) (.obj (pre ++ ([] ++ post)))
        (.obj (pre ++ ([("type", .str "materializedDivider")] ++ post))) id :=
      .unknown (by simp) (List.forall_mem_singleton.2 (by decide +kernel))
    exact selectVariant_respelled variants_follow rfl hadded
  | @variant _ _ tag fields ms ms' f hvariant htag htype h =>
    have htag' : tagOf? (some "materializedDivider") ms' = some tag := by
      rw [tagOf?, htype]
      exact htag
    rw [decode_obj htag, decode_obj htag']
    exact selectVariant_respelled variants_follow hvariant h
  | @noVariant _ _ ms ms' hnone htype =>
    rw [decode, decode, htype, Decoded.relocate_id]
    cases hms : member? "type" ms with
    | none => cases hnone "materializedDivider" (by rw [tagOf?, hms])
    | some tag =>
      have hunknown : ∀ t, tag = .str t → RegionItem.schemas.lookup t = none := by
        rintro t rfl
        exact hnone t (by rw [tagOf?, hms])
      cases tag with
      | null => rfl
      | _ => exact selectVariant_unknown variants_follow hunknown
  | misplacedObject hs => exact absurd hs id
  | misplacedArray => rw [Decoded.relocate_id]; rfl

theorem FaceRegion.decode_follows : Follows FaceRegion.decode FaceRegion.schema := by
  have hplanes := spelledApart_of_mem planesFields (by simp [allFields])
  have hcap := spelledApart_of_mem capFields (by simp [allFields])
  have hitems := spelledApart_of_mem compoundFields (by simp [allFields])
  refine tagged_follows (.cons ⟨rfl, ?_⟩ (.cons ⟨rfl, ?_⟩ (.cons ⟨rfl, ?_⟩ .nil)))
  · exact .map (required_follows hplanes (by simp [planesFields])
      (list_follows HalfPlane.decode_follows)) _
  · exact .seq (.map (required_follows hcap (by simp [capFields]) string_follows) _)
      (required_follows hcap (by simp [capFields]) (word_follows _))
  · exact .map (required_follows hitems (by simp [compoundFields])
      (list_follows RegionItem.decode_follows)) _

theorem RoofFace.decode_follows : Follows RoofFace.decode (.thing RoofFace.fields) := by
  have hapart := spelledApart_of_mem RoofFace.fields (by simp [allFields])
  exact thing_follows (.seq (.seq (.seq (.seq (.seq (.seq (.seq (.seq (.seq (.seq
    (.map (required_follows hapart (by simp [fields]) string_follows) _)
    (required_follows hapart (by simp [fields]) (word_follows _)))
    (maybe_follows hapart (by simp [fields]) string_follows))
    (maybe_follows hapart (by simp [fields]) number_follows))
    (maybe_follows hapart (by simp [fields]) number_follows))
    (maybe_follows hapart (by simp [fields]) (word_follows _)))
    (maybe_follows hapart (by simp [fields]) (word_follows _)))
    (maybe_follows hapart (by simp [fields]) PlanePoint.decode_follows))
    (maybe_follows hapart (by simp [fields]) PlanePoint.decode_follows))
    (maybe_follows hapart (by simp [fields]) PlanePoint.decode_follows))
    (required_follows hapart (by simp [fields]) FaceRegion.decode_follows))

/-! ### Roofs -/

theorem FlatRoof.decodeFields_follow : FieldsFollow FlatRoof.decodeFields FlatRoof.fields := by
  have hapart := spelledApart_of_mem FlatRoof.fields (by simp [allFields])
  exact .seq (.seq (.seq (.seq
    (.map (required_follows hapart (by simp [fields]) string_follows) _)
    (required_follows hapart (by simp [fields]) string_follows))
    (maybe_follows hapart (by simp [fields]) string_follows))
    (withDefault_follows hapart (by simp [fields]) number_follows _))
    (withDefault_follows hapart (by simp [fields]) number_follows _)

theorem GableRoof.decodeFields_follow : FieldsFollow GableRoof.decodeFields GableRoof.fields := by
  have hapart := spelledApart_of_mem GableRoof.fields (by simp [allFields])
  exact .seq (.seq (.seq (.seq (.seq (.seq
    (.map (required_follows hapart (by simp [fields]) string_follows) _)
    (required_follows hapart (by simp [fields]) string_follows))
    (required_follows hapart (by simp [fields]) number_follows))
    (required_follows hapart (by simp [fields]) number_follows))
    (required_follows hapart (by simp [fields]) RidgeLine.decode_follows))
    (withDefault_follows hapart (by simp [fields]) number_follows _))
    (withDefault_follows hapart (by simp [fields]) number_follows _)

theorem MultiRidgeRoof.decodeFields_follow :
    FieldsFollow MultiRidgeRoof.decodeFields MultiRidgeRoof.fields := by
  have hapart := spelledApart_of_mem MultiRidgeRoof.fields (by simp [allFields])
  exact .seq (.seq (.seq (.seq (.seq
    (.map (required_follows hapart (by simp [fields]) string_follows) _)
    (required_follows hapart (by simp [fields]) string_follows))
    (required_follows hapart (by simp [fields]) number_follows))
    (withDefault_follows hapart (by simp [fields]) number_follows _))
    (withDefault_follows hapart (by simp [fields]) number_follows _))
    (required_follows hapart (by simp [fields]) (list_follows Ridge.decode_follows))

theorem MultiPlaneRoof.decodeFields_follow :
    FieldsFollow MultiPlaneRoof.decodeFields MultiPlaneRoof.fields := by
  have hapart := spelledApart_of_mem MultiPlaneRoof.fields (by simp [allFields])
  exact .seq (.seq (.seq (.seq (.seq (.seq
    (.map (required_follows hapart (by simp [fields]) string_follows) _)
    (required_follows hapart (by simp [fields]) string_follows))
    (withDefault_follows hapart (by simp [fields]) number_follows _))
    (withDefault_follows hapart (by simp [fields]) number_follows _))
    (withDefault_follows hapart (by simp [fields]) number_follows _))
    (withDefault_follows hapart (by simp [fields]) (list_follows Ridge.decode_follows) _))
    (withDefault_follows hapart (by simp [fields]) (list_follows RoofFace.decode_follows) _)

theorem Roof.decode_follows : Follows Roof.decode Roof.schema :=
  tagged_follows (.cons ⟨rfl, FlatRoof.decodeFields_follow.map _⟩
    (.cons ⟨rfl, GableRoof.decodeFields_follow.map _⟩
    (.cons ⟨rfl, MultiRidgeRoof.decodeFields_follow.map _⟩
    (.cons ⟨rfl, MultiPlaneRoof.decodeFields_follow.map _⟩ .nil))))

/-! ### Levels, openings and houses -/

theorem Footprint.decode_follows : Follows Footprint.decode (.thing Footprint.fields) := by
  have hapart := spelledApart_of_mem Footprint.fields (by simp [allFields])
  exact thing_follows (.seq
    (.map (required_follows hapart (by simp [fields]) (list_follows Point.decode_follows)) _)
    (withDefault_follows hapart (by simp [fields])
      (list_follows (list_follows Point.decode_follows)) _))

theorem SlabSpec.decode_follows : Follows SlabSpec.decode (.thing SlabSpec.fields) := by
  have hapart := spelledApart_of_mem SlabSpec.fields (by simp [allFields])
  exact thing_follows (.seq
    (.map (required_follows hapart (by simp [fields]) number_follows) _)
    (withDefault_follows hapart (by simp [fields]) number_follows _))

theorem Level.decode_follows : Follows Level.decode (.thing Level.fields) := by
  have hapart := spelledApart_of_mem Level.fields (by simp [allFields])
  exact thing_follows (.seq (.seq (.seq (.seq
    (.map (required_follows hapart (by simp [fields]) string_follows) _)
    (required_follows hapart (by simp [fields]) number_follows))
    (required_follows hapart (by simp [fields]) number_follows))
    (required_follows hapart (by simp [fields]) Footprint.decode_follows))
    (maybe_follows hapart (by simp [fields]) SlabSpec.decode_follows))

theorem EdgeRef.decode_follows : Follows EdgeRef.decode (.thing EdgeRef.fields) := by
  have hapart := spelledApart_of_mem EdgeRef.fields (by simp [allFields])
  exact thing_follows (.seq (.seq
    (.map (required_follows hapart (by simp [fields]) integer_follows) _)
    (withDefault_follows hapart (by simp [fields]) boolean_follows _))
    (maybe_follows hapart (by simp [fields]) (word_follows _)))

theorem Opening.decode_follows : Follows Opening.decode (.thing Opening.fields) := by
  have hapart := spelledApart_of_mem Opening.fields (by simp [allFields])
  exact thing_follows (.seq (.seq (.seq (.seq (.seq (.seq (.seq (.seq
    (.map (required_follows hapart (by simp [fields]) string_follows) _)
    (withDefault_follows hapart (by simp [fields]) (namedKind_follows _) _))
    (required_follows hapart (by simp [fields]) string_follows))
    (required_follows hapart (by simp [fields]) EdgeRef.decode_follows))
    (required_follows hapart (by simp [fields]) number_follows))
    (required_follows hapart (by simp [fields]) number_follows))
    (required_follows hapart (by simp [fields]) number_follows))
    (withDefault_follows hapart (by simp [fields]) number_follows _))
    (maybe_follows hapart (by simp [fields]) follows_asIs))

/-- **The decoder of houses makes no difference between spellings**, but for the keys in the
places of complaints. -/
theorem House.decode_follows : Follows House.decode (.thing House.fields) := by
  have hapart := spelledApart_of_mem House.fields (by simp [allFields])
  exact thing_follows (.seq (.seq (.seq (.seq (.seq (.seq (.seq
    (.map (withDefault_follows hapart (by simp [fields]) string_follows _) _)
    (withDefault_follows hapart (by simp [fields]) number_follows _))
    (withDefault_follows hapart (by simp [fields]) (namedKind_follows _) _))
    (withDefault_follows hapart (by simp [fields]) boolean_follows _))
    (withDefault_follows hapart (by simp [fields]) (list_follows string_follows) _))
    (withDefault_follows hapart (by simp [fields]) (list_follows Level.decode_follows) _))
    (withDefault_follows hapart (by simp [fields]) (list_follows Roof.decode_follows) _))
    (withDefault_follows hapart (by simp [fields]) (list_follows Opening.decode_follows) _))

/-! ## Files -/

/-- The complaints with their places changed. -/
def LoadError.relocate (f : List Place → List Place) : LoadError → LoadError
  | .noJson => .noJson
  | .complaints cs => .complaints (cs.map fun c => ⟨f c.place, c.reason⟩)

theorem House.decode_respelled {j j' : Json} {f : List Place → List Place}
    (h : Respelled (.thing House.fields) j j' f) :
    House.decode j' = (House.decode j).relocate f := by
  induction h with
  | same => exact (Decoded.relocate_id _).symm
  | step _ hlast ih => rw [House.decode_follows hlast, ih, Decoded.relocate_relocate]

/-- **What is loaded does not depend on the spelling**: the same house, or complaints for the same
reasons in the same order, at places in which keys are named as they are spelled. -/
theorem House.load_respelled {text text' : String} {j j' : Json} {f : List Place → List Place}
    (hj : parse? text = some j) (hj' : parse? text' = some j')
    (h : Respelled (.thing House.fields) j j' f) :
    House.load text' = (House.load text).mapError (LoadError.relocate f) := by
  simp only [House.load, hj, hj', House.decode_respelled h]
  cases House.decode j <;> rfl

/-! ## A file in two spellings -/

/-- A change in the member at the front. -/
theorem Json.Respells.frontField {fields : List (String × Schema)} {field : String × Schema}
    {key : String} {post : List (String × Json)} {v v' : Json} {f : List Place → List Place}
    (hfield : field ∈ fields) (hkey : Spells field.1 key) (h : Respells field.2 v v' f) :
    Respells (.thing fields) (.obj ((key, v) :: post)) (.obj ((key, v') :: post))
      (under (.key key) f) :=
  @Respells.field _ _ _ [] _ _ _ _ hfield hkey nofun h

/-- A change in the element at the front. -/
theorem Json.Respells.frontElement {entry : Schema} {post : List Json} {v v' : Json}
    {f : List Place → List Place} (h : Respells entry v v' f) :
    Respells (.list entry) (.arr (v :: post)) (.arr (v' :: post)) (under (.index 0) f) :=
  @Respells.element _ [] _ _ _ _ h

/-- A value without numbers that are not whole, as the text of a file. -/
theorem House.load_render_refused {j : Json} {cs : List Complaint} (hj : Readable depthLimit j)
    (hnumbers : j.numbers = []) (hdecode : House.decode j = .refused cs) :
    parse? (render .line j) = some j ∧ House.load (render .line j) = .error (.complaints cs) := by
  have hparse : parse? (render .line j) = some j :=
    parse?_render hj (by simp [hnumbers]) (by simp [hnumbers])
  refine ⟨hparse, ?_⟩
  simp only [House.load, hparse, hdecode]

/-- A house file with a roof on no level, one face of which keeps no side of its divider. -/
def leanToDocument (baseLevelId : String) (tag comment : List (String × Json)) : Json :=
  let point (x y : Int) : Json := .obj [("x", .int x), ("y", .int y)]
  let item : Json := .obj (tag ++ [("a", point 0 0), ("b", point 0 4), ("keep", .str "up")])
  let face : Json := .obj [("region", .obj [("items", .arr [item]), ("type", .str "compound")]),
    ("id", .str "south"), ("kind", .str "hipCap")]
  .obj (("roofs", .arr [.obj [("faces", .arr [face]), (baseLevelId, .null),
    ("type", .str "multi-plane"), ("id", .str "roof")]]) :: comment)

/-- The file with a key in snake case, the tag of its divider written out, and a comment. -/
def leanToRespelled : Json :=
  leanToDocument "base_level_id" [("type", .str "materializedDivider")] [("comment", .str "old")]

/-- The complaints about the file. -/
def leanToComplaints (baseLevelId : String) : List Complaint :=
  let roof : List Place := [.key "roofs", .index 0, .key "multi-plane"]
  [⟨roof ++ [.key baseLevelId], .expectedString⟩,
    ⟨roof ++ [.key "faces", .index 0, .key "region", .key "compound", .key "items", .index 0,
      .key "materializedDivider", .key "keep"], .unknownWord ["left", "right"]⟩]

theorem leanToDocument_readable : Readable depthLimit (leanToDocument "baseLevelId" [] []) ∧
    Readable depthLimit leanToRespelled := by
  show Readable 201 _ ∧ Readable 201 _
  unfold leanToRespelled leanToDocument
  dsimp only [List.append, List.nil_append, List.cons_append]
  repeat' first
    | exact .str _
    | exact .null
    | exact .int (natAbs_lt_of_lt_two_pow (by decide))
    | refine .obj (by simp) ?_
    | refine .arr ?_
    | refine List.forall_mem_cons.2 ⟨?_, ?_⟩
    | exact List.forall_mem_nil _
    | refine And.intro ?_ ?_

/-- A change of places in the item. -/
def underItem (f : List Place → List Place) : List Place → List Place :=
  under (.key "roofs") (under (.index 0) (under (.key "multi-plane") (under (.key "faces")
    (under (.index 0) (under (.key "region") (under (.key "compound") (under (.key "items")
      (under (.index 0) f))))))))

theorem House.leanTo_respelled : Respelled (.thing House.fields)
    (leanToDocument "baseLevelId" [] []) leanToRespelled
    (id ∘ (underItem id ∘ (under (.key "roofs") (under (.index 0)
      (under (.key "multi-plane") (renamed "baseLevelId" "base_level_id"))) ∘ id))) := by
  have hroofs : ("roofs", Schema.list Roof.schema) ∈ House.fields := by simp [House.fields]
  have hbase : ("baseLevelId", Schema.plain) ∈ MultiPlaneRoof.fields := by
    simp [MultiPlaneRoof.fields]
  have hfaces : ("faces", Schema.list (.thing RoofFace.fields)) ∈ MultiPlaneRoof.fields := by
    simp [MultiPlaneRoof.fields]
  have hregion : ("region", FaceRegion.schema) ∈ RoofFace.fields := by simp [RoofFace.fields]
  have hitems : ("items", Schema.list RegionItem.schema) ∈ FaceRegion.compoundFields := by
    simp [FaceRegion.compoundFields]
  have hrename : Respells (.thing House.fields) (leanToDocument "baseLevelId" [] [])
      (leanToDocument "base_level_id" [] []) (under (.key "roofs") (under (.index 0)
        (under (.key "multi-plane") (renamed "baseLevelId" "base_level_id")))) := by
    refine .frontField hroofs (.inl rfl) (.frontElement (.variant rfl rfl rfl ?_))
    exact @Respells.rename _ _ _ _ [_] _ _ hbase (.inl rfl) (.inr (by decide +kernel))
      (by decide +kernel)
  have htag : Respells (.thing House.fields) (leanToDocument "base_level_id" [] [])
      (leanToDocument "base_level_id" [("type", .str "materializedDivider")] [])
      (underItem id) := by
    refine .frontField hroofs (.inl rfl) (.frontElement (.variant rfl rfl rfl ?_))
    refine .frontField hfaces (.inl rfl) (.frontElement ?_)
    refine .frontField hregion (.inl rfl) (.variant rfl rfl rfl ?_)
    refine .frontField hitems (.inl rfl) (.frontElement ?_)
    refine @Respells.tag _ _ [] [_, _, _] ?_
    simp
  have hcomment : Respells (.thing House.fields)
      (leanToDocument "base_level_id" [("type", .str "materializedDivider")] []) leanToRespelled
      id :=
    @Respells.unknown _ [_] [] [("comment", .str "old")] [] nofun (by decide +kernel)
  exact .step (.step (.step (.same _) hrename) htag) hcomment

/-- **The file in two spellings**: both are refused for the same reasons, in the same order, at the
same places but for the key that is spelled differently. -/
theorem House.leanTo_refused :
    House.load (render .line (leanToDocument "baseLevelId" [] [])) =
      .error (.complaints (leanToComplaints "baseLevelId")) ∧
    House.load (render .line leanToRespelled) =
      .error (.complaints (leanToComplaints "base_level_id")) := by
  obtain ⟨hcamel, hsnake⟩ := leanToDocument_readable
  obtain ⟨hparse, hload⟩ := House.load_render_refused hcamel rfl
    (show House.decode _ = .refused (leanToComplaints "baseLevelId") from rfl)
  have hparse' : parse? (render .line leanToRespelled) = some leanToRespelled :=
    parse?_render hsnake nofun nofun
  refine ⟨hload, ?_⟩
  rw [House.load_respelled hparse hparse' House.leanTo_respelled, hload]
  rfl

/-- **The spelling of a key shows** in the place of a complaint about its value. -/
theorem House.spelling_shows : ∃ text text' j j' f, parse? text = some j ∧
    parse? text' = some j' ∧ Respelled (.thing House.fields) j j' f ∧
    House.load text = .error (.complaints [⟨[.key "wallThickness"], .unreadableNumber⟩]) ∧
    House.load text' = .error (.complaints [⟨[.key "wall_thickness"], .unreadableNumber⟩]) ∧
    House.load text' ≠ House.load text := by
  have hread : ∀ key, Readable depthLimit (.obj [(key, .str "thick")]) := fun key =>
    .obj (List.nodup_singleton _) (List.forall_mem_singleton.2 (.str _))
  obtain ⟨hparse, hload⟩ := House.load_render_refused (hread "wallThickness") rfl
    (show House.decode _ = .refused [⟨[.key "wallThickness"], .unreadableNumber⟩] from rfl)
  obtain ⟨hparse', hload'⟩ := House.load_render_refused (hread "wall_thickness") rfl
    (show House.decode _ = .refused [⟨[.key "wall_thickness"], .unreadableNumber⟩] from rfl)
  have hfield : ("wallThickness", Schema.plain) ∈ House.fields := by simp [House.fields]
  refine ⟨_, _, _, _, _, hparse, hparse', .step (.same _) (@Respells.rename _ _ _ _ [] _ _ hfield
    (.inl rfl) (.inr (by decide +kernel)) nofun), hload, hload', ?_⟩
  rw [hload, hload']
  simp

end Housewright
