import Housewright.Description.Decoder
import Housewright.Description.Encoder
import Housewright.Proofs.Json.Fields

/-!
# Described things come back from their encoding

For every described thing, from points up to houses, decoding what was encoded gives the
thing back: with its tag, in its order, and with what was unset still unset.

The proofs follow the description.  A thing comes back because each of its fields is found
under its key and comes back; a tagged thing because its tag selects its own variant.

## Main results

* `RegionItem.decode_encode`, `FaceRegion.decode_encode`, `Roof.decode_encode` : the three
  tagged unions.
* `House.decode_encode` : houses.
-/

namespace Housewright

open Json

/-! ## Words -/

theorem Side.decode_word (s : Side) : Json.word Side.words (.str s.word) = .value s := by
  cases s <;> rfl

theorem RidgeEnd.decode_word (e : RidgeEnd) :
    Json.word RidgeEnd.words (.str e.word) = .value e := by
  cases e <;> rfl

theorem CutSide.decode_word (s : CutSide) : Json.word CutSide.words (.str s.word) = .value s := by
  cases s <;> rfl

theorem FaceKind.decode_word (k : FaceKind) :
    Json.word FaceKind.words (.str k.word) = .value k := by
  cases k <;> rfl

theorem OpeningKind.decode_word (k : OpeningKind) :
    namedKind OpeningKind.words (.str k.word) = .value k := by
  cases k <;> rfl

theorem ElevationConvention.decode_word (c : ElevationConvention) :
    namedKind ElevationConvention.words (.str c.word) = .value c := by
  cases c <;> rfl

/-! ## Points and half-planes -/

theorem Point.decode_encode (p : Point Float) : Point.decode p.encode = .value p := by
  simp [Point.decode, Point.encode, required, field?, member?]

theorem PlanePoint.decode_encode (p : PlanePoint Float) :
    PlanePoint.decode p.encode = .value p := by
  simp [PlanePoint.decode, PlanePoint.encode, required, field?, member?]

/-- A half-plane comes back from its members, whatever its tag and what follows them. -/
theorem HalfPlane.decodeFields_members (tag : Json) (h : HalfPlane Float)
    (rest : List (String × Json)) :
    HalfPlane.decodeFields (("type", tag) :: (h.members ++ rest)) = .value h := by
  simp [HalfPlane.decodeFields, HalfPlane.members, required, field?, member?, Point.decode_encode,
    Side.decode_word]

theorem HalfPlane.decode_encode (h : HalfPlane Float) : HalfPlane.decode h.encode = .value h := by
  simp [HalfPlane.decode, HalfPlane.decodeFields, HalfPlane.encode, HalfPlane.members, required,
    field?, member?, Point.decode_encode, Side.decode_word]

/-! ## Region items and face regions -/

theorem str_ne_null (s : String) : Json.str s ≠ .null := nofun

/-- **A region item comes back with its own tag**, whichever of the four it is. -/
theorem RegionItem.decode_encode (i : RegionItem Float) :
    RegionItem.decode i.encode = .value i := by
  have htag : RegionItem.decode i.encode =
      selectVariant tagRule variants (.str i.tag) (("type", .str i.tag) :: i.members) := rfl
  rw [htag]
  cases i with
  | explicit h =>
    have hplane := HalfPlane.decodeFields_members (.str "explicit") h []
    rw [List.append_nil] at hplane
    exact selectVariant_eq rfl (congrArg (RegionItem.explicit <$> ·) hplane)
  | materialized h ridgeId =>
    refine selectVariant_eq rfl ?_
    have hridge : ∀ tag : Json, maybe (("type", tag) ::
        (h.members ++ [("ridgeId", ofOption .str ridgeId)])) "ridgeId" string = .value ridgeId :=
      fun _ => maybe_eq (by simp [HalfPlane.members, member?]) string_str str_ne_null
    show RegionItem.materialized <$> HalfPlane.decodeFields _ <*> maybe _ "ridgeId" string = _
    rw [RegionItem.members, HalfPlane.decodeFields_members, hridge]
    rfl
  | divider ridgeId keep =>
    refine selectVariant_eq rfl ?_
    simp [RegionItem.members, required, field?, member?, Side.decode_word]
  | perpCut ridgeId t keep =>
    refine selectVariant_eq rfl ?_
    simp [RegionItem.members, required, field?, member?, CutSide.decode_word]

/-- **A face region comes back with its own tag**, whichever of the three it is. -/
theorem FaceRegion.decode_encode (r : FaceRegion Float) :
    FaceRegion.decode r.encode = .value r := by
  have htag : FaceRegion.decode r.encode =
      selectVariant (.member "type") variants (.str r.tag) (("type", .str r.tag) :: r.members) :=
    rfl
  rw [htag]
  cases r with
  | halfPlanes planes =>
    refine selectVariant_eq rfl ?_
    simp [FaceRegion.members, required, field?, member?, list_ofList HalfPlane.decode_encode]
  | ridgeCap ridgeId cap =>
    refine selectVariant_eq rfl ?_
    simp [FaceRegion.members, required, field?, member?, RidgeEnd.decode_word]
  | compound items =>
    refine selectVariant_eq rfl ?_
    simp [FaceRegion.members, required, field?, member?, list_ofList RegionItem.decode_encode]

/-! ## Roofs -/

theorem RidgeLine.decode_encode (r : RidgeLine Float) : RidgeLine.decode r.encode = .value r := by
  simp [RidgeLine.decode, RidgeLine.encode, required, field?, member?, Point.decode_encode]

theorem Ridge.decode_encode (r : Ridge Float) : Ridge.decode r.encode = .value r := by
  simp [Ridge.decode, Ridge.encode, required, withDefault, field?, member?, Point.decode_encode]

/-- A face comes back with all of its optional fields. -/
theorem RoofFace.decode_encode (f : RoofFace Float) : RoofFace.decode f.encode = .value f := by
  have hstring := nullable_ofOption string_str str_ne_null
  have hnumber := nullable_ofOption number_num nofun
  have hside : ∀ o, nullable (Json.word Side.words) (ofOption (.str ∘ Side.word) o) = .value o :=
    nullable_ofOption Side.decode_word fun _ => str_ne_null _
  have hend : ∀ o, nullable (Json.word RidgeEnd.words) (ofOption (.str ∘ RidgeEnd.word) o) =
      .value o := nullable_ofOption RidgeEnd.decode_word fun _ => str_ne_null _
  have hpoint := nullable_ofOption PlanePoint.decode_encode nofun
  simp [RoofFace.decode, RoofFace.encode, required, maybe, withDefault, field?, member?,
    FaceKind.decode_word, hstring, hnumber, hside, hend, hpoint, FaceRegion.decode_encode]

/-- **A roof comes back with its own tag**, whichever of the four it is. -/
theorem Roof.decode_encode (r : Roof Float) : Roof.decode r.encode = .value r := by
  have htag : Roof.decode r.encode =
      selectVariant (.member "type") variants (.str r.tag) (("type", .str r.tag) :: r.members) :=
    rfl
  rw [htag]
  cases r with
  | flat r =>
    refine selectVariant_eq rfl ?_
    simp [FlatRoof.decodeFields, Roof.members, required, maybe, withDefault, field?, member?,
      nullable_ofOption string_str str_ne_null]
  | gable r =>
    refine selectVariant_eq rfl ?_
    simp [GableRoof.decodeFields, Roof.members, required, withDefault, field?, member?,
      RidgeLine.decode_encode]
  | multiRidge r =>
    refine selectVariant_eq rfl ?_
    simp [MultiRidgeRoof.decodeFields, Roof.members, required, withDefault, field?, member?,
      list_ofList Ridge.decode_encode]
  | multiPlane r =>
    refine selectVariant_eq rfl ?_
    simp [MultiPlaneRoof.decodeFields, Roof.members, required, withDefault, field?, member?,
      list_ofList Ridge.decode_encode, list_ofList RoofFace.decode_encode]

/-! ## Levels, openings and houses -/

theorem Ring.decode_encode (r : Ring Float) : list Point.decode (Ring.encode r) = .value r :=
  list_ofList Point.decode_encode r

theorem Footprint.decode_encode (f : Footprint Float) : Footprint.decode f.encode = .value f := by
  simp [Footprint.decode, Footprint.encode, required, withDefault, field?, member?,
    Ring.decode_encode, list_ofList Ring.decode_encode]

theorem SlabSpec.decode_encode (s : SlabSpec Float) : SlabSpec.decode s.encode = .value s := by
  simp [SlabSpec.decode, SlabSpec.encode, required, withDefault, field?, member?]

theorem Level.decode_encode (l : Level Float) : Level.decode l.encode = .value l := by
  have hslab := nullable_ofOption SlabSpec.decode_encode nofun
  simp [Level.decode, Level.encode, required, maybe, withDefault, field?, member?,
    Footprint.decode_encode, hslab]

theorem EdgeRef.decode_encode (e : EdgeRef) : EdgeRef.decode e.encode = .value e := by
  have hside : ∀ o, nullable (Json.word Side.words) (ofOption (.str ∘ Side.word) o) = .value o :=
    nullable_ofOption Side.decode_word fun _ => str_ne_null _
  simp [EdgeRef.decode, EdgeRef.encode, required, maybe, withDefault, field?, member?, hside]

theorem Opening.decode_encode (o : Opening Float) : Opening.decode o.encode = .value o := by
  have hstyle := nullable_ofOption anyObject_obj nofun
  simp [Opening.decode, Opening.encode, required, maybe, withDefault, field?, member?,
    OpeningKind.decode_word, EdgeRef.decode_encode, hstyle]

/-- **A house comes back from its encoding.** -/
theorem House.decode_encode (h : House Float) : House.decode h.encode = .value h := by
  simp [House.decode, House.encode, withDefault, field?, member?, ElevationConvention.decode_word,
    list_ofList string_str, list_ofList Level.decode_encode, list_ofList Roof.decode_encode,
    list_ofList Opening.decode_encode]

end Housewright
