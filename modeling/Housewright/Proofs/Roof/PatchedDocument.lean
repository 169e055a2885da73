import Housewright.Proofs.Description.RoundTrip
import Housewright.Proofs.Roof.LastPatch

/-!
# Patches on the document of a roof

A plan is carried out on a document: the roof is written as JSON with keys in snake case, the
members of the dividers that the plan names are overwritten in it, and the roof is read back.
Any step of that could go wrong, so `SyncPlan.rebuild` says all of it, and `rebuild_eq` says that
nothing does: the roof that is read back is the roof with the plan applied.

* `decode_dump` lemmas: what was written with keys in snake case is read back;
* `edit_dump` lemmas: to edit the document of a thing is to write the edited thing;
* `SyncPlan.rebuild_safe`: what any plan, however stale, leaves of any roof.
-/

namespace Housewright

open Json

/-! ## Documents with keys in snake case -/

namespace Json

mutual

/-- The value with every key of every object in snake case. -/
def snakeKeys : Json → Json
  | .arr xs => .arr (snakeElements xs)
  | .obj ms => .obj (snakeMembers ms)
  | j => j

/-- The elements of an array with keys in snake case. -/
def snakeElements : List Json → List Json
  | [] => []
  | j :: rest => j.snakeKeys :: snakeElements rest

/-- The members of an object with keys in snake case. -/
def snakeMembers : List (String × Json) → List (String × Json)
  | [] => []
  | (k, v) :: rest => (snakeCase k, v.snakeKeys) :: snakeMembers rest

end

-- One lemma for each clause, so that `simp` walks through a document clause by clause and never
-- unfolds the three functions as a whole.

@[simp] theorem snakeKeys_obj (ms : List (String × Json)) :
    (obj ms).snakeKeys = obj (snakeMembers ms) := rfl

@[simp] theorem snakeKeys_arr (xs : List Json) : (arr xs).snakeKeys = arr (snakeElements xs) := rfl

@[simp] theorem snakeKeys_str (s : String) : (str s).snakeKeys = str s := rfl

@[simp] theorem snakeKeys_num (x : Float) : (num x).snakeKeys = num x := rfl

@[simp] theorem snakeKeys_bool (b : Bool) : (bool b).snakeKeys = bool b := rfl

@[simp] theorem snakeElements_cons (j : Json) (rest : List Json) :
    snakeElements (j :: rest) = j.snakeKeys :: snakeElements rest := rfl

@[simp] theorem snakeMembers_nil : snakeMembers [] = [] := rfl

@[simp] theorem snakeMembers_cons (k : String) (v : Json) (rest : List (String × Json)) :
    snakeMembers ((k, v) :: rest) = (snakeCase k, v.snakeKeys) :: snakeMembers rest := rfl

theorem snakeElements_map {α : Type} (f : α → Json) (xs : List α) :
    snakeElements (xs.map f) = xs.map fun x => (f x).snakeKeys := by
  induction xs with
  | nil => rfl
  | cons x rest ih => rw [List.map_cons, snakeElements_cons, ih, List.map_cons]

theorem snakeKeys_ofList {α : Type} (f : α → Json) (xs : List α) :
    (ofList f xs).snakeKeys = ofList (fun x => (f x).snakeKeys) xs := by
  rw [ofList, snakeKeys_arr, snakeElements_map, ofList]

theorem snakeKeys_ofOption {α : Type} (f : α → Json) (o : Option α) :
    (ofOption f o).snakeKeys = ofOption (fun a => (f a).snakeKeys) o := by
  cases o with
  | none => rfl
  | some a => rfl

end Json

/-- The document of a multi-plane roof in which patches are carried out. -/
def MultiPlaneRoof.dump (roof : MultiPlaneRoof Float) : Json :=
  (Roof.multiPlane roof).encode.snakeKeys

/-- The keys of a multi-plane roof and of its parts. -/
theorem snakeCase_keys :
    snakeCase "type" = "type" ∧ snakeCase "id" = "id" ∧
    snakeCase "baseLevelId" = "base_level_id" ∧ snakeCase "eaveHeight" = "eave_height" ∧
    snakeCase "thickness" = "thickness" ∧ snakeCase "overhang" = "overhang" ∧
    snakeCase "ridgeSegments" = "ridge_segments" ∧ snakeCase "faces" = "faces" ∧
    snakeCase "start" = "start" ∧ snakeCase "end" = "end" ∧ snakeCase "height" = "height" ∧
    snakeCase "hipStart" = "hip_start" ∧ snakeCase "hipEnd" = "hip_end" ∧
    snakeCase "kind" = "kind" ∧ snakeCase "ridgeId" = "ridge_id" ∧
    snakeCase "ridgeT0" = "ridge_t0" ∧ snakeCase "ridgeT1" = "ridge_t1" ∧
    snakeCase "side" = "side" ∧ snakeCase "capEnd" = "cap_end" ∧ snakeCase "p1" = "p1" ∧
    snakeCase "p2" = "p2" ∧ snakeCase "p3" = "p3" ∧ snakeCase "region" = "region" ∧
    snakeCase "planes" = "planes" ∧ snakeCase "items" = "items" ∧ snakeCase "keep" = "keep" ∧
    snakeCase "a" = "a" ∧ snakeCase "b" = "b" ∧ snakeCase "t" = "t" ∧ snakeCase "x" = "x" ∧
    snakeCase "y" = "y" ∧ snakeCase "h" = "h" := by decide +kernel

/-! ## What was written so is read back -/

theorem Point.decode_dump (p : Point Float) : Point.decode p.encode.snakeKeys = .value p := by
  simp [Point.decode, Point.encode, snakeCase_keys, required, field?, member?]

theorem PlanePoint.decode_dump (p : PlanePoint Float) :
    PlanePoint.decode p.encode.snakeKeys = .value p := by
  simp [PlanePoint.decode, PlanePoint.encode, snakeCase_keys, required, field?, member?]

theorem HalfPlane.decode_dump (h : HalfPlane Float) :
    HalfPlane.decode h.encode.snakeKeys = .value h := by
  simp [HalfPlane.decode, HalfPlane.decodeFields, HalfPlane.encode, HalfPlane.members,
    snakeCase_keys, required, field?, member?, Point.decode_dump, Side.decode_word]

theorem Ridge.decode_dump (r : Ridge Float) : Ridge.decode r.encode.snakeKeys = .value r := by
  simp [Ridge.decode, Ridge.encode, snakeCase_keys, required, withDefault, field?, member?,
    Point.decode_dump]

theorem RegionItem.decode_dump (i : RegionItem Float) :
    RegionItem.decode i.encode.snakeKeys = .value i := by
  have hstring := nullable_ofOption string_str str_ne_null
  have htag : RegionItem.decode i.encode.snakeKeys = selectVariant tagRule variants (.str i.tag)
      (("type", .str i.tag) :: snakeMembers i.members) := by
    simp [RegionItem.decode, RegionItem.encode, snakeCase_keys, member?]
  rw [htag]
  cases i with
  | explicit h =>
    refine selectVariant_eq rfl ?_
    simp [RegionItem.members, HalfPlane.members, HalfPlane.decodeFields, snakeCase_keys, required,
      field?, member?, Point.decode_dump, Side.decode_word]
  | materialized h ridgeId =>
    refine selectVariant_eq rfl ?_
    simp [RegionItem.members, HalfPlane.members, HalfPlane.decodeFields, snakeCase_keys,
      snakeKeys_ofOption, required, maybe, withDefault, field?, member?, Point.decode_dump,
      Side.decode_word, hstring]
  | divider ridgeId keep =>
    refine selectVariant_eq rfl ?_
    simp [RegionItem.members, snakeCase_keys, required, field?, member?, Side.decode_word]
  | perpCut ridgeId t keep =>
    refine selectVariant_eq rfl ?_
    simp [RegionItem.members, snakeCase_keys, required, field?, member?, CutSide.decode_word]

theorem FaceRegion.decode_dump (r : FaceRegion Float) :
    FaceRegion.decode r.encode.snakeKeys = .value r := by
  have htag : FaceRegion.decode r.encode.snakeKeys =
      selectVariant (.member "type") variants (.str r.tag)
        (("type", .str r.tag) :: snakeMembers r.members) := by
    simp [FaceRegion.decode, FaceRegion.encode, tagged, snakeCase_keys, member?]
  rw [htag]
  cases r with
  | halfPlanes planes =>
    refine selectVariant_eq rfl ?_
    simp [FaceRegion.members, snakeCase_keys, snakeKeys_ofList, required, field?, member?,
      list_ofList HalfPlane.decode_dump]
  | ridgeCap ridgeId cap =>
    refine selectVariant_eq rfl ?_
    simp [FaceRegion.members, snakeCase_keys, required, field?, member?, RidgeEnd.decode_word]
  | compound items =>
    refine selectVariant_eq rfl ?_
    simp [FaceRegion.members, snakeCase_keys, snakeKeys_ofList, required, field?, member?,
      list_ofList RegionItem.decode_dump]

theorem PlanePoint.snakeKeys_encode_ne_null (p : PlanePoint Float) :
    p.encode.snakeKeys ≠ .null := by
  rw [PlanePoint.encode, snakeKeys_obj]
  intro h
  cases h

theorem RoofFace.decode_dump (f : RoofFace Float) :
    RoofFace.decode f.encode.snakeKeys = .value f := by
  have hstring := nullable_ofOption string_str str_ne_null
  have hnumber := nullable_ofOption number_num nofun
  have hside : ∀ o, nullable (Json.word Side.words) (ofOption (fun s => .str s.word) o) =
      .value o := nullable_ofOption Side.decode_word fun _ => str_ne_null _
  have hend : ∀ o, nullable (Json.word RidgeEnd.words) (ofOption (fun e => .str e.word) o) =
      .value o := nullable_ofOption RidgeEnd.decode_word fun _ => str_ne_null _
  have hpoint := nullable_ofOption PlanePoint.decode_dump PlanePoint.snakeKeys_encode_ne_null
  simp [RoofFace.decode, RoofFace.encode, snakeCase_keys, snakeKeys_ofOption, required, maybe,
    withDefault, field?, member?, FaceKind.decode_word, hstring, hnumber, hside, hend, hpoint,
    FaceRegion.decode_dump]

/-- **A roof that was written with keys in snake case is read back.** -/
theorem MultiPlaneRoof.decode_dump (roof : MultiPlaneRoof Float) :
    MultiPlaneRoof.decode roof.dump = .value roof := by
  simp [MultiPlaneRoof.decode, MultiPlaneRoof.decodeFields, MultiPlaneRoof.dump, Roof.encode,
    Roof.members, Roof.tag, snakeCase_keys, snakeKeys_ofList, required, withDefault, field?,
    member?, Json.word, lookupWord?, list_ofList Ridge.decode_dump,
    list_ofList RoofFace.decode_dump]

/-! ## Patches on documents -/

/-- Whether a member of an object is the given word. -/
def Json.hasWord (key w : String) (ms : List (String × Json)) : Bool :=
  match member? key ms with
  | some (.str s) => s == w
  | _ => false

/-- The members of an object with one of them changed, if it is there. -/
def Json.change (key : String) (f : Json → Json) (ms : List (String × Json)) :
    List (String × Json) :=
  match member? key ms with
  | some v => set key (f v) ms
  | none => ms

namespace DividerPatch

variable (p : DividerPatch Float)

/-- The document of an item: the ends of a divider are overwritten. -/
def editItem : Json → Json
  | .obj ms =>
    if hasWord "type" "materializedDivider" ms then
      .obj (set "b" p.b.encode.snakeKeys (set "a" p.a.encode.snakeKeys ms))
    else .obj ms
  | j => j

/-- The items of a compound region: the one that the patch names is edited. -/
def editItems : Json → Json
  | .arr items => .arr (changeAt p.editItem p.itemIndex items)
  | j => j

/-- The document of a region: the items of a compound region are edited. -/
def editRegion : Json → Json
  | .obj ms =>
    if hasWord "type" "compound" ms then .obj (change "items" p.editItems ms) else .obj ms
  | j => j

/-- The document of a face: the region of a ridge-side face is edited. -/
def editFace : Json → Json
  | .obj ms =>
    if hasWord "kind" "ridgeSideSegment" ms then .obj (change "region" p.editRegion ms) else .obj ms
  | j => j

/-- Whether the document of a face has the id that the patch names. -/
def namesFace : Json → Bool
  | .obj ms => hasWord "id" p.faceId ms
  | _ => false

/-- The documents of faces: of several with the id that the patch names the last is edited. -/
def editFaces : List Json → List Json
  | [] => []
  | j :: rest =>
    if rest.any p.namesFace then j :: editFaces rest
    else if p.namesFace j then p.editFace j :: rest
    else j :: rest

end DividerPatch

namespace SyncPlan

/-- The documents of faces with all patches of a plan carried out, in order. -/
def editFaces (plan : SyncPlan Float) : Json → Json
  | .arr faces => .arr (plan.patches.foldl (fun faces p => p.editFaces faces) faces)
  | j => j

/-- The document of a roof with a plan carried out. -/
def editDocument (plan : SyncPlan Float) : Json → Json
  | .obj ms => .obj (change "faces" plan.editFaces ms)
  | j => j

/-- The roof that is read back from its document after a plan was carried out on that.  A plan
without patches gives back the roof itself. -/
def rebuild (plan : SyncPlan Float) (roof : MultiPlaneRoof Float) :
    Decoded (MultiPlaneRoof Float) :=
  if plan.patches.isEmpty then .value roof
  else MultiPlaneRoof.decode (plan.editDocument roof.dump)

end SyncPlan

/-! ## To edit a document is to write the edited thing -/

namespace DividerPatch

variable (p : DividerPatch Float)

theorem editItem_dump (item : RegionItem Float) :
    p.editItem item.encode.snakeKeys = (item.onLine p.a p.b).encode.snakeKeys := by
  cases item with
  | materialized plane ridgeId =>
    simp [editItem, hasWord, member?, Json.set, RegionItem.encode, RegionItem.members,
      RegionItem.tag, RegionItem.onLine, HalfPlane.members, snakeCase_keys]
  | explicit | divider | perpCut =>
    -- an item of another kind has another tag
    simp [editItem, hasWord, member?, RegionItem.encode, RegionItem.tag, RegionItem.onLine,
      snakeCase_keys]

theorem changeAt_map {α β : Type} {f : α → β} {g : β → β} {g' : α → α}
    (h : ∀ x, g (f x) = f (g' x)) (index : Int) (xs : List α) :
    changeAt g index (xs.map f) = (changeAt g' index xs).map f := by
  refine List.ext_getElem? fun i => ?_
  simp only [getElem?_changeAt, List.getElem?_map]
  split
  · simp only [Option.map_map, Function.comp_def, h]
  · rfl

theorem editItems_dump (items : List (RegionItem Float)) :
    p.editItems (ofList RegionItem.encode items).snakeKeys =
      (ofList RegionItem.encode (changeAt (.onLine p.a p.b) p.itemIndex items)).snakeKeys := by
  rw [snakeKeys_ofList, snakeKeys_ofList, ofList, editItems, changeAt_map p.editItem_dump, ofList]

theorem editFace_dump (f : RoofFace Float) :
    p.editFace f.encode.snakeKeys = (f.patched p).encode.snakeKeys := by
  cases hkind : f.kind with
  | hipCap =>
    simp [editFace, hasWord, member?, RoofFace.encode, RoofFace.patched, hkind, FaceKind.word,
      snakeCase_keys]
  | ridgeSide =>
    have hregion : p.editRegion f.region.encode.snakeKeys =
        (f.patched p).region.encode.snakeKeys := by
      cases hregion : f.region with
      | compound items =>
        simp [RoofFace.patched, hkind, hregion, editRegion, hasWord, change, member?, Json.set,
          FaceRegion.encode, FaceRegion.tag, FaceRegion.members, snakeCase_keys, editItems_dump]
      | halfPlanes planes =>
        simp [RoofFace.patched, hkind, hregion, editRegion, hasWord, member?, FaceRegion.encode,
          FaceRegion.tag, snakeCase_keys]
      | ridgeCap ridgeId cap =>
        simp [RoofFace.patched, hkind, hregion, editRegion, hasWord, member?, FaceRegion.encode,
          FaceRegion.tag, snakeCase_keys]
    have hrest : f.patched p = { f with region := (f.patched p).region } := by
      unfold RoofFace.patched
      split <;> rfl
    rw [hrest]
    simp [editFace, hasWord, change, member?, Json.set, RoofFace.encode, hkind, FaceKind.word,
      snakeCase_keys, hregion]

theorem namesFace_dump (f : RoofFace Float) :
    p.namesFace f.encode.snakeKeys = (f.id == p.faceId) := by
  simp [namesFace, hasWord, member?, RoofFace.encode, snakeCase_keys]

theorem editFaces_dump (faces : List (RoofFace Float)) :
    p.editFaces (faces.map fun f => f.encode.snakeKeys) =
      (p.applyTo faces).map fun f => f.encode.snakeKeys := by
  induction faces with
  | nil => rfl
  | cons f rest ih =>
    have hany : (rest.map fun f => f.encode.snakeKeys).any p.namesFace =
        rest.any (·.id == p.faceId) := by
      rw [List.any_map]
      exact congrArg rest.any (funext p.namesFace_dump)
    rw [List.map_cons, editFaces, applyTo, hany, namesFace_dump, ih, editFace_dump]
    split
    · rfl
    · split <;> rfl

end DividerPatch

theorem SyncPlan.editDocument_dump (plan : SyncPlan Float) (roof : MultiPlaneRoof Float) :
    plan.editDocument roof.dump = (plan.applyTo roof).dump := by
  have hfaces (patches : List (DividerPatch Float)) (faces : List (RoofFace Float)) :
      patches.foldl (fun faces p => p.editFaces faces) (faces.map fun f => f.encode.snakeKeys) =
        (patches.foldl (fun faces p => p.applyTo faces) faces).map
          fun f => f.encode.snakeKeys := by
    induction patches generalizing faces with
    | nil => rfl
    | cons p rest ih => rw [List.foldl_cons, List.foldl_cons, p.editFaces_dump, ih]
  simp [editDocument, SyncPlan.editFaces, applyTo, MultiPlaneRoof.dump, Roof.encode, Roof.members,
    Roof.tag, snakeCase_keys, change, member?, Json.set, ofList, snakeElements_map, hfaces]

/-- **The roof that is read back** after a plan was carried out on its document is the roof with
the plan applied; reading it back never fails. -/
theorem SyncPlan.rebuild_eq (plan : SyncPlan Float) (roof : MultiPlaneRoof Float) :
    plan.rebuild roof = .value (plan.applyTo roof) := by
  rw [SyncPlan.rebuild]
  split
  next hnone =>
    rw [SyncPlan.applyTo, List.isEmpty_iff.1 hnone]
    rfl
  next => rw [plan.editDocument_dump, MultiPlaneRoof.decode_dump]

/-- **Any plan can be carried out**, whatever faces and items its patches name, and however often.
The roof that is read back is the roof but for its faces, and has the same faces in the same
order; of several with one id the last is overlaid with the patches, the others stay.  A face
becomes another one only by dividers of its compound region, if it is a ridge-side face, that are
on the line of the last patch that names them.  Carrying the plan out again changes nothing. -/
theorem SyncPlan.rebuild_safe (plan : SyncPlan Float) (roof : MultiPlaneRoof Float) :
    ∃ fixed, plan.rebuild roof = .value fixed ∧ fixed = plan.applyTo roof ∧
      fixed = { roof with faces := fixed.faces } ∧
      List.Forall₂ (RoofFace.Becomes plan.patches) roof.faces fixed.faces ∧
      (∀ k f, roof.faces[k]? = some f → fixed.faces[k]? = some
        (if f.id ∈ (roof.faces.drop (k + 1)).map (·.id) then f else f.overlaid plan.patches)) ∧
      plan.rebuild fixed = .value fixed := by
  refine ⟨plan.applyTo roof, plan.rebuild_eq roof, rfl, rfl, ?_, fun k f hf => ?_, ?_⟩
  · rw [plan.applyTo_eq]
    exact forall₂_onLastOfId .kept (RoofFace.becomes_overlaid plan.patches) roof.faces
  · rw [plan.applyTo_eq, getElem?_onLastOfId, hf]
    rfl
  · rw [plan.rebuild_eq, plan.applyTo_applyTo]

end Housewright
