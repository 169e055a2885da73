import Housewright.Inspection.Roofs
import Housewright.Proofs.Steps

/-!
# Writing dividers out changes nothing else

`MultiPlaneRoof.normalize` writes the dividers of ridge-side faces out.  Whoever resolves a
face to its half-planes, or inspects the roof, finds the same before and after:

* `FaceRegion.resolve_writeOut`: the half-planes of a face are the same, or missing for the
  same reason;
* `MultiPlaneRoof.report_normalize`: the report is the same but for the faces that it shows,
  which are those of the roof with their dividers written out;
* `MultiPlaneRoof.normalize_normalize`: writing out twice is writing out once;
* `MultiPlaneRoof.normalize_invisible` says all of this of every roof, with faces told by
  their ids.
-/

namespace Housewright

variable {α : Type}

/-! ## What is changed -/

/-- A face is changed at most in the items of a compound region. -/
theorem RoofFace.writeOut_eq (roof : MultiPlaneRoof α) (f : RoofFace α) :
    f.writeOut roof = f ∨ ∃ items, f.kind = .ridgeSide ∧ f.region = .compound items ∧
      f.writeOut roof = { f with region := .compound (items.map (·.writeOut roof)) } := by
  rw [RoofFace.writeOut]
  split
  · rename_i items hkind hregion
    exact .inr ⟨items, hkind, hregion, rfl⟩
  · exact .inl rfl

/-- Nothing of a face but its region is changed. -/
theorem RoofFace.writeOut_eq_with_region (roof : MultiPlaneRoof α) (f : RoofFace α) :
    f.writeOut roof = { f with region := (f.writeOut roof).region } := by
  obtain h | ⟨items, -, -, h⟩ := f.writeOut_eq roof
  · rw [h]
  · rw [h]

@[simp] theorem RoofFace.id_writeOut (roof : MultiPlaneRoof α) (f : RoofFace α) :
    (f.writeOut roof).id = f.id := by
  rw [f.writeOut_eq_with_region roof]

/-- A problem names nothing of a face but its ids. -/
theorem RoofFace.problem_writeOut (roof : MultiPlaneRoof α) (f : RoofFace α)
    (fault : FaceFault α) : (f.writeOut roof).problem fault = f.problem fault := by
  rw [f.writeOut_eq_with_region roof]
  cases fault <;> rfl

/-- An item that was written out stays as it is. -/
theorem RegionItem.writeOut_writeOut (roof : MultiPlaneRoof α) (item : RegionItem α) :
    (item.writeOut roof).writeOut roof.normalize = item.writeOut roof := by
  cases item with
  | explicit plane => rfl
  | materialized plane ridgeId => rfl
  | perpCut ridgeId t keep => rfl
  | divider ridgeId keep =>
    cases hr : roof.ridge? ridgeId with
    | none =>
      have hout : (RegionItem.divider ridgeId keep).writeOut roof = .divider ridgeId keep := by
        simp only [RegionItem.writeOut, hr]
      rw [hout]
      exact hout
    | some ridge => simp only [RegionItem.writeOut, hr]

theorem RoofFace.writeOut_writeOut (roof : MultiPlaneRoof α) (f : RoofFace α) :
    (f.writeOut roof).writeOut roof.normalize = f.writeOut roof := by
  obtain h | ⟨items, hkind, -, h⟩ := f.writeOut_eq roof
  · rw [h]
    exact h
  · have hitems : (items.map (·.writeOut roof)).map (·.writeOut roof.normalize) =
        items.map (·.writeOut roof) := by
      rw [List.map_map]
      exact List.map_congr_left fun item _ => item.writeOut_writeOut roof
    rw [h, RoofFace.writeOut]
    simp only [hkind, hitems]

/-- **Writing dividers out twice** is writing them out once. -/
theorem MultiPlaneRoof.normalize_normalize (roof : MultiPlaneRoof α) :
    roof.normalize.normalize = roof.normalize := by
  have hfaces : (roof.faces.map (·.writeOut roof)).map (·.writeOut roof.normalize) =
      roof.faces.map (·.writeOut roof) := by
    rw [List.map_map]
    exact List.map_congr_left fun f _ => f.writeOut_writeOut roof
  exact congrArg (fun faces => { roof with faces }) hfaces

/-! ## Resolving -/

variable [Scalar α]

/-- An item refers to nothing but the ridges of its roof. -/
theorem RegionItem.resolve_with_faces (roof : MultiPlaneRoof α) (faces : List (RoofFace α))
    (item : RegionItem α) : item.resolve { roof with faces } = item.resolve roof := by
  cases item <;> rfl

theorem resolveItems_with_faces (roof : MultiPlaneRoof α) (faces : List (RoofFace α))
    (items : List (RegionItem α)) :
    resolveItems { roof with faces } items = resolveItems roof items := by
  induction items with
  | nil => rfl
  | cons item rest ih => rw [resolveItems, resolveItems, RegionItem.resolve_with_faces, ih]

/-- A region is resolved alike whatever the faces of its roof. -/
theorem FaceRegion.resolve_with_faces (roof : MultiPlaneRoof α) (faces : List (RoofFace α))
    (region : FaceRegion α) : region.resolve { roof with faces } = region.resolve roof := by
  cases region with
  | halfPlanes planes => rfl
  | ridgeCap ridgeId cap => rfl
  | compound items => exact resolveItems_with_faces roof faces items

theorem FaceRegion.resolve_normalize (roof : MultiPlaneRoof α) (region : FaceRegion α) :
    region.resolve roof.normalize = region.resolve roof :=
  region.resolve_with_faces roof _

/-- A divider that was written out is the half-plane that it was resolved to; one whose ridge
is unknown is still a divider. -/
theorem RegionItem.resolve_writeOut (roof : MultiPlaneRoof α) (item : RegionItem α) :
    (item.writeOut roof).resolve roof = item.resolve roof := by
  cases item with
  | explicit plane => rfl
  | materialized plane ridgeId => rfl
  | perpCut ridgeId t keep => rfl
  | divider ridgeId keep =>
    cases hr : roof.ridge? ridgeId with
    | none => simp only [RegionItem.writeOut, hr]
    | some ridge => simp only [RegionItem.writeOut, RegionItem.resolve, hr, Option.map_some]

/-- Items are resolved one by one up to the first that cannot be; writing out keeps both. -/
theorem resolveItems_writeOut (roof : MultiPlaneRoof α) (items : List (RegionItem α)) :
    resolveItems roof (items.map (·.writeOut roof)) = resolveItems roof items := by
  induction items with
  | nil => rfl
  | cons item rest ih =>
    rw [List.map_cons, resolveItems, resolveItems, RegionItem.resolve_writeOut, ih]

/-- **A face resolves to the same half-planes** when its dividers are written out. -/
theorem FaceRegion.resolve_writeOut (roof : MultiPlaneRoof α) (f : RoofFace α) :
    (f.writeOut roof).region.resolve roof = f.region.resolve roof := by
  obtain h | ⟨items, -, hregion, h⟩ := f.writeOut_eq roof
  · rw [h]
  · rw [h, hregion]
    exact resolveItems_writeOut roof items

/-- The same against the roof with its dividers written out. -/
theorem FaceRegion.resolve_normalize_writeOut (roof : MultiPlaneRoof α)
    (items : List (RegionItem α)) :
    (compound (items.map (·.writeOut roof))).resolve roof.normalize =
      (compound items).resolve roof := by
  rw [resolve_normalize]
  exact resolveItems_writeOut roof items

/-! ## Inspecting -/

/-- The region of a face is judged alike whatever the faces of its roof. -/
theorem RoofFace.invalidRest?_with_faces (roof : MultiPlaneRoof α) (faces : List (RoofFace α))
    (f : RoofFace α) : f.invalidRest? { roof with faces } = f.invalidRest? roof := by
  rw [RoofFace.invalidRest?, RoofFace.invalidRest?]
  cases f.region with
  | ridgeCap ridgeId cap => rfl
  | halfPlanes planes => rfl
  | compound items => simp only [FaceRegion.resolve_with_faces]

/-- What is left of an invalid region stays the same: the cap of a ridge is not changed, and
other regions are cut by the same half-planes. -/
theorem RoofFace.invalidRest?_writeOut (roof : MultiPlaneRoof α) (f : RoofFace α) :
    (f.writeOut roof).invalidRest? roof.normalize = f.invalidRest? roof := by
  obtain h | ⟨items, -, hregion, h⟩ := f.writeOut_eq roof
  · rw [h]
    exact f.invalidRest?_with_faces roof _
  · rw [h, RoofFace.invalidRest?, RoofFace.invalidRest?, hregion]
    simp only [FaceRegion.resolve_normalize_writeOut]

/-- A verdict on a face, of the face with its dividers written out. -/
def FaceVerdict.writeOut (roof : MultiPlaneRoof α) (v : FaceVerdict α) : FaceVerdict α :=
  { v with face := v.face.writeOut roof }

/-- A face is judged the same, and shown as it is. -/
theorem RoofFace.inspect_writeOut (roof : MultiPlaneRoof α) (f : RoofFace α) :
    (f.writeOut roof).inspect roof.normalize = (f.inspect roof).map (·.writeOut roof) := by
  have hfaults (ids : List String) : (f.writeOut roof).faults ids = f.faults ids := by
    rw [f.writeOut_eq_with_region roof]
    rfl
  have hsuspicious : (f.writeOut roof).suspiciousRange? = f.suspiciousRange? := by
    rw [f.writeOut_eq_with_region roof]
    rfl
  rw [RoofFace.inspect, RoofFace.inspect, RoofFace.invalidRest?_writeOut, hfaults, hsuspicious]
  cases f.invalidRest? roof <;> rfl

/-- All faces are judged the same. -/
theorem inspectFaces_normalize (roof : MultiPlaneRoof α) :
    inspectFaces roof.normalize = (inspectFaces roof).map (·.map (·.writeOut roof)) :=
  mapM_map_eq_map (fun f => f.inspect_writeOut roof) roof.faces

/-! ## The report -/

/-- A report that shows faces with their dividers written out. -/
def RoofReport.writeOut (roof : MultiPlaneRoof α) (r : RoofReport α) : RoofReport α :=
  { r with
    invalidFaces := r.invalidFaces.map (·.writeOut roof)
    suspiciousFaces := r.suspiciousFaces.map (·.writeOut roof) }

omit [Scalar α] in
theorem RoofReport.ofVerdicts_writeOut (roof : MultiPlaneRoof α) (ridges : List (RidgeVerdict α))
    (faces : List (FaceVerdict α)) :
    RoofReport.ofVerdicts roof.id ridges (faces.map (·.writeOut roof)) =
      (RoofReport.ofVerdicts roof.id ridges faces).writeOut roof := by
  simp only [RoofReport.ofVerdicts, RoofReport.writeOut, RoofReport.mk.injEq, true_and]
  refine ⟨?errors, ?warnings, ?invalidFaces, ?suspiciousFaces, ?invalidPolygons⟩
  case errors =>
    rw [List.flatMap_map]
    simp only [FaceVerdict.writeOut, RoofFace.problem_writeOut]
  case warnings =>
    rw [List.filterMap_map]
    refine List.filterMap_congr fun v _ => ?_
    rw [Function.comp_apply, FaceVerdict.writeOut, v.face.writeOut_eq_with_region roof]
  case invalidFaces =>
    rw [List.filterMap_map, List.map_filterMap]
    refine List.filterMap_congr fun v _ => ?_
    rw [Function.comp_apply, FaceVerdict.writeOut]
    split <;> rfl
  case suspiciousFaces =>
    rw [List.filterMap_map, List.map_filterMap]
    refine List.filterMap_congr fun v _ => ?_
    rw [Function.comp_apply, FaceVerdict.writeOut, Option.map_map]
    rfl
  case invalidPolygons =>
    rw [List.foldl_map]
    simp only [FaceVerdict.writeOut, RoofFace.id_writeOut]

/-- **The report of a roof with its dividers written out** is that of the roof, with the faces
that it shows written out. -/
theorem MultiPlaneRoof.report_normalize (roof : MultiPlaneRoof α) :
    roof.normalize.report = roof.report.map (·.writeOut roof) := by
  rw [MultiPlaneRoof.report, MultiPlaneRoof.report, inspectFaces_normalize]
  show (inspectRidges [] roof.ridges >>= _) = _
  cases inspectRidges [] roof.ridges with
  | error e => rfl
  | ok ridges =>
    cases inspectFaces roof with
    | error e => rfl
    | ok faces => exact congrArg Except.ok (RoofReport.ofVerdicts_writeOut roof ridges faces)

/-- What a report says, with faces told by their ids. -/
structure RoofFindings (α : Type) where
  errors : List (RoofIssue α)
  warnings : List (RoofIssue α)
  invalidRidges : List (Ridge α)
  invalidFaceIds : List String
  suspiciousFaceIds : List String
  invalidPolygons : List (String × Ring α)

/-- What a report says. -/
def RoofReport.findings {α : Type} (r : RoofReport α) : RoofFindings α where
  errors := r.errors
  warnings := r.warnings
  invalidRidges := r.invalidRidges
  invalidFaceIds := r.invalidFaces.map (·.id)
  suspiciousFaceIds := r.suspiciousFaces.map (·.id)
  invalidPolygons := r.invalidPolygons

omit [Scalar α] in
/-- A report says the same when it shows its faces written out. -/
theorem RoofReport.findings_writeOut (roof : MultiPlaneRoof α) (r : RoofReport α) :
    (r.writeOut roof).findings = r.findings := by
  simp only [RoofReport.findings, RoofReport.writeOut, List.map_map, Function.comp_def,
    RoofFace.id_writeOut]

/-- **Writing dividers out is invisible.**  Every face of a roof resolves to the same
half-planes before and after, the report finds the same or is stopped by the same failure,
and writing out twice is writing out once. -/
theorem MultiPlaneRoof.normalize_invisible (roof : MultiPlaneRoof α) :
    List.Forall₂ (fun f g => g.id = f.id ∧
        g.region.resolve roof.normalize = f.region.resolve roof) roof.faces roof.normalize.faces ∧
      roof.normalize.report.map RoofReport.findings = roof.report.map RoofReport.findings ∧
      roof.normalize.normalize = roof.normalize := by
  refine ⟨?resolved, ?reported, roof.normalize_normalize⟩
  case resolved =>
    show List.Forall₂ _ roof.faces (roof.faces.map (·.writeOut roof))
    rw [List.forall₂_map_right_iff]
    refine List.forall₂_same.2 fun f _ => ⟨f.id_writeOut roof, ?_⟩
    rw [FaceRegion.resolve_normalize, FaceRegion.resolve_writeOut]
  case reported =>
    rw [roof.report_normalize]
    cases roof.report with
    | error e => rfl
    | ok r => exact congrArg Except.ok (RoofReport.findings_writeOut roof r)

end Housewright
