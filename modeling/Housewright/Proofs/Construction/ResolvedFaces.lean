import Housewright.Proofs.Construction.RoofsApart
import Housewright.Proofs.Inspection.RegionReports
import Housewright.Proofs.Roof.Normalization

/-!
# The faces that are handed out are those that were inspected

A multi-plane roof is inspected and its faces are resolved along different ways, both after its
dividers were written out.  What is handed out is nevertheless what the report is about.

* `RoofFace.HandedOut` says what a resolved face has to do with the face of the description and
  with the report;
* `House.buildMultiPlaneRoof_handsOut`: when a multi-plane roof is built, and that its faces are
  handed out in order;
* `House.farEnds_stops`: a roof on a level of the house that is not built.
-/

namespace Housewright

section Resolving

variable {α : Type} [Scalar α]

/-- A face resolves to the same when its dividers are written out. -/
theorem RoofFace.resolve_writeOut (roof : MultiPlaneRoof α) (f : RoofFace α) :
    (f.writeOut roof).resolve roof.normalize = f.resolve roof := by
  obtain h | ⟨items, -, hregion, h⟩ := f.writeOut_eq roof
  · rw [h, RoofFace.resolve, RoofFace.resolve]
    cases f.region with
    | ridgeCap ridgeId cap => rfl
    | halfPlanes planes => rfl
    | compound items => simp only [FaceRegion.resolve_normalize]
  · rw [h, RoofFace.resolve, RoofFace.resolve, hregion]
    simp only [FaceRegion.resolve_normalize_writeOut]

/-- What a face of the description is resolved to. -/
theorem RoofFace.resolve_eq_ok {roof : MultiPlaneRoof α} {f : RoofFace α} {face : ResolvedFace α}
    (h : f.resolve roof = .ok face) : face.faceId = f.id ∧ face.kind = f.kind ∧
      ((∃ ridgeId cap, f.region = .ridgeCap ridgeId cap ∧ face.region = .cap ridgeId cap) ∨
        (∀ ridgeId cap, f.region ≠ .ridgeCap ridgeId cap) ∧
          ((∃ planes, f.region.resolve roof = .ok (some planes) ∧ face.region = .planes planes) ∨
            f.region.resolve roof = .ok none ∧ face.region = .unresolved)) := by
  unfold RoofFace.resolve at h
  split at h
  next ridgeId cap hregion =>
    obtain rfl := pure_eq_ok.1 h
    exact ⟨rfl, rfl, .inl ⟨ridgeId, cap, hregion, rfl⟩⟩
  next hregion =>
    obtain ⟨planes?, hplanes, h⟩ := bind_eq_ok.1 h
    cases planes? with
    | some planes =>
      obtain rfl := pure_eq_ok.1 h
      exact ⟨rfl, rfl, .inr ⟨hregion, .inl ⟨planes, hplanes, rfl⟩⟩⟩
    | none =>
      obtain rfl := pure_eq_ok.1 h
      exact ⟨rfl, rfl, .inr ⟨hregion, .inr ⟨hplanes, rfl⟩⟩⟩

/-- A resolved region that can be used: a cap belongs to a ridge of the roof, and half-planes
leave three vertices of the reference square after each of them. -/
def ResolvedRegion.Usable (roof : MultiPlaneRoof α) : ResolvedRegion α → Prop
  | .cap ridgeId _ => ∃ r ∈ roof.ridges, r.id = ridgeId
  | .planes hs => ∃ rings, (Ring.referenceSquare Tolerance.referenceExtent).clipAll
      Tolerance.geometry hs = .ok rings ∧ ∀ ring ∈ rings, 3 ≤ ring.length
  | .unresolved => False

/-! ## Faces with a valid region -/

section Valid

variable {roof : MultiPlaneRoof α} {f : RoofFace α}

theorem RoofFace.exists_ridge_of_valid {ridgeId : String} {cap : RidgeEnd}
    (hcap : f.region = .ridgeCap ridgeId cap) (h : f.invalidRest? roof = .ok none) :
    ∃ r ∈ roof.ridges, r.id = ridgeId := by
  unfold invalidRest? at h
  rw [hcap] at h
  have h := pure_eq_ok.1 h
  split at h
  next hsome =>
    obtain ⟨r, hr⟩ := Option.isSome_iff_exists.1 hsome
    exact ⟨r, of_find?_key_eq_some hr⟩
  · cases h

theorem RoofFace.exists_clipAll_of_valid {planes : List (HalfPlane α)}
    (hplanes : f.region.resolve roof = .ok (some planes)) (h : f.invalidRest? roof = .ok none) :
    ∃ rings, (Ring.referenceSquare Tolerance.referenceExtent).clipAll Tolerance.geometry planes =
      .ok rings ∧ ∀ ring ∈ rings, 3 ≤ ring.length := by
  rw [RoofFace.invalidRest?_eq hplanes] at h
  obtain ⟨rest, hrest, h⟩ := bind_eq_ok.1 h
  have h := pure_eq_ok.1 h
  split at h
  · cases h
  next hlong => exact exists_clipAll hrest (Nat.not_lt.1 hlong)

/-- A region that is no cap and cannot be resolved is invalid, and nothing is left of it. -/
theorem RoofFace.invalidRest?_of_unresolved
    (hnone : ∀ ridgeId cap, f.region ≠ .ridgeCap ridgeId cap)
    (hplanes : f.region.resolve roof = .ok none) : f.invalidRest? roof = .ok (some []) := by
  unfold invalidRest?
  split
  next ridgeId cap hcap => exact absurd hcap (hnone ridgeId cap)
  · rw [hplanes]
    rfl

end Valid

/-! ## Faces that are handed out -/

/-- What a resolved face has to do with the face of the description and with the report. -/
structure RoofFace.HandedOut (roof : MultiPlaneRoof α) (report : RoofReport α) (f : RoofFace α)
    (face : ResolvedFace α) : Prop where
  faceId : face.faceId = f.id
  kind : face.kind = f.kind
  /-- A cap is handed out for a cap. -/
  cap : ∀ ridgeId cap, face.region = .cap ridgeId cap ↔ f.region = .ridgeCap ridgeId cap
  /-- Half-planes are handed out if the region resolves to them. -/
  planes : ∀ planes, face.region = .planes planes ↔ f.region.resolve roof = .ok (some planes)
  /-- If the roof is accepted, the region can be used. -/
  usable : report.ok = true → face.region.Usable roof
  /-- If there is neither, the report says so. -/
  refused : face.region = .unresolved →
    ⟨roof.id, .face f.id f.ridgeId .regionInvalid⟩ ∈ report.errors

/-- **A face that is handed out** is what its region resolves to; it can be used if the report
finds nothing wrong with its region. -/
theorem RoofFace.handedOut {roof : MultiPlaneRoof α} {report : RoofReport α} {f : RoofFace α}
    {face : ResolvedFace α} (hreport : roof.report = .ok report) (hf : f ∈ roof.faces)
    (hface : f.resolve roof = .ok face) : f.HandedOut roof report face := by
  obtain ⟨hid, hkind, hregion⟩ := RoofFace.resolve_eq_ok hface
  have hvalid (hok : report.ok = true) : f.invalidRest? roof = .ok none :=
    RoofFace.invalidRest?_of_report hf hreport (by simp [List.isEmpty_iff.1 hok])
  obtain ⟨ridgeId, cap, hcap, hface⟩ | ⟨hnone, ⟨planes, hplanes, hface⟩ | ⟨hplanes, hface⟩⟩ :=
    hregion
  · have hresolve : f.region.resolve roof = .ok none := by rw [hcap]; rfl
    refine ⟨hid, hkind, fun _ _ => ?_, fun _ => ?_, fun hok => ?_, fun h => ?_⟩
    · simp [hcap, hface]
    · simp [hresolve, hface]
    · rw [hface]
      exact RoofFace.exists_ridge_of_valid hcap (hvalid hok)
    · simp [hface] at h
  · refine ⟨hid, hkind, fun _ _ => ?_, fun _ => ?_, fun hok => ?_, fun h => ?_⟩
    · simp [hface, hnone]
    · simp [hface, hplanes]
    · rw [hface]
      exact RoofFace.exists_clipAll_of_valid hplanes (hvalid hok)
    · simp [hface] at h
  · have hrest := RoofFace.invalidRest?_of_unresolved hnone hplanes
    refine ⟨hid, hkind, fun _ _ => ?_, fun _ => ?_, fun hok => ?_, fun _ => ?_⟩
    · simp [hface, hnone]
    · simp [hface, hplanes]
    · cases hrest.symm.trans (hvalid hok)
    · obtain ⟨rest, hrest', herror⟩ := RoofFace.exists_invalidRest?_of_report hf hreport
      obtain rfl := Except.ok.inj (hrest.symm.trans hrest')
      exact herror rfl

end Resolving

/-! ## Roofs that are built -/

/-- What is left of a region can be computed if its half-planes, where it has some, can cut the
reference square. -/
theorem RoofFace.exists_invalidRest?_iff {roof : MultiPlaneRoof Float} {f : RoofFace Float} :
    (∃ rest, f.invalidRest? roof = .ok rest) ↔
      ∀ planes, f.region.resolve roof = .ok (some planes) → ∃ rest,
        clipWhileArea (Ring.referenceSquare Tolerance.referenceExtent) planes = .ok rest := by
  constructor
  · rintro ⟨rest, h⟩ planes hplanes
    rw [RoofFace.invalidRest?_eq hplanes] at h
    obtain ⟨ring, hring, -⟩ := bind_eq_ok.1 h
    exact ⟨ring, hring⟩
  · intro h
    obtain ⟨planes?, hplanes⟩ := FaceRegion.exists_resolve roof f.region
    cases planes? with
    | some planes =>
      rw [RoofFace.invalidRest?_eq hplanes]
      exact exists_bind_eq_ok (h planes hplanes) fun rest => ⟨_, rfl⟩
    | none =>
      unfold RoofFace.invalidRest?
      split
      · exact ⟨_, rfl⟩
      · rw [hplanes]
        exact ⟨_, rfl⟩

theorem House.buildMultiPlaneRoof_eq_ok {h : House Float} {r : MultiPlaneRoof Float}
    {level : Level Float} (hlevel : h.level? r.baseLevelId = some level)
    {built : BuiltRoof Float} : h.buildMultiPlaneRoof r = .ok built ↔
      ∃ report faces, r.normalize.report = .ok report ∧
        List.Forall₂ (fun f face => f.resolve r = .ok face) r.faces faces ∧
        built = .multiPlane r.id level.elevation report faces := by
  have hbase : h.baseLevel (.multiPlane r) = .ok level := by
    simp [House.baseLevel, Roof.baseLevelId, hlevel]
  have hfaces (faces : List (ResolvedFace Float)) :
      r.normalize.faces.mapM (RoofFace.resolve r.normalize) = .ok faces ↔
        List.Forall₂ (fun f face => f.resolve r = .ok face) r.faces faces := by
    rw [mapM_eq_ok, MultiPlaneRoof.normalize, List.forall₂_map_left_iff]
    simp only [← MultiPlaneRoof.normalize.eq_def, RoofFace.resolve_writeOut]
  simp only [House.buildMultiPlaneRoof, hbase, bind_eq_ok, pure_eq_ok, Computed.forRoof_eq_ok,
    hfaces, Except.ok.injEq]
  constructor
  · rintro ⟨_, rfl, report, hreport, faces, hfaces, rfl⟩
    exact ⟨report, faces, hreport, hfaces, rfl⟩
  · rintro ⟨report, faces, hreport, hfaces, rfl⟩
    exact ⟨level, rfl, report, hreport, faces, hfaces, rfl⟩

/-- The report on a roof with its dividers written out has the errors of the report on the
roof. -/
theorem MultiPlaneRoof.report_normalize_eq_ok {r : MultiPlaneRoof Float}
    {report : RoofReport Float} : r.normalize.report = .ok report ↔
      ∃ own, r.report = .ok own ∧ report = own.writeOut r := by
  rw [r.report_normalize]
  cases r.report with
  | error e => simp [Except.map]
  | ok own => simp [Except.map, eq_comm]

/-- **What is handed out is what was accepted.**  A multi-plane roof on a level of the house is
built if and only if the length of every ridge, and what the half-planes of every region leave of
the reference square, can be computed; only an overflow stops that.  Once it is built there is one
resolved face for each face, in order: a cap for a cap, and else the half-planes of its region.  If
the report finds no error, every cap belongs to a ridge of the roof, and the half-planes of every
other face leave three vertices after each of them; a face without either is an error of the
report. -/
theorem House.buildMultiPlaneRoof_handsOut {h : House Float} {r : MultiPlaneRoof Float}
    {level : Level Float} (hlevel : h.level? r.baseLevelId = some level) :
    ((∃ built, h.buildMultiPlaneRoof r = .ok built) ↔
      (∀ s ∈ r.ridges, ∃ length, s.length = .ok length) ∧
      ∀ f ∈ r.faces, ∀ planes, f.region.resolve r = .ok (some planes) → ∃ rest,
        clipWhileArea (Ring.referenceSquare Tolerance.referenceExtent) planes = .ok rest) ∧
    (∀ e, h.buildMultiPlaneRoof r = .error e → e = .geometry .overflow) ∧
    ∀ built, h.buildMultiPlaneRoof r = .ok built → ∃ report faces,
      built = .multiPlane r.id level.elevation report faces ∧ r.normalize.report = .ok report ∧
        List.Forall₂ (RoofFace.HandedOut r report) r.faces faces := by
  refine ⟨?built, ?stopped, ?handedOut⟩
  case built =>
    simp only [← RoofFace.exists_invalidRest?_iff, ← MultiPlaneRoof.exists_report_iff,
      House.buildMultiPlaneRoof_eq_ok hlevel, MultiPlaneRoof.report_normalize_eq_ok]
    constructor
    · rintro ⟨_, _, _, ⟨own, hown, -⟩, -, -⟩
      exact ⟨own, hown⟩
    · rintro ⟨own, hown⟩
      obtain ⟨faces, hfaces⟩ := exists_mapM_eq_ok fun f (_ : f ∈ r.faces) => f.exists_resolve r
      exact ⟨_, _, faces, ⟨own, hown, rfl⟩, mapM_eq_ok.1 hfaces, rfl⟩
  case stopped =>
    have hbase : h.baseLevel (.multiPlane r) = .ok level := by
      simp [House.baseLevel, Roof.baseLevelId, hlevel]
    have hreport : FailsOnly (· = .geometry .overflow) r.normalize.report.forRoof :=
      .mapError r.normalize.report_failsOnly fun e he => congrArg RoofError.geometry he
    have hfaces : FailsOnly (· = .geometry .overflow)
        (r.normalize.faces.mapM (RoofFace.resolve r.normalize)).forRoof :=
      .mapError (P := fun _ => False) (.mapM fun f _ => .of_exists (f.exists_resolve _)) nofun
    show FailsOnly (· = .geometry .overflow) (h.buildMultiPlaneRoof r)
    exact .bind_of_eq_ok hbase (.bind hreport fun _ => .bind hfaces fun _ => .pure _)
  case handedOut =>
    intro built hbuilt
    obtain ⟨report, faces, hreport, hfaces, rfl⟩ :=
      (House.buildMultiPlaneRoof_eq_ok hlevel).1 hbuilt
    refine ⟨report, faces, rfl, hreport, ?_⟩
    obtain ⟨own, hown, rfl⟩ := MultiPlaneRoof.report_normalize_eq_ok.1 hreport
    refine ((List.forall₂_and_left _ _).2 ⟨fun f hf => hf, hfaces⟩).imp fun f face hface => ?_
    obtain ⟨hid, hkind, hcap, hplanes, husable, hrefused⟩ :=
      RoofFace.handedOut hown hface.1 hface.2
    exact ⟨hid, hkind, hcap, hplanes, husable, hrefused⟩

/-- A roof with a face along its ridge and one that caps its start. -/
def MultiPlaneRoof.capped : MultiPlaneRoof Float where
  id := "roof"
  baseLevelId := "ground"
  eaveHeight := 0.0
  thickness := 0.2
  overhang := 0.0
  ridges := [⟨"main", ⟨0.0, 0.0⟩, ⟨4.0, 0.0⟩, 3.0, false, false⟩]
  faces :=
    [⟨"north", .ridgeSide, some "main", some 0.1, some 0.9, none, none, none, none, none,
        .compound [.divider "main" .left, .perpCut "main" 0.9 .behind]⟩,
      ⟨"west", .hipCap, none, none, none, none, none, none, none, none, .ridgeCap "main" .start⟩]

/-- The roof is accepted, and both of its faces are handed out. -/
theorem House.capped_handedOut : ∃ report faces,
    (House.underRoofs []).buildMultiPlaneRoof MultiPlaneRoof.capped =
      .ok (.multiPlane "roof" 0.0 report faces) ∧ report.ok = true ∧
    List.Forall₂ (RoofFace.HandedOut MultiPlaneRoof.capped report)
      MultiPlaneRoof.capped.faces faces := by
  obtain ⟨built, hbuilt⟩ : ∃ built,
      (House.underRoofs []).buildMultiPlaneRoof MultiPlaneRoof.capped = .ok built :=
    exists_eq_ok_of_isSome (by decide +kernel)
  obtain ⟨accepted, haccepted, hok⟩ := exists_eq_ok_of_any
    (x := MultiPlaneRoof.capped.normalize.report) (p := RoofReport.ok) (by decide +kernel)
  obtain ⟨report, faces, rfl, hreport, hfaces⟩ := (House.buildMultiPlaneRoof_handsOut
    (h := .underRoofs []) (r := .capped) rfl).2.2 built hbuilt
  obtain rfl := Except.ok.inj (haccepted.symm.trans hreport)
  exact ⟨accepted, faces, hbuilt, hok, hfaces⟩

/-- **A roof on a level of the house that is not built**: the square of the length of its ridge is
beyond all finite numbers. -/
theorem House.farEnds_stops :
    ((House.underRoofs []).level? (MultiPlaneRoof.bare "far" [.far]).baseLevelId).isSome = true ∧
      (House.underRoofs []).buildMultiPlaneRoof (.bare "far" [.far]) =
        .error (.geometry .overflow) := by
  refine ⟨rfl, ?_⟩
  have hstopped : (match (House.underRoofs []).buildMultiPlaneRoof (.bare "far" [.far]) with
      | .error e => decide (e = .geometry .overflow)
      | .ok _ => false) = true := by
    decide +kernel
  split at hstopped
  next e he => rw [he, of_decide_eq_true hstopped]
  · cases hstopped

end Housewright
