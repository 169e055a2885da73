import Housewright.Proofs.Construction.RoofReports
import Housewright.Proofs.Inspection.RegionReports
import Housewright.Proofs.Roof.Normalization

/-!
# What the lists of a roof report have to do with each other

A report on a multi-plane roof has its errors in one list and the ridges and faces that they are
about in two others.  Which error was recorded for which ridge or face is told by the reports on
the first few ridges and faces of the roof: each goes beyond the one before it by the errors of one
ridge or face.

* `MultiPlaneRoof.Recorded`: the errors of a report, ridge by ridge and then face by face;
  `MultiPlaneRoof.Recorded.unique` says that there is one way only to divide them;
* `withErrors`: the entries that have errors;
* `RoofReport.Precedes`: a report goes on from another one;
* `MultiPlaneRoof.report_accounts`: the ridges and faces that a report shows are those with
  errors, its suspicious faces those with warnings, and one more face only adds to each list.
-/

namespace Housewright

/-! ## Entries with errors -/

section Blocks

variable {β γ V : Type}

/-- The entries that have errors, in order, where the errors of each entry stand beside it. -/
def withErrors (entries : List β) (errors : List (List γ)) : List β :=
  ((entries.zip errors).filter fun p => !p.2.isEmpty).map (·.1)

/-- No entry has errors if there are none. -/
theorem withErrors_eq_nil_iff {entries : List β} {errors : List (List γ)}
    (hlen : entries.length = errors.length) :
    withErrors entries errors = [] ↔ errors.flatten = [] := by
  have hbeside : (entries.zip errors).map (·.2) = errors :=
    List.map_snd_zip (Nat.le_of_eq hlen.symm)
  rw [withErrors, List.map_eq_nil_iff, List.filter_eq_nil_iff, List.flatten_eq_nil_iff]
  conv_rhs => rw [← hbeside]
  simp only [List.forall_mem_map, Bool.not_eq_true, Bool.not_eq_false', List.isEmpty_iff]

/-- The entries with errors, where errors and entries are told by verdicts. -/
theorem withErrors_map {entries : List β} {verdicts : List V} {entry : V → β}
    (h : List.Forall₂ (fun x v => entry v = x) entries verdicts) (errors : V → List γ) :
    withErrors entries (verdicts.map errors) =
      verdicts.filterMap fun v => if (errors v).isEmpty then none else some (entry v) := by
  obtain rfl := map_eq_map_of_forall₂ (f := id) h |>.trans (List.map_id _)
  rw [withErrors, List.zip_map', List.filter_map, List.map_map, ← List.filterMap_eq_map,
    List.filterMap_filter]
  refine List.filterMap_congr fun v _ => ?_
  by_cases hv : (errors v).isEmpty <;> simp [hv]

/-- Lists of lists are told by what their beginnings amount to. -/
theorem eq_of_flatten_take {xs ys : List (List γ)} (hlen : xs.length = ys.length)
    (h : ∀ n, (xs.take n).flatten = (ys.take n).flatten) : xs = ys := by
  refine List.ext_getElem hlen fun i hx hy => ?_
  have hnext := h (i + 1)
  rw [List.take_succ_eq_append_getElem hx, List.take_succ_eq_append_getElem hy,
    List.flatten_append, List.flatten_append, h i] at hnext
  simpa using hnext

/-- The keys under which something is filed. -/
theorem mem_keys_filed_iff {key : γ → String} {value : γ → V} {xs : List γ} {k : String} :
    k ∈ (filed key value [] xs).map (·.1) ↔ ∃ x ∈ xs, key x = k := by
  constructor
  · intro hk
    obtain ⟨⟨k, v⟩, hkv, rfl⟩ := List.mem_map.1 hk
    obtain ⟨x, hx, hkey, -⟩ := mem_filed_nil_iff.1 hkv
    exact ⟨x, hx.mem, hkey⟩
  · intro hk
    obtain ⟨x, hx, hkey⟩ := exists_isLast hk
    exact List.mem_map.2 ⟨(k, value x), mem_filed_nil_iff.2 ⟨x, hx, hkey, rfl⟩, rfl⟩

/-- Filing only adds keys, at the end. -/
theorem keys_prefix_filed (key : γ → String) (value : γ → V) (kept : List (String × V))
    (xs : List γ) : kept.map (·.1) <+: (filed key value kept xs).map (·.1) := by
  induction xs generalizing kept with
  | nil => exact List.prefix_rfl
  | cons x rest ih =>
    refine List.IsPrefix.trans ?_ (ih (upsert (key x) (value x) kept))
    rw [keys_upsert]
    split
    · exact List.prefix_rfl
    · exact List.prefix_append _ _

end Blocks

variable {α : Type}

/-! ## Verdicts -/

/-- The errors that a verdict on a ridge records. -/
def RidgeVerdict.issues (roofId : String) (v : RidgeVerdict α) : List (RoofIssue α) :=
  v.faults.map fun fault => ⟨roofId, .ridge v.ridge.id fault⟩

/-- The errors that a verdict on a face records. -/
def FaceVerdict.issues (roofId : String) (v : FaceVerdict α) : List (RoofIssue α) :=
  v.faults.map fun fault => ⟨roofId, v.face.problem fault⟩

/-- What is left of the region of a face, if the region is invalid, under the id of the face. -/
def FaceVerdict.polygon? (v : FaceVerdict α) : Option (String × Ring α) :=
  v.invalidRest.map fun rest => (v.face.id, rest)

namespace RoofReport

variable {roofId : String} {ridges : List (RidgeVerdict α)} {faces : List (FaceVerdict α)}

theorem errors_ofVerdicts : (ofVerdicts roofId ridges faces).errors =
    (ridges.map (·.issues roofId)).flatten ++ (faces.map (·.issues roofId)).flatten := by
  rw [← List.flatMap_def, ← List.flatMap_def]
  rfl

theorem mem_errors_ofVerdicts_iff {id : String} {ridgeId : Option String} :
    ⟨roofId, .face id ridgeId .regionInvalid⟩ ∈ (ofVerdicts roofId ridges faces).errors ↔
      ∃ v ∈ faces, FaceFault.regionInvalid ∈ v.faults ∧ v.face.id = id ∧
        v.face.ridgeId = ridgeId := by
  have hproblem (f : RoofFace α) (fault : FaceFault α) :
      f.problem fault = .face id ridgeId .regionInvalid ↔
        fault = .regionInvalid ∧ f.id = id ∧ f.ridgeId = ridgeId := by
    cases fault <;> simp [RoofFace.problem]
  simp only [ofVerdicts, List.mem_append, List.mem_flatMap, List.mem_map, RoofIssue.mk.injEq,
    true_and, reduceCtorEq, and_false, exists_false, false_or, hproblem]
  constructor
  · rintro ⟨v, hv, fault, hfault, rfl, hid, hridge⟩
    exact ⟨v, hv, hfault, hid, hridge⟩
  · rintro ⟨v, hv, hfault, hid, hridge⟩
    exact ⟨v, hv, _, hfault, rfl, hid, hridge⟩

theorem invalidPolygons_ofVerdicts : (ofVerdicts roofId ridges faces).invalidPolygons =
    filed (·.1) (·.2) [] (faces.filterMap (·.polygon?)) := by
  rw [filed, List.foldl_filterMap]
  refine List.foldl_ext _ _ _ fun polygons v _ => ?_
  unfold FaceVerdict.polygon?
  cases v.invalidRest <;> rfl

/-- A report goes on from another one: each of its lists begins with that of the other. -/
structure Precedes (before after : RoofReport α) : Prop where
  errors : before.errors <+: after.errors
  warnings : before.warnings <+: after.warnings
  invalidRidges : before.invalidRidges <+: after.invalidRidges
  invalidFaces : before.invalidFaces <+: after.invalidFaces
  suspiciousFaces : before.suspiciousFaces <+: after.suspiciousFaces
  polygonFaces : before.invalidPolygons.map (·.1) <+: after.invalidPolygons.map (·.1)

/-- Verdicts on more faces add to the report. -/
theorem precedes_ofVerdicts (more : List (FaceVerdict α)) :
    (ofVerdicts roofId ridges faces).Precedes (ofVerdicts roofId ridges (faces ++ more)) where
  errors := by
    rw [errors_ofVerdicts, errors_ofVerdicts, List.map_append, List.flatten_append,
      ← List.append_assoc]
    exact List.prefix_append _ _
  warnings := by
    simp only [ofVerdicts, List.filterMap_append]
    exact List.prefix_append _ _
  invalidRidges := List.prefix_rfl
  invalidFaces := by
    simp only [ofVerdicts, List.filterMap_append]
    exact List.prefix_append _ _
  suspiciousFaces := by
    simp only [ofVerdicts, List.filterMap_append]
    exact List.prefix_append _ _
  polygonFaces := by
    rw [invalidPolygons_ofVerdicts, invalidPolygons_ofVerdicts, List.filterMap_append]
    unfold filed
    rw [List.foldl_append]
    exact keys_prefix_filed _ _ _ _

/-- Suspicious faces stand beside their warnings. -/
theorem suspicious_beside_warnings : List.Forall₂
    (fun f w => ∃ t0 t1, w = ⟨roofId, .suspiciousRange f.id f.ridgeId t0 t1⟩)
    (ofVerdicts roofId ridges faces).suspiciousFaces
    (ofVerdicts roofId ridges faces).warnings := by
  induction faces with
  | nil => exact .nil
  | cons v rest ih =>
    simp only [ofVerdicts, List.filterMap_cons] at ih ⊢
    cases v.suspicious with
    | none => exact ih
    | some range => exact .cons ⟨range.1, range.2, rfl⟩ ih

theorem suspiciousFaces_sublist :
    (ofVerdicts roofId ridges faces).suspiciousFaces.Sublist (faces.map (·.face)) := by
  induction faces with
  | nil => exact .slnil
  | cons v rest ih =>
    simp only [ofVerdicts, List.filterMap_cons, List.map_cons] at ih ⊢
    cases v.suspicious with
    | none => exact ih.cons _
    | some range => exact ih.cons_cons _

end RoofReport

variable [Scalar α]

/-! ## Judging some of the ridges and faces -/

theorem RidgeVerdict.ridge_of_inspect {earlier : List String} {r : Ridge α} {v : RidgeVerdict α}
    (h : r.inspect earlier = .ok v) : v.ridge = r := by
  obtain ⟨length, -, h⟩ := bind_eq_ok.1 h
  obtain rfl := pure_eq_ok.1 h
  rfl

/-- Verdicts stand beside the ridges that they are on. -/
theorem inspectRidges_beside {earlier : List String} {ridges : List (Ridge α)}
    {verdicts : List (RidgeVerdict α)} (h : inspectRidges earlier ridges = .ok verdicts) :
    List.Forall₂ (fun r v => RidgeVerdict.ridge v = r) ridges verdicts := by
  induction ridges generalizing earlier verdicts with
  | nil =>
    obtain rfl := Except.ok.inj h
    exact .nil
  | cons r rest ih =>
    simp only [inspectRidges, bind_eq_ok, pure_eq_ok] at h
    obtain ⟨v, hv, others, hothers, rfl⟩ := h
    exact .cons (RidgeVerdict.ridge_of_inspect hv) (ih hothers)

/-- A ridge is judged by the ridges before it only. -/
theorem inspectRidges_take {earlier : List String} {ridges : List (Ridge α)}
    {verdicts : List (RidgeVerdict α)} (h : inspectRidges earlier ridges = .ok verdicts) (n : ℕ) :
    inspectRidges earlier (ridges.take n) = .ok (verdicts.take n) := by
  induction ridges generalizing earlier verdicts n with
  | nil =>
    obtain rfl := Except.ok.inj h
    rw [List.take_nil, List.take_nil]
    rfl
  | cons r rest ih =>
    simp only [inspectRidges, bind_eq_ok, pure_eq_ok] at h
    obtain ⟨v, hv, others, hothers, rfl⟩ := h
    cases n with
    | zero => rfl
    | succ n =>
      simp only [List.take_succ_cons, inspectRidges, bind_eq_ok, pure_eq_ok]
      exact ⟨v, hv, others.take n, ih hothers n, rfl⟩

/-- A face is judged by the ridges of its roof, and not by the other faces. -/
theorem RoofFace.inspect_with_faces (roof : MultiPlaneRoof α) (faces : List (RoofFace α))
    (f : RoofFace α) : f.inspect { roof with faces } = f.inspect roof := by
  rw [RoofFace.inspect, RoofFace.inspect, f.invalidRest?_with_faces]

/-- The region of a face is not among what is judged without it. -/
theorem RoofFace.regionInvalid_not_mem_faults (ridgeIds : List String) (f : RoofFace α) :
    FaceFault.regionInvalid ∉ f.faults ridgeIds := by
  have hrange : FaceFault.regionInvalid ∉ f.rangeFaults := by
    unfold RoofFace.rangeFaults
    cases f.range? with
    | none => simp
    | some range => simp
  unfold RoofFace.faults
  cases f.kind with
  | ridgeSide => simp [hrange]
  | hipCap => simp

/-- What a verdict on a face is on, and when it is that its region is invalid. -/
theorem RoofFace.inspect_spec {roof : MultiPlaneRoof α} {f : RoofFace α} {v : FaceVerdict α}
    (h : f.inspect roof = .ok v) :
    v.face = f ∧ (v.invalidRest.isSome = true ↔ FaceFault.regionInvalid ∈ v.faults) := by
  obtain ⟨rest, -, h⟩ := bind_eq_ok.1 h
  obtain rfl := pure_eq_ok.1 h
  refine ⟨rfl, ?_⟩
  rw [List.mem_append, or_iff_right (f.regionInvalid_not_mem_faults _)]
  cases rest <;> simp

namespace MultiPlaneRoof

/-- The roof with its first so many ridges, and without faces. -/
def firstRidges (roof : MultiPlaneRoof α) (n : ℕ) : MultiPlaneRoof α :=
  { roof with ridges := roof.ridges.take n, faces := [] }

/-- The roof with its first so many faces. -/
def firstFaces (roof : MultiPlaneRoof α) (n : ℕ) : MultiPlaneRoof α :=
  { roof with faces := roof.faces.take n }

/-- The roof with one more face. -/
def addFace (roof : MultiPlaneRoof α) (f : RoofFace α) : MultiPlaneRoof α :=
  { roof with faces := roof.faces ++ [f] }

/-- The errors of a report, divided by the ridges and faces that they were recorded for: those of
the ridges come first, each names its own, and the reports on the first few ridges and faces have
the errors of these. -/
structure Recorded (roof : MultiPlaneRoof α) (rep : RoofReport α)
    (ridgeErrors faceErrors : List (List (RoofIssue α))) : Prop where
  errors : rep.errors = ridgeErrors.flatten ++ faceErrors.flatten
  ridges : List.Forall₂ (fun r es => ∀ e ∈ es, ∃ fault, e = ⟨roof.id, .ridge r.id fault⟩)
    roof.ridges ridgeErrors
  faces : List.Forall₂ (fun f es => ∀ e ∈ es, ∃ fault, e = ⟨roof.id, f.problem fault⟩)
    roof.faces faceErrors
  ridgeByRidge : ∀ n, ∃ part, (roof.firstRidges n).report = .ok part ∧
    part.errors = (ridgeErrors.take n).flatten
  faceByFace : ∀ n, ∃ part, (roof.firstFaces n).report = .ok part ∧
    part.errors = ridgeErrors.flatten ++ (faceErrors.take n).flatten

variable {roof : MultiPlaneRoof α} {rep : RoofReport α}

/-- **There is one way only** to divide the errors of a report. -/
theorem Recorded.unique {rs rs' fs fs' : List (List (RoofIssue α))} (h : roof.Recorded rep rs fs)
    (h' : roof.Recorded rep rs' fs') : rs = rs' ∧ fs = fs' := by
  have hridges : rs = rs' := by
    refine eq_of_flatten_take (h.ridges.length_eq.symm.trans h'.ridges.length_eq) fun n => ?_
    obtain ⟨part, hpart, hn⟩ := h.ridgeByRidge n
    obtain ⟨part', hpart', hn'⟩ := h'.ridgeByRidge n
    obtain rfl := Except.ok.inj (hpart.symm.trans hpart')
    exact hn.symm.trans hn'
  subst hridges
  refine ⟨rfl, ?_⟩
  refine eq_of_flatten_take (h.faces.length_eq.symm.trans h'.faces.length_eq) fun n => ?_
  obtain ⟨part, hpart, hn⟩ := h.faceByFace n
  obtain ⟨part', hpart', hn'⟩ := h'.faceByFace n
  obtain rfl := Except.ok.inj (hpart.symm.trans hpart')
  exact List.append_cancel_left (hn.symm.trans hn')

theorem report_eq_ok_iff : roof.report = .ok rep ↔ ∃ ridges faces,
    inspectRidges [] roof.ridges = .ok ridges ∧ inspectFaces roof = .ok faces ∧
      rep = .ofVerdicts roof.id ridges faces := by
  simp only [report, bind_eq_ok, pure_eq_ok]
  constructor
  · rintro ⟨ridges, hridges, faces, hfaces, rfl⟩
    exact ⟨ridges, faces, hridges, hfaces, rfl⟩
  · rintro ⟨ridges, faces, hridges, hfaces, rfl⟩
    exact ⟨ridges, hridges, faces, hfaces, rfl⟩

/-- Faces are judged one by one. -/
theorem inspectFaces_with_faces {faces : List (RoofFace α)} {verdicts : List (FaceVerdict α)} :
    inspectFaces { roof with faces } = .ok verdicts ↔
      List.Forall₂ (fun f v => f.inspect roof = .ok v) faces verdicts := by
  rw [inspectFaces, mapM_eq_ok]
  simp only [RoofFace.inspect_with_faces]

section Verdicts

variable {ridges : List (RidgeVerdict α)} {faces : List (FaceVerdict α)}

/-- The errors of a report are recorded verdict by verdict. -/
theorem recorded_ofVerdicts (hridges : inspectRidges [] roof.ridges = .ok ridges)
    (hfaces : List.Forall₂ (fun f v => f.inspect roof = .ok v) roof.faces faces) :
    roof.Recorded (.ofVerdicts roof.id ridges faces) (ridges.map (·.issues roof.id))
      (faces.map (·.issues roof.id)) where
  errors := RoofReport.errors_ofVerdicts
  ridges := by
    rw [List.forall₂_map_right_iff]
    refine (inspectRidges_beside hridges).imp ?_
    rintro _ v rfl e he
    obtain ⟨fault, -, rfl⟩ := List.mem_map.1 he
    exact ⟨fault, rfl⟩
  faces := by
    rw [List.forall₂_map_right_iff]
    refine hfaces.imp fun f v hv e he => ?_
    obtain ⟨fault, -, rfl⟩ := List.mem_map.1 he
    exact ⟨fault, by rw [(RoofFace.inspect_spec hv).1]⟩
  ridgeByRidge n := by
    refine ⟨.ofVerdicts roof.id (ridges.take n) [], report_eq_ok_iff.2
      ⟨_, _, inspectRidges_take hridges n, rfl, rfl⟩, ?_⟩
    rw [RoofReport.errors_ofVerdicts, List.map_take]
    exact List.append_nil _
  faceByFace n := by
    refine ⟨.ofVerdicts roof.id ridges (faces.take n), report_eq_ok_iff.2
      ⟨_, _, hridges, inspectFaces_with_faces.2 (List.forall₂_take n hfaces), rfl⟩, ?_⟩
    rw [RoofReport.errors_ofVerdicts, List.map_take]

/-- The ridges that a report shows are those with errors. -/
theorem invalidRidges_ofVerdicts (hridges : inspectRidges [] roof.ridges = .ok ridges)
    (faces : List (FaceVerdict α)) :
    (RoofReport.ofVerdicts roof.id ridges faces).invalidRidges =
      withErrors roof.ridges (ridges.map (·.issues roof.id)) := by
  rw [withErrors_map (inspectRidges_beside hridges)]
  simp only [RidgeVerdict.issues, List.isEmpty_map]
  rfl

/-- The faces that a report shows are those with errors. -/
theorem invalidFaces_ofVerdicts (ridges : List (RidgeVerdict α))
    (hfaces : List.Forall₂ (fun f v => f.inspect roof = .ok v) roof.faces faces) :
    (RoofReport.ofVerdicts roof.id ridges faces).invalidFaces =
      withErrors roof.faces (faces.map (·.issues roof.id)) := by
  rw [withErrors_map (hfaces.imp fun f v hv => (RoofFace.inspect_spec hv).1)]
  simp only [FaceVerdict.issues, List.isEmpty_map]
  rfl

/-- What is left of a region stands under the id of a face with an error about its region. -/
theorem mem_polygonFaces_iff
    (hfaces : List.Forall₂ (fun f v => f.inspect roof = .ok v) roof.faces faces) (id : String) :
    id ∈ (RoofReport.ofVerdicts roof.id ridges faces).invalidPolygons.map (·.1) ↔
      ∃ ridgeId, ⟨roof.id, .face id ridgeId .regionInvalid⟩ ∈
        (RoofReport.ofVerdicts roof.id ridges faces).errors := by
  have hverdict : ∀ v ∈ faces,
      v.invalidRest.isSome = true ↔ FaceFault.regionInvalid ∈ v.faults := by
    intro v hv
    obtain ⟨f, -, hf⟩ := exists_of_forall₂_right hfaces hv
    exact (RoofFace.inspect_spec hf).2
  simp only [RoofReport.invalidPolygons_ofVerdicts, mem_keys_filed_iff, List.mem_filterMap,
    RoofReport.mem_errors_ofVerdicts_iff]
  constructor
  · rintro ⟨p, ⟨v, hv, hp⟩, rfl⟩
    obtain ⟨rest, hrest, rfl⟩ := Option.map_eq_some_iff.1 hp
    exact ⟨v.face.ridgeId, v, hv, (hverdict v hv).1 (by rw [hrest]; rfl), rfl, rfl⟩
  · rintro ⟨ridgeId, v, hv, hfault, rfl, -⟩
    obtain ⟨rest, hrest⟩ := Option.isSome_iff_exists.1 ((hverdict v hv).2 hfault)
    exact ⟨(v.face.id, rest), ⟨v, hv, Option.map_eq_some_iff.2 ⟨rest, hrest, rfl⟩⟩, rfl⟩

end Verdicts

/-- One more face has a verdict of its own. -/
theorem inspectFaces_addFace {f : RoofFace α} {verdicts : List (FaceVerdict α)} :
    inspectFaces (roof.addFace f) = .ok verdicts ↔ ∃ faces v, inspectFaces roof = .ok faces ∧
      f.inspect roof = .ok v ∧ verdicts = faces ++ [v] := by
  have hall : inspectFaces (roof.addFace f) = (roof.faces ++ [f]).mapM (·.inspect roof) := by
    rw [inspectFaces]
    simp only [addFace, RoofFace.inspect_with_faces]
  rw [hall, List.mapM_append]
  simp only [List.mapM_cons, List.mapM_nil, bind_eq_ok, pure_eq_ok, inspectFaces]
  constructor
  · rintro ⟨faces, hfaces, _, ⟨v, hv, _, rfl, rfl⟩, rfl⟩
    exact ⟨faces, v, hfaces, hv, rfl⟩
  · rintro ⟨faces, v, hfaces, hv, rfl⟩
    exact ⟨faces, hfaces, [v], ⟨v, hv, [], rfl, rfl⟩, rfl⟩

/-- **One more face only adds to a report**, which can be made if what is left of the region of the
face can be computed. -/
theorem report_addFace (h : roof.report = .ok rep) (f : RoofFace α) :
    ((∃ rep', (roof.addFace f).report = .ok rep') ↔ ∃ rest, f.invalidRest? roof = .ok rest) ∧
      ∀ rep', (roof.addFace f).report = .ok rep' → rep.Precedes rep' := by
  obtain ⟨ridges, faces, hridges, hfaces, rfl⟩ := report_eq_ok_iff.1 h
  constructor
  · constructor
    · rintro ⟨rep', h'⟩
      obtain ⟨-, _, -, hmore, -⟩ := report_eq_ok_iff.1 h'
      obtain ⟨-, v, -, hv, -⟩ := inspectFaces_addFace.1 hmore
      obtain ⟨rest, hrest, -⟩ := bind_eq_ok.1 hv
      exact ⟨rest, hrest⟩
    · rintro hrest
      obtain ⟨v, hv⟩ : ∃ v, f.inspect roof = .ok v := exists_bind_eq_ok hrest fun _ => ⟨_, rfl⟩
      exact ⟨_, report_eq_ok_iff.2 ⟨ridges, faces ++ [v], hridges,
        inspectFaces_addFace.2 ⟨faces, v, hfaces, hv, rfl⟩, rfl⟩⟩
  · intro rep' h'
    obtain ⟨ridges', _, hridges', hmore, rfl⟩ := report_eq_ok_iff.1 h'
    obtain ⟨faces', v, hfaces', hv, rfl⟩ := inspectFaces_addFace.1 hmore
    obtain rfl : ridges = ridges' := Except.ok.inj (hridges.symm.trans hridges')
    obtain rfl : faces = faces' := Except.ok.inj (hfaces.symm.trans hfaces')
    exact RoofReport.precedes_ofVerdicts [v]

/-- **The lists of a report agree.**  The errors of a report on a multi-plane roof can be divided in
one way only by what they were recorded for, first the ridges and then the faces, in order.  The
invalid ridges and faces are those with errors, so that a report is ok if there are none; the
suspicious faces stand beside the warnings, one warning each; and what is left of a region is
there, once, for the ids of the faces with an error about their region.  One more face only adds to
the report. -/
theorem report_accounts (h : roof.report = .ok rep) :
    (∃ ridgeErrors faceErrors, roof.Recorded rep ridgeErrors faceErrors ∧
      (∀ rs fs, roof.Recorded rep rs fs → rs = ridgeErrors ∧ fs = faceErrors) ∧
      rep.invalidRidges = withErrors roof.ridges ridgeErrors ∧
      rep.invalidFaces = withErrors roof.faces faceErrors) ∧
    (rep.ok = true ↔ rep.invalidRidges = [] ∧ rep.invalidFaces = []) ∧
    rep.suspiciousFaces.Sublist roof.faces ∧
    List.Forall₂ (fun f w => ∃ t0 t1, w = ⟨roof.id, .suspiciousRange f.id f.ridgeId t0 t1⟩)
      rep.suspiciousFaces rep.warnings ∧
    (rep.invalidPolygons.map (·.1)).Nodup ∧
    (∀ id, id ∈ rep.invalidPolygons.map (·.1) ↔
      ∃ ridgeId, ⟨roof.id, .face id ridgeId .regionInvalid⟩ ∈ rep.errors) ∧
    ∀ f, ((∃ rep', (roof.addFace f).report = .ok rep') ↔
        ∃ rest, f.invalidRest? roof = .ok rest) ∧
      ∀ rep', (roof.addFace f).report = .ok rep' → rep.Precedes rep' := by
  have hadd := report_addFace h
  obtain ⟨ridges, faces, hridges, hinspect, rfl⟩ := report_eq_ok_iff.1 h
  have hfaces := mapM_eq_ok.1 hinspect
  have hrecorded := recorded_ofVerdicts hridges hfaces
  have hinvalidRidges := invalidRidges_ofVerdicts hridges faces
  have hinvalidFaces := invalidFaces_ofVerdicts ridges hfaces
  refine ⟨⟨_, _, hrecorded, fun rs fs h' => h'.unique hrecorded, hinvalidRidges, hinvalidFaces⟩,
    ?_, ?_, RoofReport.suspicious_beside_warnings, ?_, mem_polygonFaces_iff hfaces, hadd⟩
  · rw [RoofReport.ok, List.isEmpty_iff, hinvalidRidges, hinvalidFaces,
      withErrors_eq_nil_iff hrecorded.ridges.length_eq,
      withErrors_eq_nil_iff hrecorded.faces.length_eq, hrecorded.errors, List.append_eq_nil_iff]
  · have hbeside : faces.map (·.face) = roof.faces := by
      have hsame := hfaces.imp fun f v hv => (RoofFace.inspect_spec hv).1
      rw [map_eq_map_of_forall₂ (f := fun f => f) hsame, List.map_id']
    exact hbeside ▸ RoofReport.suspiciousFaces_sublist
  · rw [RoofReport.invalidPolygons_ofVerdicts]
    exact nodup_keys_filed List.nodup_nil

/-- A roof with a ridge that has every fault, and two faces of one id. -/
def faulty : MultiPlaneRoof Float where
  id := "roof"
  baseLevelId := "ground"
  eaveHeight := 0.0
  thickness := 0.2
  overhang := 0.0
  ridges :=
    [⟨"main", ⟨0.0, 0.0⟩, ⟨4.0, 0.0⟩, 3.0, false, false⟩,
      ⟨"main", ⟨1.0, 1.0⟩, ⟨1.0, 1.0⟩, 0.0, false, false⟩]
  faces :=
    [⟨"north", .ridgeSide, some "main", some 0.5, some 0.4, none, none, none, none, none,
        .compound [.divider "main" .left]⟩,
      ⟨"south", .ridgeSide, some "ghost", none, none, none, none, none, none, none,
        .compound [.divider "ghost" .left]⟩,
      ⟨"south", .hipCap, none, none, none, none, some .start, none, none, none,
        .ridgeCap "main" .start⟩]

/-- The report on the faulty roof has eight errors, of one ridge and of all faces. -/
theorem faulty_accounts : ∃ rep, faulty.report = .ok rep ∧ rep.errors.length = 8 ∧
    rep.invalidRidges.length = 1 ∧ rep.invalidPolygons.map (·.1) = ["south"] ∧
    (∃ ridgeErrors faceErrors, faulty.Recorded rep ridgeErrors faceErrors ∧
      rep.invalidFaces = withErrors faulty.faces faceErrors) ∧ ∃ w, rep.warnings = [w] := by
  obtain ⟨rep, hrep, hfacts⟩ := exists_eq_ok_of_any (x := faulty.report)
    (p := fun rep => rep.errors.length == 8 && rep.invalidRidges.length == 1 &&
      rep.invalidPolygons.map (·.1) == ["south"] && rep.suspiciousFaces.length == 1)
    (by decide +kernel)
  simp only [Bool.and_eq_true, beq_iff_eq] at hfacts
  obtain ⟨⟨⟨herrors, hridges⟩, hpolygons⟩, hsuspicious⟩ := hfacts
  obtain ⟨⟨ridgeErrors, faceErrors, hrecorded, -, -, hfaces⟩, -, -, hwarnings, -⟩ :=
    report_accounts hrep
  exact ⟨rep, hrep, herrors, hridges, hpolygons, ⟨ridgeErrors, faceErrors, hrecorded, hfaces⟩,
    List.length_eq_one_iff.1 (hwarnings.length_eq.symm.trans hsuspicious)⟩

end MultiPlaneRoof

end Housewright
