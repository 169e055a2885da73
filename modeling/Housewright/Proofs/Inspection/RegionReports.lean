import Housewright.Inspection.Roofs
import Housewright.Proofs.Steps

/-!
# What a report says about the region of a face

* `exists_clipAll`, `exists_clipWhileArea_of_clipAll`: three vertices are left by all half-planes if
  and only if the first few of them leave as many each time;
* `RoofFace.invalidRest?_eq`: the region of a face is judged by what its half-planes leave of the
  reference square;
* `MultiPlaneRoof.exists_report_iff`: when there is a report;
* `RoofFace.exists_invalidRest?_of_report`: an invalid region is an error in the report.
-/

namespace Housewright

variable {α : Type} [Scalar α]

/-! ## Cutting -/

/-- If three vertices are left in the end, they were left after every half-plane. -/
theorem exists_clipAll {r s : Ring α} {planes : List (HalfPlane α)}
    (h : clipWhileArea r planes = .ok s) (h3 : 3 ≤ s.length) :
    ∃ rings, r.clipAll Tolerance.geometry planes = .ok rings ∧ ∀ ring ∈ rings, 3 ≤ ring.length := by
  induction planes generalizing r with
  | nil => exact ⟨[], rfl, nofun⟩
  | cons plane rest ih =>
    obtain ⟨clipped, hclip, h⟩ := bind_eq_ok.1 h
    split at h
    next hshort =>
      obtain rfl := pure_eq_ok.1 h
      exact absurd hshort (Nat.not_lt.2 h3)
    next hlong =>
      obtain ⟨rings, hrings, hall⟩ := ih h
      refine ⟨clipped :: rings, ?_, List.forall_mem_cons.2 ⟨Nat.not_lt.1 hlong, hall⟩⟩
      simp only [Ring.clipAll, bind_eq_ok, pure_eq_ok]
      exact ⟨clipped, hclip, rings, hrings, rfl⟩

/-- If three vertices are left after every half-plane, they are left in the end. -/
theorem exists_clipWhileArea_of_clipAll {r : Ring α} {planes : List (HalfPlane α)}
    {rings : List (Ring α)} (h3 : 3 ≤ r.length)
    (h : r.clipAll Tolerance.geometry planes = .ok rings)
    (hall : ∀ ring ∈ rings, 3 ≤ ring.length) :
    ∃ s, clipWhileArea r planes = .ok s ∧ 3 ≤ s.length := by
  induction planes generalizing r rings with
  | nil => exact ⟨r, rfl, h3⟩
  | cons plane rest ih =>
    simp only [Ring.clipAll, bind_eq_ok, pure_eq_ok] at h
    obtain ⟨clipped, hclip, others, hothers, rfl⟩ := h
    obtain ⟨hclipped, hall⟩ := List.forall_mem_cons.1 hall
    obtain ⟨s, hs, hs3⟩ := ih hclipped hothers hall
    refine ⟨s, bind_eq_ok.2 ⟨clipped, hclip, ?_⟩, hs3⟩
    rwa [if_neg (Nat.not_lt.2 hclipped)]

/-! ## Regions -/

/-- The region of a face that resolves to half-planes is what they leave of the square. -/
theorem RoofFace.invalidRest?_eq {roof : MultiPlaneRoof α} {f : RoofFace α}
    {planes : List (HalfPlane α)} (hresolve : f.region.resolve roof = .ok (some planes)) :
    f.invalidRest? roof =
      clipWhileArea (Ring.referenceSquare Tolerance.referenceExtent) planes >>= fun rest =>
        pure (if rest.length < 3 then some rest else none) := by
  unfold invalidRest?
  split
  · rename_i ridgeId cap hregion
    rw [hregion] at hresolve
    cases hresolve
  · rw [hresolve]
    rfl

/-! ## Reports -/

theorem exists_inspectRidges_iff (earlier : List String) {ridges : List (Ridge α)} :
    (∃ verdicts, inspectRidges earlier ridges = .ok verdicts) ↔
      ∀ r ∈ ridges, ∃ length, r.length = .ok length := by
  induction ridges generalizing earlier with
  | nil => exact iff_of_true ⟨[], rfl⟩ nofun
  | cons r rest ih =>
    rw [List.forall_mem_cons]
    constructor
    · rintro ⟨verdicts, h⟩
      simp only [inspectRidges, Ridge.inspect, bind_eq_ok] at h
      obtain ⟨_, ⟨length, hlength, -⟩, others, hothers, -⟩ := h
      exact ⟨⟨length, hlength⟩, (ih _).1 ⟨others, hothers⟩⟩
    · rintro ⟨hlength, hrest⟩
      have hfirst : ∃ verdict, r.inspect earlier = .ok verdict :=
        exists_bind_eq_ok hlength fun length => ⟨_, rfl⟩
      exact exists_bind_eq_ok hfirst fun _ => exists_bind_eq_ok ((ih _).2 hrest) fun _ => ⟨_, rfl⟩

theorem exists_inspectFaces_iff {roof : MultiPlaneRoof α} :
    (∃ verdicts, inspectFaces roof = .ok verdicts) ↔
      ∀ f ∈ roof.faces, ∃ rest, f.invalidRest? roof = .ok rest := by
  constructor
  · rintro ⟨verdicts, h⟩ f hf
    obtain ⟨i, hi⟩ := List.mem_iff_getElem?.1 hf
    obtain ⟨v, -, hv⟩ := exists_of_forall₂ (mapM_eq_ok.1 h) hi
    obtain ⟨rest, hrest, -⟩ := bind_eq_ok.1 hv
    exact ⟨rest, hrest⟩
  · exact fun h => exists_mapM_eq_ok fun f hf => exists_bind_eq_ok (h f hf) fun rest => ⟨_, rfl⟩

/-- **When there is a report**: the lengths of all ridges and what is left of all regions can be
computed. -/
theorem MultiPlaneRoof.exists_report_iff {roof : MultiPlaneRoof α} :
    (∃ rep, roof.report = .ok rep) ↔ (∀ r ∈ roof.ridges, ∃ length, r.length = .ok length) ∧
      ∀ f ∈ roof.faces, ∃ rest, f.invalidRest? roof = .ok rest := by
  rw [← exists_inspectRidges_iff [], ← exists_inspectFaces_iff]
  constructor
  · rintro ⟨rep, h⟩
    obtain ⟨ridges, hridges, h⟩ := bind_eq_ok.1 h
    obtain ⟨faces, hfaces, -⟩ := bind_eq_ok.1 h
    exact ⟨⟨ridges, hridges⟩, faces, hfaces⟩
  · rintro ⟨hridges, hfaces⟩
    exact exists_bind_eq_ok hridges fun _ => exists_bind_eq_ok hfaces fun _ => ⟨_, rfl⟩

/-- An invalid region is an error in the report. -/
theorem RoofFace.exists_invalidRest?_of_report {roof : MultiPlaneRoof α} {f : RoofFace α}
    {rep : RoofReport α} (hf : f ∈ roof.faces) (hrep : roof.report = .ok rep) :
    ∃ rest, f.invalidRest? roof = .ok rest ∧
      (rest.isSome = true → ⟨roof.id, f.problem .regionInvalid⟩ ∈ rep.errors) := by
  unfold MultiPlaneRoof.report at hrep
  obtain ⟨ridges, -, hrep⟩ := bind_eq_ok.1 hrep
  obtain ⟨faces, hfaces, hrep⟩ := bind_eq_ok.1 hrep
  obtain rfl := pure_eq_ok.1 hrep
  obtain ⟨i, hi⟩ := List.mem_iff_getElem?.1 hf
  obtain ⟨v, hv, hinspect⟩ := exists_of_forall₂ (mapM_eq_ok.1 hfaces) hi
  have hv := List.mem_of_getElem? hv
  unfold inspect at hinspect
  obtain ⟨rest, hrest, hinspect⟩ := bind_eq_ok.1 hinspect
  obtain rfl := pure_eq_ok.1 hinspect
  refine ⟨rest, hrest, fun hsome => ?_⟩
  refine List.mem_append_right _ (List.mem_flatMap.2 ⟨_, hv, ?_⟩)
  refine List.mem_map.2 ⟨.regionInvalid, List.mem_append_right _ ?_, rfl⟩
  rw [if_pos hsome]
  exact List.mem_cons_self

/-- A face that the report finds no fault with in its region has a valid region. -/
theorem RoofFace.invalidRest?_of_report {roof : MultiPlaneRoof α} {f : RoofFace α}
    {rep : RoofReport α} (hf : f ∈ roof.faces) (hrep : roof.report = .ok rep)
    (haccepted : ⟨roof.id, f.problem .regionInvalid⟩ ∉ rep.errors) :
    f.invalidRest? roof = .ok none := by
  obtain ⟨rest, hrest, herror⟩ := exists_invalidRest?_of_report hf hrep
  cases rest with
  | none => exact hrest
  | some left => exact absurd (herror rfl) haccepted

end Housewright
