import Housewright.Proofs.Binary64.Nonnegative
import Housewright.Proofs.Construction.ResolvedFaces
import Housewright.Proofs.Roof.DividerSync

/-!
# Which multi-plane roofs are accepted

A roof is accepted if its report can be made and has no errors.  Then ridges and faces are what
they should be, with one gap: the length of a ridge is only refused if it is at most the
tolerance, and a length that is not a number is not.

* `MultiPlaneRoof.WellFormed`: what a roof needs, for some notion of a long ridge;
* `inspectRidges_faultless_iff`, `RoofFace.faults_eq_nil_iff`, `RoofFace.invalidRest?_eq_none_iff`:
  what has no faults;
* `Ridge.isNaN_length_iff`: when a length is not a number;
* `MultiPlaneRoof.accepted_iff_notShort`, `MultiPlaneRoof.wellFormed_notShort_iff`: what accepted
  roofs are, and when that is enough for long ridges;
* `MultiPlaneRoof.accepted_iff`: a roof is accepted if and only if it is well formed, apart from
  the lengths that are not numbers;
* `Ridge.adrift`: a ridge without a length in a roof that is accepted.
-/

namespace Housewright

open Binary64

/-! ## Well-formed roofs -/

/-- A face lies on a ridge of the roof, and its range on it runs forward from end to end at
most. -/
structure RoofFace.OnRidge (roof : MultiPlaneRoof Float) (f : RoofFace Float) : Prop where
  named : ∃ r ∈ roof.ridges, f.ridgeId = some r.id ∧ r.id ≠ ""
  range : ∃ t0 t1, f.ridgeT0 = some t0 ∧ f.ridgeT1 = some t1 ∧ 0.0 ≤ t0 ∧ t0 < t1 ∧ t1 ≤ 1.0

/-- The region of a face is the cap of a ridge of the roof, or half-planes each of which leaves
three vertices of the reference square. -/
def RoofFace.Covers (roof : MultiPlaneRoof Float) (f : RoofFace Float) : Prop :=
  (∃ ridgeId cap, f.region = .ridgeCap ridgeId cap ∧ ∃ r ∈ roof.ridges, r.id = ridgeId) ∨
    ∃ planes rings, f.region.resolve roof = .ok (some planes) ∧
      (Ring.referenceSquare Tolerance.referenceExtent).clipAll Tolerance.geometry planes =
        .ok rings ∧ ∀ ring ∈ rings, 3 ≤ ring.length

/-- What a multi-plane roof needs, where `long` says which ridges are long enough. -/
structure MultiPlaneRoof.WellFormed (long : Ridge Float → Prop) (roof : MultiPlaneRoof Float) :
    Prop where
  ridgeIds : (roof.ridges.map (·.id)).Nodup
  long : ∀ r ∈ roof.ridges, long r
  height : ∀ r ∈ roof.ridges, r.height.isFinite = true ∧ 0.0 < r.height
  ridgeSide : ∀ f ∈ roof.faces, f.kind = .ridgeSide → f.OnRidge roof
  noCapEnd : ∀ f ∈ roof.faces, f.kind ≠ .ridgeSide → f.capEnd = none
  region : ∀ f ∈ roof.faces, f.Covers roof

/-- The ridge has a length, and a length above the tolerance. -/
def Ridge.Long (r : Ridge Float) : Prop :=
  ∃ length, r.length = .ok length ∧ Tolerance.geometry < length

/-- The ends of the ridge have no difference in one of their coordinates. -/
def Ridge.Unmeasured (r : Ridge Float) : Prop :=
  (r.start.x - r.finish.x).isNaN = true ∨ (r.start.y - r.finish.y).isNaN = true

/-- The length of the ridge is not refused. -/
def Ridge.NotShort (r : Ridge Float) : Prop :=
  ∃ length, r.length = .ok length ∧ (Tolerance.geometry < length ∨ r.Unmeasured)

/-! ## Ridges without faults -/

theorem Ridge.inspect_faultless_iff {earlier : List String} {r : Ridge Float} :
    (∃ v, r.inspect earlier = .ok v ∧ v.faults = []) ↔
      r.id ∉ earlier ∧ (∃ length, r.length = .ok length ∧ ¬ length ≤ Tolerance.geometry) ∧
        Scalar.isPositive r.height = true := by
  unfold Ridge.inspect
  simp only [bind_eq_ok, pure_eq_ok]
  constructor
  · rintro ⟨v, ⟨length, hlength, rfl⟩, hfaults⟩
    obtain ⟨hids, hheight⟩ := List.append_eq_nil_iff.1 hfaults
    obtain ⟨hids, hlong⟩ := List.append_eq_nil_iff.1 hids
    refine ⟨?_, ⟨length, hlength, ?_⟩, ?_⟩
    · simpa using hids
    · simpa using hlong
    · simpa using hheight
  · rintro ⟨hids, ⟨length, hlength, hlong⟩, hheight⟩
    exact ⟨_, ⟨length, hlength, rfl⟩, by simp [hids, hlong, hheight]⟩

/-- **Ridges are faultless** if their ids are new and distinct, no length is short and every
height is positive. -/
theorem inspectRidges_faultless_iff {earlier : List String} {ridges : List (Ridge Float)} :
    (∃ verdicts, inspectRidges earlier ridges = .ok verdicts ∧ ∀ v ∈ verdicts, v.faults = []) ↔
      ((ridges.map (·.id)).Nodup ∧ ∀ r ∈ ridges, r.id ∉ earlier) ∧
        (∀ r ∈ ridges, ∃ length, r.length = .ok length ∧ ¬ length ≤ Tolerance.geometry) ∧
        ∀ r ∈ ridges, Scalar.isPositive r.height = true := by
  induction ridges generalizing earlier with
  | nil => simp [inspectRidges]
  | cons r rest ih =>
    have hsplit : (∃ verdicts, inspectRidges earlier (r :: rest) = .ok verdicts ∧
        ∀ v ∈ verdicts, v.faults = []) ↔ (∃ v, r.inspect earlier = .ok v ∧ v.faults = []) ∧
          ∃ verdicts, inspectRidges (earlier ++ [r.id]) rest = .ok verdicts ∧
            ∀ v ∈ verdicts, v.faults = [] := by
      simp only [inspectRidges, bind_eq_ok, pure_eq_ok]
      constructor
      · rintro ⟨_, ⟨v, hv, verdicts, hverdicts, rfl⟩, hall⟩
        obtain ⟨hfirst, hrest⟩ := List.forall_mem_cons.1 hall
        exact ⟨⟨v, hv, hfirst⟩, verdicts, hverdicts, hrest⟩
      · rintro ⟨⟨v, hv, hfirst⟩, verdicts, hverdicts, hrest⟩
        exact ⟨_, ⟨v, hv, verdicts, hverdicts, rfl⟩, List.forall_mem_cons.2 ⟨hfirst, hrest⟩⟩
    rw [hsplit, Ridge.inspect_faultless_iff, ih]
    simp only [List.map_cons, List.nodup_cons, List.forall_mem_cons, List.mem_append,
      List.mem_singleton, List.mem_map, not_or, not_exists, not_and]
    constructor
    · rintro ⟨⟨hnew, hlong, hheight⟩, ⟨hnodup, hnotin⟩, hlongs, hheights⟩
      exact ⟨⟨⟨fun r' hr' => (hnotin r' hr').2, hnodup⟩, hnew, fun r' hr' => (hnotin r' hr').1⟩,
        ⟨hlong, hlongs⟩, hheight, hheights⟩
    · rintro ⟨⟨⟨hother, hnodup⟩, hnew, hnotin⟩, ⟨hlong, hlongs⟩, hheight, hheights⟩
      exact ⟨⟨hnew, hlong, hheight⟩, ⟨hnodup, fun r' hr' => ⟨hnotin r' hr', hother r' hr'⟩⟩, hlongs,
        hheights⟩

/-! ## Faces without faults -/

section Faces

variable {roof : MultiPlaneRoof Float} {f : RoofFace Float}

/-- A range without faults runs forward on its ridge. -/
theorem RoofFace.rangeFaults_eq_nil_iff : f.rangeFaults = [] ↔
    ∃ t0 t1, f.ridgeT0 = some t0 ∧ f.ridgeT1 = some t1 ∧ 0.0 ≤ t0 ∧ t0 < t1 ∧ t1 ≤ 1.0 := by
  unfold RoofFace.rangeFaults RoofFace.range?
  constructor
  · intro h
    cases h0 : f.ridgeT0 with
    | none => simp [h0] at h
    | some t0 =>
      cases h1 : f.ridgeT1 with
      | none => simp [h0, h1] at h
      | some t1 =>
        refine ⟨t0, t1, rfl, rfl, ?_⟩
        simp only [h0, h1] at h
        split at h
        next => cases h
        next t0' t1' hrange =>
          obtain ⟨-, hrange⟩ := Option.ite_none_left_eq_some.1 hrange
          obtain ⟨rfl, rfl⟩ := Prod.mk.inj (Option.some_inj.1 hrange)
          obtain ⟨horder, hbounds⟩ := List.append_eq_nil_iff.1 h
          have horder : t0 < t1 := by simpa using horder
          have hbounds : 0.0 ≤ t0 ∧ t0 ≤ 1.0 ∧ 0.0 ≤ t1 ∧ t1 ≤ 1.0 := by
            simpa [onRidge] using hbounds
          exact ⟨hbounds.1, horder, hbounds.2.2.2⟩
  · rintro ⟨t0, t1, h0, h1, hlow, hlt, hhigh⟩
    obtain ⟨hn0, hn1⟩ := isNaN_of_lt hlt
    have hn0 : Scalar.isNaN t0 = false := hn0
    have hn1 : Scalar.isNaN t1 = false := hn1
    simp [h0, h1, hn0, hn1, hlt, onRidge, hlow, hhigh, le_trans (le_of_lt hlt) hhigh,
      le_trans hlow (le_of_lt hlt)]

/-- **A face has no faults** of its own if it lies on its ridge or closes no ridge end. -/
theorem RoofFace.faults_eq_nil_iff : f.faults (roof.ridges.map (·.id)) = [] ↔
    (f.kind = .ridgeSide → f.OnRidge roof) ∧ (f.kind ≠ .ridgeSide → f.capEnd = none) := by
  unfold RoofFace.faults
  cases hkind : f.kind with
  | hipCap => cases f.capEnd <;> simp
  | ridgeSide =>
    have hnamed : (f.ridgeId.any fun id => decide (id ≠ "") &&
        (roof.ridges.map (·.id)).contains id) = true ↔
          ∃ r ∈ roof.ridges, f.ridgeId = some r.id ∧ r.id ≠ "" := by
      cases f.ridgeId with
      | none => simp
      | some id =>
        simp only [Option.any_some, Bool.and_eq_true, decide_eq_true_eq, List.contains_iff_mem,
          List.mem_map, Option.some_inj]
        constructor
        · rintro ⟨hne, r, hr, rfl⟩
          exact ⟨r, hr, rfl, hne⟩
        · rintro ⟨r, hr, rfl, hne⟩
          exact ⟨hne, r, hr, rfl⟩
    simp only [List.append_eq_nil_iff, ite_eq_left_iff, List.cons_ne_nil, imp_false, not_not,
      hnamed, RoofFace.rangeFaults_eq_nil_iff, true_imp_iff, ne_eq, not_true_eq_false,
      false_imp_iff, and_true]
    exact ⟨fun h => ⟨h.1, h.2⟩, fun h => ⟨h.named, h.range⟩⟩

/-- **A region is valid** if it is a cap on a ridge of the roof, or half-planes that leave three
vertices each. -/
theorem RoofFace.invalidRest?_eq_none_iff : f.invalidRest? roof = .ok none ↔ f.Covers roof := by
  constructor
  · intro h
    cases hregion : f.region with
    | ridgeCap ridgeId cap =>
      exact .inl ⟨ridgeId, cap, hregion, RoofFace.exists_ridge_of_valid hregion h⟩
    | _ =>
      have hcap : ∀ ridgeId cap, f.region ≠ .ridgeCap ridgeId cap := by
        intro ridgeId cap hcap
        cases hregion.symm.trans hcap
      obtain ⟨planes?, hplanes⟩ := FaceRegion.exists_resolve roof f.region
      cases planes? with
      | none => cases h.symm.trans (RoofFace.invalidRest?_of_unresolved hcap hplanes)
      | some planes =>
        obtain ⟨rings, hrings, hall⟩ := RoofFace.exists_clipAll_of_valid hplanes h
        exact .inr ⟨planes, rings, hplanes, hrings, hall⟩
  · rintro (⟨ridgeId, cap, hregion, r, hr, rfl⟩ | ⟨planes, rings, hplanes, hrings, hall⟩)
    · obtain ⟨first, hfirst⟩ := exists_find?_key_of_mem (·.id) hr
      have hridge : roof.ridge? r.id = some first := hfirst
      unfold RoofFace.invalidRest?
      simp only [hregion, hridge]
      rfl
    · obtain ⟨rest, hrest, h3⟩ :=
        exists_clipWhileArea_of_clipAll (by decide) hrings hall
      rw [RoofFace.invalidRest?_eq hplanes, hrest]
      exact pure_eq_ok.2 (if_neg (Nat.not_lt.2 h3))

theorem RoofFace.inspect_faultless_iff :
    (∃ v, f.inspect roof = .ok v ∧ v.faults = []) ↔
      ((f.kind = .ridgeSide → f.OnRidge roof) ∧ (f.kind ≠ .ridgeSide → f.capEnd = none)) ∧
        f.Covers roof := by
  rw [← RoofFace.faults_eq_nil_iff, ← RoofFace.invalidRest?_eq_none_iff]
  unfold RoofFace.inspect
  simp only [bind_eq_ok, pure_eq_ok]
  constructor
  · rintro ⟨v, ⟨rest, hrest, rfl⟩, hfaults⟩
    obtain ⟨hown, hregion⟩ := List.append_eq_nil_iff.1 hfaults
    cases rest with
    | none => exact ⟨hown, hrest⟩
    | some left => cases hregion
  · rintro ⟨hown, hrest⟩
    exact ⟨_, ⟨none, hrest, rfl⟩, by simp [hown]⟩

end Faces

/-! ## Lengths -/

section Lengths

variable {r : Ridge Float} {length : Float}

/-- **The length of a ridge is not a number** if the difference of two coordinates is none. -/
theorem Ridge.isNaN_length_iff (h : r.length = .ok length) :
    length.isNaN = true ↔ r.Unmeasured := by
  simp only [Ridge.length, Point.distance, bind_eq_ok, pure_eq_ok] at h
  obtain ⟨sx, hx, sy, hy, rfl⟩ := h
  obtain rfl := square_eq_ok hx
  obtain rfl := square_eq_ok hy
  exact isNaN_sqrt_add_squares

/-- Between finite ends there is a difference, if only an infinite one. -/
theorem Ridge.not_unmeasured (hstart : r.start.x.isFinite = true ∧ r.start.y.isFinite = true)
    (hfinish : r.finish.x.isFinite = true ∧ r.finish.y.isFinite = true) : ¬ r.Unmeasured := by
  rintro (h | h)
  · cases h.symm.trans (units_sub hstart.1 hfinish.1).1
  · cases h.symm.trans (units_sub hstart.2 hfinish.2).1

/-- A length that is not refused is above the tolerance or no number. -/
theorem Ridge.notShort_iff :
    r.NotShort ↔ ∃ length, r.length = .ok length ∧ ¬ length ≤ Tolerance.geometry := by
  have hbound : (Tolerance.geometry : Float).isNaN = false := by decide +kernel
  refine exists_congr fun length => and_congr_right fun hlength => ?_
  rw [← Ridge.isNaN_length_iff hlength]
  constructor
  · rintro (hlt | hnan) hle
    · exact not_lt_of_le hle hlt
    · cases hnan.symm.trans (isNaN_of_le hle).1
  · intro hnot
    by_cases hnan : length.isNaN = true
    · exact .inr hnan
    · by_contra hshort
      have hlength := Bool.eq_false_of_not_eq_true hnan
      exact hnot ((not_lt_iff hbound hlength).1 fun hlt => hshort (.inl hlt))

end Lengths

/-! ## Accepted roofs -/

/-- A report has no errors if no ridge and no face has a fault. -/
theorem RoofReport.ok_ofVerdicts_iff {roofId : String} {ridges : List (RidgeVerdict Float)}
    {faces : List (FaceVerdict Float)} : (RoofReport.ofVerdicts roofId ridges faces).ok = true ↔
      (∀ v ∈ ridges, v.faults = []) ∧ ∀ v ∈ faces, v.faults = [] := by
  rw [RoofReport.ok, List.isEmpty_iff, RoofReport.ofVerdicts, List.append_eq_nil_iff]
  simp only [List.flatMap_eq_nil_iff, List.map_eq_nil_iff]

namespace MultiPlaneRoof

variable {roof : MultiPlaneRoof Float}

theorem accepted_iff_faultless : (∃ rep, roof.report = .ok rep ∧ rep.ok = true) ↔
    (∃ verdicts, inspectRidges [] roof.ridges = .ok verdicts ∧ ∀ v ∈ verdicts, v.faults = []) ∧
      ∃ verdicts, inspectFaces roof = .ok verdicts ∧ ∀ v ∈ verdicts, v.faults = [] := by
  simp only [report, bind_eq_ok, pure_eq_ok]
  constructor
  · rintro ⟨_, ⟨ridges, hridges, faces, hfaces, rfl⟩, hok⟩
    obtain ⟨hr, hf⟩ := RoofReport.ok_ofVerdicts_iff.1 hok
    exact ⟨⟨ridges, hridges, hr⟩, faces, hfaces, hf⟩
  · rintro ⟨⟨ridges, hridges, hr⟩, faces, hfaces, hf⟩
    exact ⟨_, ⟨ridges, hridges, faces, hfaces, rfl⟩, RoofReport.ok_ofVerdicts_iff.2 ⟨hr, hf⟩⟩

/-- What is well formed with some long ridges is so with more of them. -/
theorem WellFormed.imp {p q : Ridge Float → Prop} (h : ∀ r ∈ roof.ridges, p r → q r)
    (w : roof.WellFormed p) : roof.WellFormed q :=
  { w with long := fun r hr => h r hr (w.long r hr) }

/-- **A roof is accepted** if it is well formed, with no ridge that is refused for its length. -/
theorem accepted_iff_notShort :
    (∃ rep, roof.report = .ok rep ∧ rep.ok = true) ↔ roof.WellFormed Ridge.NotShort := by
  have hpositive (x : Float) : Scalar.isPositive x = true ↔ x.isFinite = true ∧ 0.0 < x := by
    rw [Scalar.isPositive, Bool.and_eq_true, decide_eq_true_iff]
    rfl
  rw [accepted_iff_faultless, inspectRidges_faultless_iff, inspectFaces,
    exists_mapM_eq_ok_all_iff]
  simp only [RoofFace.inspect_faultless_iff, hpositive, ← Ridge.notShort_iff]
  constructor
  · rintro ⟨⟨⟨hids, -⟩, hlong, hheight⟩, hfaces⟩
    exact ⟨hids, hlong, hheight, fun f hf => (hfaces f hf).1.1, fun f hf => (hfaces f hf).1.2,
      fun f hf => (hfaces f hf).2⟩
  · intro w
    exact ⟨⟨⟨w.ridgeIds, fun _ _ => List.not_mem_nil⟩, w.long, w.height⟩, fun f hf =>
      ⟨⟨w.ridgeSide f hf, w.noCapEnd f hf⟩, w.region f hf⟩⟩

/-- If the ends of the ridges have differences, a ridge that is not refused is long. -/
theorem wellFormed_notShort_iff (hmeasured : ∀ r ∈ roof.ridges, ¬ r.Unmeasured) :
    roof.WellFormed Ridge.NotShort ↔ roof.WellFormed Ridge.Long := by
  refine ⟨fun w => w.imp ?_, fun w => w.imp ?_⟩
  · rintro r hr ⟨length, hlength, hlt | hnan⟩
    · exact ⟨length, hlength, hlt⟩
    · exact absurd hnan (hmeasured r hr)
  · rintro r - ⟨length, hlength, hlt⟩
    exact ⟨length, hlength, .inl hlt⟩

/-- **An accepted roof is well formed**, and a well-formed one accepted, where a ridge is long
enough if its length is above the tolerance or, for ends without a difference, no number.  If
the ends of every ridge have a difference, every ridge has a length above the tolerance. -/
theorem accepted_iff (roof : MultiPlaneRoof Float) :
    ((∃ rep, roof.report = .ok rep ∧ rep.ok = true) ↔ roof.WellFormed Ridge.NotShort) ∧
      ((∀ r ∈ roof.ridges, ¬ r.Unmeasured) →
        ((∃ rep, roof.report = .ok rep ∧ rep.ok = true) ↔ roof.WellFormed Ridge.Long)) :=
  ⟨accepted_iff_notShort, fun hmeasured =>
    accepted_iff_notShort.trans (wellFormed_notShort_iff hmeasured)⟩

/-- The roof with a capped ridge is well formed. -/
theorem capped_wellFormed : MultiPlaneRoof.capped.WellFormed Ridge.Long := by
  refine ((accepted_iff .capped).2 fun r hr => ?_).1 (exists_eq_ok_of_any (by decide +kernel))
  obtain rfl := List.mem_singleton.1 hr
  exact Ridge.not_unmeasured (by decide +kernel) (by decide +kernel)

end MultiPlaneRoof

/-- A ridge that starts at no place. -/
def Ridge.adrift : Ridge Float := ⟨"main", ⟨0.0 / 0.0, 0.0⟩, ⟨4.0, 0.0⟩, 3.0, false, false⟩

/-- **Acceptance does not mean that every ridge has a length**: a roof is accepted whose only ridge
starts at no place. -/
theorem MultiPlaneRoof.accepted_without_length :
    ∃ (roof : MultiPlaneRoof Float) (rep : RoofReport Float),
      roof.report = .ok rep ∧ rep.ok = true ∧ ¬ roof.WellFormed Ridge.Long := by
  obtain ⟨rep, hrep, hok⟩ := exists_eq_ok_of_any
    (x := (MultiPlaneRoof.bare "roof" [.adrift]).report) (p := RoofReport.ok) (by decide +kernel)
  refine ⟨_, rep, hrep, hok, fun w => ?_⟩
  obtain ⟨length, hlength, hlt⟩ := w.long .adrift List.mem_cons_self
  have hnan : length.isNaN = true :=
    (Ridge.isNaN_length_iff hlength).2 (.inl (by decide +kernel))
  cases hnan.symm.trans (isNaN_of_lt hlt).2

end Housewright
