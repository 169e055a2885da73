import Mathlib.Analysis.Convex.Combination
import Housewright.Proofs.Inspection.RegionCuts
import Housewright.Proofs.Inspection.RegionReports

/-!
# When is the region of a face valid?

The region of a face is valid if three vertices of the reference square are left when it is cut
by the half-planes of the region.  In exact arithmetic this can be compared with the set that the
half-planes keep of the square.

* `InGeneralPosition.hull_eq`: in general position, where no tolerance matters, the hull of the
  ring is the part of the square that the half-planes keep;
* `RoofFace.regionVerdict_exact`: the verdict is then exact, and the order of the half-planes
  does not matter;
* `MultiPlaneRoof.nonempty_of_accepted`: otherwise a region that is accepted is empty only if a
  point outside was kept because of the tolerance, which may be far away from the line
  (`MultiPlaneRoof.farStrip_empty`).
-/

namespace Housewright

noncomputable section

/-! ## The reference square -/

/-- The square that regions are cut from. -/
def regionSquare : Ring ℝ := Ring.referenceSquare Tolerance.referenceExtent

/-- The part of the reference square that some half-planes keep. -/
def keptRegion (planes : List (HalfPlane ℝ)) : Set (ℝ × ℝ) :=
  Set.Icc (-Tolerance.referenceExtent) Tolerance.referenceExtent ×ˢ
    Set.Icc (-Tolerance.referenceExtent) Tolerance.referenceExtent ∩ keptBy planes

theorem regionSquare_eq : regionSquare =
    [(-1000, -1000), (1000, -1000), (1000, 1000), (-1000, 1000)].map Point.ofInts := by
  norm_num [regionSquare, Ring.referenceSquare, referenceExtent_eq, Point.ofInts]

theorem regionSquare_turnsLeft : regionSquare.TurnsLeft := by
  rw [regionSquare_eq]
  norm_num [Ring.TurnsLeft, List.triplewise_cons, Point.spanned, Point.ofInts]

theorem hull_regionSquare : regionSquare.hull =
    Set.Icc (-Tolerance.referenceExtent) Tolerance.referenceExtent ×ˢ
      Set.Icc (-Tolerance.referenceExtent) Tolerance.referenceExtent := by
  have hcorners : regionSquare.vertexSet =
      {-Tolerance.referenceExtent, Tolerance.referenceExtent} ×ˢ
        {-Tolerance.referenceExtent, Tolerance.referenceExtent} := by
    ext ⟨x, y⟩
    simp only [Ring.vertexSet, regionSquare, Ring.referenceSquare, Point.coords, List.mem_cons,
      List.not_mem_nil, or_false, exists_eq_or_imp, exists_eq_left, Prod.mk.injEq,
      Set.mem_ofPred_eq, Set.mem_prod, Set.mem_insert_iff, Set.mem_singleton_iff]
    tauto
  rw [Ring.hull, hcorners, convexHull_prod, convexHull_pair, segment_eq_Icc]
  rw [referenceExtent_eq]
  norm_num

/-! ## The verdict -/

/-- Half-planes are in general position if each of them cuts what the ones before it have left of
the reference square cleanly. -/
def InGeneralPosition (planes : List (HalfPlane ℝ)) : Prop :=
  regionSquare.AtEveryCut (fun h s => h.CutsCleanly Tolerance.geometry s) planes

theorem InGeneralPosition.sharp {planes : List (HalfPlane ℝ)}
    (hposition : InGeneralPosition planes) :
    regionSquare.AtEveryCut (fun h s => ∀ v ∈ s, h.Sharp v) planes :=
  hposition.imp fun _ _ hclean v hv => HalfPlane.sharp_of_offLine (hclean.offLine v hv)

theorem InGeneralPosition.hull_eq {planes done rest : List (HalfPlane ℝ)} {s : Ring ℝ}
    (hposition : InGeneralPosition planes) (hplanes : planes = done ++ rest)
    (hcuts : regionSquare.CutsTo done s) : s.TurnsLeft ∧ s.hull = keptRegion done := by
  subst hplanes
  obtain ⟨hleft, -, heq⟩ :=
    hcuts.turnsLeft_and_hull regionSquare_turnsLeft hposition.sharp.of_append
  refine ⟨hleft, ?_⟩
  have hrepeats := Ring.AtEveryCut.of_append (hposition.imp fun _ _ hclean => hclean.repeats)
  rw [heq hrepeats, hull_regionSquare, keptRegion]

theorem keptRegion_append_subset (planes later : List (HalfPlane ℝ)) :
    keptRegion (planes ++ later) ⊆ keptRegion planes :=
  Set.inter_subset_inter_right _ fun _ hx h hh => hx h (List.mem_append_left later hh)

/-- The verdict in general position. -/
theorem RoofFace.exists_verdict {roof : MultiPlaneRoof ℝ} {f : RoofFace ℝ}
    {planes : List (HalfPlane ℝ)} (hresolve : f.region.resolve roof = .ok (some planes))
    (hposition : InGeneralPosition planes) :
    ∃ rest, f.invalidRest? roof = .ok rest ∧
      (rest = none ↔ (interior (keptRegion planes)).Nonempty) := by
  have h3 : 3 ≤ regionSquare.length := by decide
  obtain ⟨s, hs⟩ := exists_clipWhileArea regionSquare planes
  obtain ⟨done, rest, hplanes, hcuts, hend⟩ := (clipWhileArea_eq_ok h3).1 hs
  obtain ⟨hleft, hhull⟩ := hposition.hull_eq hplanes hcuts
  refine ⟨if s.length < 3 then some s else none, ?_, ?_⟩
  · rw [invalidRest?_eq hresolve, ← regionSquare, hs]
    rfl
  have hverdict := hleft.interior_hull_nonempty_iff
  rw [hhull] at hverdict
  by_cases hshort : s.length < 3
  · rw [if_pos hshort]
    refine iff_of_false (by simp) fun hinterior => ?_
    -- what is left is empty already, whatever half-planes come later
    have hsubset := hplanes ▸ keptRegion_append_subset done rest
    have hlong := hverdict.1 (hinterior.mono (interior_mono hsubset))
    omega
  · obtain rfl := hend.resolve_left hshort
    rw [List.append_nil] at hplanes
    rw [if_neg hshort, hplanes]
    exact iff_of_true rfl (hverdict.2 (not_lt.1 hshort))

/-- **The verdict on a region in general position is exact.**  After every step the vertices of
the ring are the corners of the part of the reference square that the half-planes so far keep;
the region is valid if and only if what all of them keep has an interior; and the order of the
half-planes does not matter. -/
theorem RoofFace.regionVerdict_exact {roof : MultiPlaneRoof ℝ} {f : RoofFace ℝ}
    {planes : List (HalfPlane ℝ)} (hresolve : f.region.resolve roof = .ok (some planes))
    (hposition : InGeneralPosition planes) :
    (∀ done rest s, planes = done ++ rest → regionSquare.CutsTo done s →
      s.vertexSet = (keptRegion done).extremePoints ℝ ∧
        (3 ≤ s.length → ∀ h later, rest = h :: later →
          ∃ t, s.clip h Tolerance.geometry = .ok t)) ∧
    (∃ rest, f.invalidRest? roof = .ok rest ∧
      (rest = none ↔ (interior (keptRegion planes)).Nonempty)) ∧
    ∀ (roof' : MultiPlaneRoof ℝ) (f' : RoofFace ℝ) (planes' : List (HalfPlane ℝ)),
      planes'.Perm planes → f'.region.resolve roof' = .ok (some planes') →
      InGeneralPosition planes' →
      ∃ rest rest', f.invalidRest? roof = .ok rest ∧ f'.invalidRest? roof' = .ok rest' ∧
        (rest' = none ↔ rest = none) := by
  refine ⟨fun done rest s hplanes hcuts => ⟨?_, fun _ h _ _ => s.exists_clip h _⟩,
    exists_verdict hresolve hposition, ?_⟩
  · obtain ⟨hleft, hhull⟩ := hposition.hull_eq hplanes hcuts
    rw [← hhull, hleft.extremePoints_hull]
  · intro roof' f' planes' hperm hresolve' hposition'
    obtain ⟨rest, hrest, hverdict⟩ := exists_verdict hresolve hposition
    obtain ⟨rest', hrest', hverdict'⟩ := exists_verdict hresolve' hposition'
    have hsame : keptRegion planes' = keptRegion planes := by
      simp only [keptRegion, keptBy, hperm.mem_iff]
    refine ⟨rest, rest', hrest, hrest', ?_⟩
    rw [hverdict', hverdict, hsame]

/-- The half-plane of the points that are not west of the origin. -/
def eastPlane : HalfPlane ℝ := ⟨⟨0, 0⟩, ⟨0, 1⟩, .left⟩

/-- The half-plane below a diagonal of the reference square. -/
def slopePlane : HalfPlane ℝ := ⟨⟨0, 0⟩, ⟨1, -1⟩, .left⟩

/-- A cap face with some half-planes as its region. -/
def capFace (planes : List (HalfPlane ℝ)) : RoofFace ℝ where
  id := "cap"
  kind := .hipCap
  ridgeId := none
  ridgeT0 := none
  ridgeT1 := none
  side := none
  capEnd := none
  p1 := none
  p2 := none
  p3 := none
  region := .halfPlanes planes

/-- A roof of one cap face. -/
def capRoof (planes : List (HalfPlane ℝ)) : MultiPlaneRoof ℝ where
  id := "roof"
  baseLevelId := "ground"
  eaveHeight := 3
  thickness := 1
  overhang := 0
  ridges := []
  faces := [capFace planes]

/-- Two half-planes are in general position if both cut cleanly, one after the other, and what they
leave has whole coordinates. -/
theorem inGeneralPosition_pair {h k : HalfPlane ℝ} {first kept second : List (ℤ × ℤ)}
    (hfirst : h.cutRing regionSquare = first.map Point.ofInts) (hlong : 3 ≤ first.length)
    (hkept : Ring.pruned 0 (first.map Point.ofInts) = kept.map Point.ofInts)
    (hsecond : k.cutRing (kept.map Point.ofInts) = second.map Point.ofInts)
    (hoff : ∀ v ∈ regionSquare,
      sideOfLine v h.a h.b = 0 ∨ Tolerance.geometry < |sideOfLine v h.a h.b|)
    (hnext : ∀ v ∈ kept.map Point.ofInts,
      sideOfLine v k.a k.b = 0 ∨ Tolerance.geometry < |sideOfLine v k.a k.b|) :
    InGeneralPosition [h, k] := by
  have hclean := HalfPlane.cutsCleanly_of_ints hoff hfirst
  refine .cons hclean fun t ht => ?_
  rw [hclean.clip_eq_ok HalfPlane.geometry_pos.le le_rfl, hfirst, List.length_map,
    if_neg (not_lt.2 hlong), hkept] at ht
  obtain rfl := Except.ok.inj ht
  exact .cons (HalfPlane.cutsCleanly_of_ints hnext hsecond) fun _ _ => .nil

/-- One after the other, the two half-planes cut cleanly. -/
theorem eastPlane_slopePlane_position : InGeneralPosition [eastPlane, slopePlane] := by
  have heast : eastPlane.cutRing regionSquare =
      [(0, -1000), (1000, -1000), (1000, 1000), (0, 1000)].map Point.ofInts := by
    rw [regionSquare_eq]
    norm_num [HalfPlane.cutRing, eastPlane, Ring.edgesInto, HalfPlane.cut, HalfPlane.depth,
      sideOfLine, HalfPlane.hit, Point.along, Point.ofInts]
  have hslope : slopePlane.cutRing
      ([(0, -1000), (1000, -1000), (1000, 1000), (0, 1000)].map Point.ofInts) =
        [(0, 0), (0, -1000), (1000, -1000), (1000, -1000)].map Point.ofInts := by
    norm_num [HalfPlane.cutRing, slopePlane, Ring.edgesInto, HalfPlane.cut, HalfPlane.depth,
      sideOfLine, HalfPlane.hit, Point.along, Point.ofInts]
  refine inGeneralPosition_pair heast (by decide) ?_ hslope ?_ ?_
  · norm_num [Ring.pruned, Ring.distant, Ring.unclosed, Point.gap_ofInts_pos_iff,
      Point.gap_ofInts_le_zero_iff]
  · rw [regionSquare_eq]
    norm_num [eastPlane, sideOfLine, Tolerance.geometry, Point.ofInts]
  · norm_num [slopePlane, sideOfLine, Tolerance.geometry, Point.ofInts]

/-- They do so in the other order, too. -/
theorem slopePlane_eastPlane_position : InGeneralPosition [slopePlane, eastPlane] := by
  have hslope : slopePlane.cutRing regionSquare =
      [(-1000, -1000), (1000, -1000), (1000, -1000), (-1000, 1000), (-1000, 1000)].map
        Point.ofInts := by
    rw [regionSquare_eq]
    norm_num [HalfPlane.cutRing, slopePlane, Ring.edgesInto, HalfPlane.cut, HalfPlane.depth,
      sideOfLine, HalfPlane.hit, Point.along, Point.ofInts]
  have heast : eastPlane.cutRing
      ([(-1000, -1000), (1000, -1000), (-1000, 1000)].map Point.ofInts) =
        [(0, -1000), (1000, -1000), (0, 0)].map Point.ofInts := by
    norm_num [HalfPlane.cutRing, eastPlane, Ring.edgesInto, HalfPlane.cut, HalfPlane.depth,
      sideOfLine, HalfPlane.hit, Point.along, Point.ofInts]
  refine inGeneralPosition_pair hslope (by decide) ?_ heast ?_ ?_
  · norm_num [Ring.pruned, Ring.distant, Ring.unclosed, Point.gap_ofInts_pos_iff,
      Point.gap_ofInts_le_zero_iff]
  · rw [regionSquare_eq]
    norm_num [slopePlane, sideOfLine, Tolerance.geometry, Point.ofInts]
  · norm_num [eastPlane, sideOfLine, Tolerance.geometry, Point.ofInts]

/-- The face in a corner of the reference square, and the verdict on it in either order. -/
theorem RoofFace.corner_verdict :
    (∀ done rest s, [eastPlane, slopePlane] = done ++ rest → regionSquare.CutsTo done s →
      s.vertexSet = (keptRegion done).extremePoints ℝ ∧
        (3 ≤ s.length → ∀ h later, rest = h :: later →
          ∃ t, s.clip h Tolerance.geometry = .ok t)) ∧
    (∃ rest, (capFace [eastPlane, slopePlane]).invalidRest? (capRoof []) = .ok rest ∧
      (rest = none ↔ (interior (keptRegion [eastPlane, slopePlane])).Nonempty)) ∧
    ∃ rest rest', (capFace [eastPlane, slopePlane]).invalidRest? (capRoof []) = .ok rest ∧
      (capFace [slopePlane, eastPlane]).invalidRest? (capRoof []) = .ok rest' ∧
        (rest' = none ↔ rest = none) := by
  have hresolve (planes : List (HalfPlane ℝ)) :
      (capFace planes).region.resolve (capRoof []) = .ok (some planes) := rfl
  obtain ⟨hcorners, hverdict, horder⟩ :=
    regionVerdict_exact (hresolve _) eastPlane_slopePlane_position
  refine ⟨hcorners, hverdict, ?_⟩
  exact horder _ _ _ (.swap _ _ _) (hresolve _) slopePlane_eastPlane_position

/-! ## Regions that are accepted -/

/-- The half-planes of a region can always be found. -/
theorem FaceRegion.exists_planes (roof : MultiPlaneRoof ℝ) (region : FaceRegion ℝ) :
    ∃ planes, region.resolve roof = .ok planes := by
  have hcut (r : Ridge ℝ) (t : ℝ) (keep : CutSide) : ∃ plane, r.perpCut t keep = .ok plane := by
    unfold Ridge.perpCut Ridge.unitDirection
    refine exists_bind_eq_ok ⟨_, Vec.divide_eq_ok _ ?_⟩ fun u => ⟨_, rfl⟩
    split_ifs with hshort
    · norm_num
    · rw [beq_iff_eq] at hshort
      norm_num at hshort
      exact hshort
  have hitem (item : RegionItem ℝ) : ∃ plane, item.resolve roof = .ok plane := by
    cases item with
    | explicit plane => exact ⟨_, rfl⟩
    | materialized plane ridgeId => exact ⟨_, rfl⟩
    | divider ridgeId keep => exact ⟨_, rfl⟩
    | perpCut ridgeId t keep =>
      rw [RegionItem.resolve]
      cases roof.ridge? ridgeId with
      | none => exact ⟨none, rfl⟩
      | some r => exact exists_bind_eq_ok (hcut r t keep) fun plane => ⟨_, rfl⟩
  cases region with
  | halfPlanes planes => exact ⟨_, rfl⟩
  | ridgeCap ridgeId cap => exact ⟨_, rfl⟩
  | compound items =>
    rw [resolve]
    induction items with
    | nil => exact ⟨_, rfl⟩
    | cons item rest ih =>
      rw [resolveItems]
      refine exists_bind_eq_ok (hitem item) fun plane? => ?_
      cases plane? with
      | none => exact ⟨none, rfl⟩
      | some plane => exact exists_bind_eq_ok ih fun planes? => ⟨_, rfl⟩

/-- **Every roof is reported on.** -/
theorem MultiPlaneRoof.exists_report (roof : MultiPlaneRoof ℝ) : ∃ rep, roof.report = .ok rep := by
  refine MultiPlaneRoof.exists_report_iff.2 ⟨fun r _ => ⟨_, rfl⟩, fun f _ => ?_⟩
  unfold RoofFace.invalidRest?
  split
  · exact ⟨_, rfl⟩
  · refine exists_bind_eq_ok (FaceRegion.exists_planes roof _) fun planes? => ?_
    cases planes? with
    | none => exact ⟨_, rfl⟩
    | some planes => exact exists_bind_eq_ok (exists_clipWhileArea _ _) fun rest => ⟨_, rfl⟩

/-- At some cut a vertex is kept, because of the tolerance, that is outside the half-plane. -/
def KeepsOutsider (planes : List (HalfPlane ℝ)) : Prop :=
  ∃ done h rest s, planes = done ++ h :: rest ∧ regionSquare.CutsTo done s ∧ 3 ≤ s.length ∧
    ∃ v ∈ s, h.depth v < 0 ∧ -Tolerance.geometry ≤ h.depth v

/-- If no vertex outside is kept, none is near the line on the outside. -/
theorem atEveryCut_sharp_of_not_keepsOutsider {planes : List (HalfPlane ℝ)}
    (hnone : ¬ KeepsOutsider planes) :
    regionSquare.AtEveryCut (fun h s => ∀ v ∈ s, h.Sharp v) planes := by
  intro done h rest s hplanes hcuts hlong v hv
  by_contra hblunt
  obtain ⟨hout, hnear⟩ := not_or.1 hblunt
  exact hnone ⟨done, h, rest, s, hplanes, hcuts, hlong, v, hv, not_le.1 hout, not_lt.1 hnear⟩

/-- **A region that is accepted has an interior**, unless at some cut a vertex outside the
half-plane is kept because of the tolerance. -/
theorem MultiPlaneRoof.nonempty_of_accepted {roof : MultiPlaneRoof ℝ} {f : RoofFace ℝ}
    {planes : List (HalfPlane ℝ)} (hf : f ∈ roof.faces)
    (hresolve : f.region.resolve roof = .ok (some planes)) :
    ∃ rep, roof.report = .ok rep ∧ (⟨roof.id, f.problem .regionInvalid⟩ ∉ rep.errors →
      (interior (keptRegion planes)).Nonempty ∨ KeepsOutsider planes) := by
  have h3 : 3 ≤ regionSquare.length := by decide
  obtain ⟨rep, hrep⟩ := roof.exists_report
  refine ⟨rep, hrep, fun haccepted => or_iff_not_imp_right.2 fun hnone => ?_⟩
  have hsharp := atEveryCut_sharp_of_not_keepsOutsider hnone
  have hvalid := RoofFace.invalidRest?_of_report hf hrep haccepted
  rw [RoofFace.invalidRest?_eq hresolve, ← regionSquare, bind_eq_ok] at hvalid
  obtain ⟨s, hs, hvalid⟩ := hvalid
  have hlong : ¬ s.length < 3 := by
    intro hshort
    rw [if_pos hshort] at hvalid
    cases hvalid
  obtain ⟨done, rest, hplanes, hcuts, hend⟩ := (clipWhileArea_eq_ok h3).1 hs
  obtain rfl := hend.resolve_left hlong
  rw [List.append_nil] at hplanes
  subst hplanes
  obtain ⟨hleft, hsubset, -⟩ := hcuts.turnsLeft_and_hull regionSquare_turnsLeft hsharp
  rw [hull_regionSquare] at hsubset
  exact (hleft.interior_hull_nonempty_iff.2 (not_lt.1 hlong)).mono (interior_mono hsubset)

/-- The half-plane beyond a line a thousand metres north of the reference square, given by two
points that are close together. -/
def farPlane : HalfPlane ℝ := ⟨⟨0, 2000⟩, ⟨1e-10, 2000⟩, .right⟩

theorem farPlane_depth (v : Point ℝ) : farPlane.depth v = 1e-10 * (v.y - 2000) := by
  rw [farPlane, HalfPlane.depth_right, Point.spanned]
  ring

theorem keptRegion_farPlane : keptRegion [farPlane] = ∅ := by
  refine Set.eq_empty_of_forall_notMem ?_
  rintro ⟨x, y⟩ ⟨⟨-, hy⟩, hkept⟩
  have hdepth : 0 ≤ farPlane.depth ⟨x, y⟩ := hkept farPlane List.mem_cons_self
  have hnorth : y ≤ 1000 := hy.2.trans_eq referenceExtent_eq
  rw [farPlane_depth] at hdepth
  norm_num at hdepth
  linarith

/-- The half-plane leaves the reference square as it is. -/
theorem clip_farPlane : regionSquare.clip farPlane Tolerance.geometry = .ok regionSquare := by
  have hkeeps : ∀ v ∈ regionSquare, farPlane.keeps Tolerance.geometry v = true := by
    rw [regionSquare_eq]
    norm_num [HalfPlane.keeps_iff, farPlane_depth, Tolerance.geometry, Point.ofInts]
  have hpruned : regionSquare.pruned Tolerance.geometry = regionSquare := by
    rw [regionSquare_eq,
      Ring.pruned_map_ofInts HalfPlane.geometry_pos.le (by norm_num [Tolerance.geometry])]
    norm_num [Ring.pruned, Ring.distant, Ring.unclosed, Point.gap_ofInts_pos_iff,
      Point.gap_ofInts_le_zero_iff]
  rw [Ring.clip_eq_ok_of_keeps hkeeps, hpruned, if_neg (by decide)]

/-- The roof with that face is reported without an error. -/
theorem report_farPlane :
    ∃ rep, (capRoof [farPlane]).report = .ok rep ∧ rep.errors = [] := by
  have hresolve : (capFace [farPlane]).region.resolve (capRoof [farPlane]) =
      .ok (some [farPlane]) := rfl
  have hvalid : (capFace [farPlane]).invalidRest? (capRoof [farPlane]) = .ok none := by
    rw [RoofFace.invalidRest?_eq hresolve, ← regionSquare, clipWhileArea, clip_farPlane]
    rfl
  have hinspect : inspectFaces (capRoof [farPlane]) =
      .ok [⟨capFace [farPlane], [], none, none⟩] := by
    refine mapM_eq_ok.2 (.cons ?_ .nil)
    rw [RoofFace.inspect, hvalid]
    rfl
  rw [MultiPlaneRoof.report, hinspect]
  exact ⟨_, rfl, rfl⟩

/-- The region is accepted because the half-plane keeps the corners of the square, which are
outside. -/
theorem MultiPlaneRoof.farStrip_accepted :
    ∃ rep, (capRoof [farPlane]).report = .ok rep ∧ rep.errors = [] ∧
      ((interior (keptRegion [farPlane])).Nonempty ∨ KeepsOutsider [farPlane]) := by
  obtain ⟨rep, hrep, hclean⟩ := report_farPlane
  have hresolve : (capFace [farPlane]).region.resolve (capRoof [farPlane]) =
      .ok (some [farPlane]) := rfl
  obtain ⟨same, hsame, haccepted⟩ := nonempty_of_accepted List.mem_cons_self hresolve
  obtain rfl := Except.ok.inj (hsame.symm.trans hrep)
  refine ⟨same, hrep, hclean, haccepted ?_⟩
  rw [hclean]
  exact List.not_mem_nil

/-- **An empty region that is accepted**: the report on the roof has no errors, though the
half-plane of its only face keeps nothing of the reference square. -/
theorem MultiPlaneRoof.farStrip_empty :
    ∃ rep f, (capRoof [farPlane]).report = .ok rep ∧ f ∈ (capRoof [farPlane]).faces ∧
      f.region.resolve (capRoof [farPlane]) = .ok (some [farPlane]) ∧
      farPlane.a ≠ farPlane.b ∧ rep.errors = [] ∧ interior (keptRegion [farPlane]) = ∅ := by
  obtain ⟨rep, hrep, hclean⟩ := report_farPlane
  have hne : farPlane.a ≠ farPlane.b := by norm_num [farPlane]
  refine ⟨rep, capFace [farPlane], hrep, List.mem_cons_self, rfl, hne, hclean, ?_⟩
  rw [keptRegion_farPlane, interior_empty]

end

end Housewright
