import Housewright.Proofs.Construction.ExactPlacement
import Housewright.Proofs.Construction.PlateSides
import Housewright.Proofs.Exact.Halves
import Housewright.Proofs.Exact.Mitres

/-!
# The mesh of a gable roof

A gable roof has a plate on each side of the ridge line.  The plates have no walls where they meet,
and should close one another there; an edge counts as shared as soon as both of its ends are on the
ridge line.

* `GableRoof.ClearOf` says that the tolerances do not come into play, `GableRoof.Triangulated` that
  both halves of the outline fall into triangles, and `GableRoof.RunsAlong` that an edge lies on the
  ridge line;
* `GableRoof.exists_buildSide`: a side is built if the outline reaches it, with the edges of its
  half on the ridge line left open;
* `House.exists_gableMesh`: what is left open on both sides cancels, but for an edge of the outline
  that lies on the ridge line, since there is no plate on its other side;
* `House.gableRoof_closed_iff`: so the roof is closed if and only if there is no such edge, or if it
  is not thick;
* `House.barn_front_open`: a ridge above the front of a building leaves the roof open.
-/

namespace Housewright

noncomputable section

/-! ## Slopes in exact arithmetic -/

namespace GableRoof

variable (roof : GableRoof ℝ)

/-- How far to the left of the ridge line a point lies. -/
def offRidge (p : Point ℝ) : ℝ := leftOf roof.ridge.direction.direction roof.ridge.start p

/-- One side of the ridge line. -/
def ridgeSide (keep : Side) : HalfPlane ℝ :=
  ⟨roof.ridge.start.shift roof.ridge.direction.direction (-Tolerance.referenceExtent),
    roof.ridge.start.shift roof.ridge.direction.direction Tolerance.referenceExtent, keep⟩

/-- The slopes over an outline. -/
def exactSlopes (base : ℝ) (outline : Ring ℝ) : GableSlopes ℝ where
  start := roof.ridge.start
  along := roof.ridge.direction.direction
  reachLeft := greatestPositive (outline.map roof.offRidge)
  reachRight := greatestPositive ((outline.map roof.offRidge).map (- ·))
  ridgeHeight := base + roof.ridgeHeight
  drop := roof.ridgeHeight - roof.eaveHeight

variable {roof}

/-- **A ridge that is long enough** has slopes. -/
theorem slopes_eq_ok (hridge : Tolerance.geometry < roof.ridge.direction.length) (base : ℝ)
    (outline : Ring ℝ) : roof.slopes base outline = .ok (roof.exactSlopes base outline) := by
  have hne : roof.ridge.direction.length ≠ 0 := (HalfPlane.geometry_pos.trans hridge).ne'
  unfold slopes
  simp only
  rw [if_neg (not_le.2 hridge), Vec.divide_length_eq_ok hne]
  rfl

/-- The ridge line has a direction of length one. -/
theorem direction_square (hridge : Tolerance.geometry < roof.ridge.direction.length) :
    roof.ridge.direction.direction.x * roof.ridge.direction.direction.x +
      roof.ridge.direction.direction.y * roof.ridge.direction.direction.y = 1 :=
  Vec.direction_square (HalfPlane.geometry_pos.trans hridge).ne'

/-- The right side of the ridge line, in the sense of half-planes, is the one to its left. -/
theorem depth_ridgeSide_right (p : Point ℝ) :
    (roof.ridgeSide .right).depth p = 2000 * roof.offRidge p := by
  simp only [ridgeSide, HalfPlane.depth, sideOfLine, Point.shift, offRidge, leftOf,
    referenceExtent_eq]
  ring

theorem depth_ridgeSide_left (p : Point ℝ) :
    (roof.ridgeSide .left).depth p = -(roof.ridgeSide .right).depth p := by
  simp only [ridgeSide, HalfPlane.depth, neg_neg]

theorem abs_depth_ridgeSide (keep : Side) (p : Point ℝ) :
    |(roof.ridgeSide keep).depth p| = 2000 * |roof.offRidge p| := by
  have hright : |(roof.ridgeSide .right).depth p| = 2000 * |roof.offRidge p| := by
    rw [depth_ridgeSide_right, abs_mul, abs_of_pos (by norm_num : (0 : ℝ) < 2000)]
  cases keep with
  | left => rw [depth_ridgeSide_left, abs_neg, hright]
  | right => exact hright

theorem depth_ridgeSide_eq_zero {keep : Side} {p : Point ℝ} :
    (roof.ridgeSide keep).depth p = 0 ↔ roof.offRidge p = 0 := by
  rw [← abs_eq_zero, abs_depth_ridgeSide, mul_eq_zero, abs_eq_zero]
  norm_num

theorem ridgeSide_ends_ne (hridge : Tolerance.geometry < roof.ridge.direction.length)
    (keep : Side) : (roof.ridgeSide keep).a ≠ (roof.ridgeSide keep).b :=
  side_ends_ne (slopes_eq_ok hridge 0 []) keep

/-- Points are at least as far apart as they are across the ridge line. -/
theorem offRidge_sub_le (hridge : Tolerance.geometry < roof.ridge.direction.length)
    (p q : Point ℝ) : |roof.offRidge p - roof.offRidge q| ≤ p.gap q := by
  have hunit := direction_square hridge
  refine Real.abs_le_sqrt ?_
  simp only [offRidge, leftOf]
  set ux := roof.ridge.direction.direction.x
  set uy := roof.ridge.direction.direction.y
  have hsquares : (p.x - q.x) * (p.x - q.x) + (p.y - q.y) * (p.y - q.y) -
      (ux * (p.y - roof.ridge.start.y) - uy * (p.x - roof.ridge.start.x) -
        (ux * (q.y - roof.ridge.start.y) - uy * (q.x - roof.ridge.start.x))) ^ 2 =
      (ux * (p.x - q.x) + uy * (p.y - q.y)) ^ 2 := by
    linear_combination
      -((p.x - q.x) * (p.x - q.x) + (p.y - q.y) * (p.y - q.y)) * hunit
  have hpos := sq_nonneg (ux * (p.x - q.x) + uy * (p.y - q.y))
  linarith

/-- The ridge line keeps clear of an outline if no vertex is near it but off it, and if a half that
has any vertices off the line has an area above the tolerance. -/
structure ClearOf (roof : GableRoof ℝ) (outline : Ring ℝ) : Prop where
  offLine : ∀ v ∈ outline, roof.offRidge v = 0 ∨ Tolerance.geometry < |roof.offRidge v|
  wide : ∀ keep, (roof.ridgeSide keep).IsReached outline →
    ∀ half, outline.clip (roof.ridgeSide keep) Tolerance.geometry = .ok half →
      Tolerance.geometry < |half.signedArea|

/-- The halves of an outline fall into triangles. -/
def Triangulated (roof : GableRoof ℝ) (kernel : AreaKernel ℝ) (outline : Ring ℝ) : Prop :=
  ∀ keep half, outline.clip (roof.ridgeSide keep) Tolerance.geometry = .ok half →
    Tolerance.geometry < |half.signedArea| →
      ∃ triangles, half.counterClockwise.triangulate kernel = .ok triangles ∧
        Triangulates half.length triangles

/-- An edge along the ridge line that is longer than the tolerance. -/
def RunsAlong (roof : GableRoof ℝ) (e : Point ℝ × Point ℝ) : Prop :=
  roof.offRidge e.1 = 0 ∧ roof.offRidge e.2 = 0 ∧ Tolerance.geometry < e.1.gap e.2

/-- A point on the ridge line, or not near it, is inside one of its sides or clearly outside. -/
theorem sharp_ridgeSide {v : Point ℝ}
    (hoff : roof.offRidge v = 0 ∨ Tolerance.geometry < |roof.offRidge v|) (keep : Side) :
    (roof.ridgeSide keep).Sharp v := by
  have hdepth : |(roof.ridgeSide keep).depth v| = 2000 * |roof.offRidge v| :=
    abs_depth_ridgeSide keep v
  rcases hoff with hzero | hfar
  · exact .inl (depth_ridgeSide_eq_zero.2 hzero).ge
  · rcases le_or_gt 0 ((roof.ridgeSide keep).depth v) with hin | hout
    · exact .inl hin
    · rw [abs_of_neg hout] at hdepth
      have hpos := HalfPlane.geometry_pos
      exact .inr (by linarith)

/-- **A half** is the clipped outline, without points that are too close if there are three or
more. -/
theorem exists_clip {outline : Ring ℝ} (hoff : ∀ v ∈ outline,
    roof.offRidge v = 0 ∨ Tolerance.geometry < |roof.offRidge v|) (keep : Side) : ∃ half : Ring ℝ,
    outline.clip (roof.ridgeSide keep) Tolerance.geometry = .ok half ∧
      (3 ≤ half.length → half = ((roof.ridgeSide keep).cutRing outline).pruned Tolerance.geometry) ∧
      ∀ v ∈ half, v ∈ (roof.ridgeSide keep).cutRing outline := by
  refine ⟨_, Ring.clip_eq_ok
    (fun v hv => sharp_ridgeSide (hoff v hv) keep) HalfPlane.geometry_pos.le le_rfl, ?_, ?_⟩
  · intro h3
    by_cases hshort : ((roof.ridgeSide keep).cutRing outline).length < 3
    · rw [if_pos hshort] at h3
      omega
    · rw [if_neg hshort]
  · intro v hv
    split at hv
    · exact hv
    · exact (Ring.pruned_sublist _ _).subset hv

namespace ClearOf

variable {outline : Ring ℝ}

theorem offLine_ridgeSide (hclear : roof.ClearOf outline)
    (hridge : Tolerance.geometry < roof.ridge.direction.length) (keep : Side) :
    (roof.ridgeSide keep).OffLine Tolerance.geometry outline := by
  intro v hv hv0 x hx
  have hfar := (hclear.offLine v hv).resolve_left (mt depth_ridgeSide_eq_zero.2 hv0)
  have hgap := offRidge_sub_le hridge x v
  rw [depth_ridgeSide_eq_zero.1 hx, zero_sub, abs_neg] at hgap
  exact hfar.trans_le hgap

end ClearOf

end GableRoof

namespace GableSlopes

/-- The height over a point. -/
def height (g : GableSlopes ℝ) (p : Point ℝ) : ℝ :=
  let reach := if 0.0 < g.distance p then g.reachLeft else g.reachRight
  if reach ≤ Tolerance.geometry then g.ridgeHeight
  else g.ridgeHeight - g.drop * |g.distance p| / reach

/-- There is a height over every point. -/
theorem heightAt_eq_ok (g : GableSlopes ℝ) (p : Point ℝ) : g.heightAt p = .ok (g.height p) := by
  have hdivide (x : ℝ) {reach : ℝ} (hreach : ¬ reach ≤ Tolerance.geometry) :
      Scalar.divide x reach = .ok (x / reach) :=
    divide_eq_ok x (HalfPlane.geometry_pos.trans (not_le.1 hreach)).ne'
  unfold heightAt height
  simp only
  split_ifs with hside hreach hreach
  · rfl
  · rw [hdivide _ hreach]
    rfl
  · rfl
  · rw [hdivide _ hreach]
    rfl

/-- A side is built if its half is large enough. -/
theorem buildSide_eq (g : GableSlopes ℝ) (kernel : AreaKernel ℝ) (thickness : ℝ) {keep : Side}
    {outline half : Ring ℝ} (hclip : outline.clip (g.side keep) Tolerance.geometry = .ok half) :
    g.buildSide kernel outline thickness keep =
      if 3 ≤ half.length ∧ Tolerance.geometry < |half.signedArea| then
        (buildPlate kernel half g.heightAt thickness g.onLine).map some
      else .ok none := by
  unfold buildSide
  rw [hclip]
  show (if 3 ≤ half.length ∧ Tolerance.geometry < |half.signedArea| then _ else _) = _
  by_cases hlarge : 3 ≤ half.length ∧ Tolerance.geometry < |half.signedArea|
  · rw [if_pos hlarge, if_pos hlarge]
    cases buildPlate kernel half g.heightAt thickness g.onLine <;> rfl
  · rw [if_neg hlarge, if_neg hlarge]
    rfl

end GableSlopes

/-! ## The plates -/

namespace GableRoof

variable {roof : GableRoof ℝ} {kernel : AreaKernel ℝ} {outline : Ring ℝ}

/-- The plates of a gable roof over an outline. -/
def plate (roof : GableRoof ℝ) (base : ℝ) (outline : Ring ℝ) : PlateShape :=
  ⟨(roof.exactSlopes base outline).height, roof.thickness⟩

/-- **An edge of a half is open** if it lies on the ridge line. -/
theorem openEdges_half (hclear : roof.ClearOf outline) (base : ℝ) (keep : Side) {r : Ring ℝ}
    (hr : ∀ v ∈ r, v ∈ (roof.ridgeSide keep).cutRing outline) :
    r.openEdges (roof.exactSlopes base outline).onLine = (roof.ridgeSide keep).edgesOnLine r := by
  have hline {v : Point ℝ} (hv : v ∈ r) :
      |roof.offRidge v| ≤ Tolerance.geometry ↔ (roof.ridgeSide keep).depth v = 0 := by
    rw [depth_ridgeSide_eq_zero]
    constructor
    · intro hnear
      by_contra hne
      have hmem := (HalfPlane.depth_mem_cutRing (hr v hv)).2 (mt depth_ridgeSide_eq_zero.1 hne)
      exact hnear.not_gt ((hclear.offLine v hmem).resolve_left hne)
    · intro hzero
      rw [hzero, abs_zero]
      exact HalfPlane.geometry_pos.le
  refine List.filter_congr fun e he => ?_
  obtain ⟨hp, hq⟩ := Ring.mem_of_mem_edges he
  rw [Bool.eq_iff_iff, decide_eq_true_iff, ← hline hp, ← hline hq]
  show (decide (|roof.offRidge e.1| ≤ Tolerance.geometry) &&
    decide (|roof.offRidge e.2| ≤ Tolerance.geometry)) = true ↔ _
  rw [Bool.and_eq_true, decide_eq_true_iff, decide_eq_true_iff]

/-- **One side of a gable roof** is built if the outline reaches it.  Its mesh is closed but for the
edges of the half on the ridge line. -/
theorem exists_buildSide (hridge : Tolerance.geometry < roof.ridge.direction.length)
    (hclear : roof.ClearOf outline) (htriangles : roof.Triangulated kernel outline) (base : ℝ)
    (keep : Side) : ∃ built opened,
      (roof.exactSlopes base outline).buildSide kernel outline roof.thickness keep = .ok built ∧
      (∀ m ∈ built.toList, m.InRange) ∧
      (roof.ridgeSide keep).LeavesOpen Tolerance.geometry outline opened ∧
      ∀ w, Alternates w → (built.toList.map (Mesh.total w)).sum =
        (opened.map fun e => (roof.plate base outline).rim w e.1 e.2).sum := by
  have hpos := HalfPlane.geometry_pos
  let g := roof.exactSlopes base outline
  obtain ⟨half, hclip, hpruned, hmem⟩ := exists_clip hclear.offLine keep
  have hside := g.buildSide_eq kernel roof.thickness hclip
  by_cases hreached : (roof.ridgeSide keep).IsReached outline
  · have harea := hclear.wide keep hreached half hclip
    have h3 := Ring.three_le_of_signedArea_ne_zero (abs_pos.1 (hpos.trans harea))
    obtain ⟨triangles, htri, hring⟩ := htriangles keep half hclip harea
    have hhalf : half.counterClockwise = (roof.ridgeSide keep).half Tolerance.geometry outline := by
      rw [HalfPlane.half, ← hpruned h3]
    have hlength := Ring.length_counterClockwise half
    have hplate := buildPlate_eq_ok (s := roof.plate base outline) g.heightAt_eq_ok htri g.onLine
    have hinrange : ((roof.plate base outline).mesh half.counterClockwise triangles
        g.onLine).InRange := PlateShape.mesh_inRange (Ring.inRange_of_triangulate htri)
    refine ⟨some ((roof.plate base outline).mesh half.counterClockwise triangles g.onLine),
      (roof.ridgeSide keep).edgesOnLine half.counterClockwise, ?_, ?_, ?_, fun w hw => ?_⟩
    · rw [hside, if_pos ⟨h3, harea⟩]
      exact congrArg (Except.map some) hplate
    · intro m hm
      obtain rfl := List.mem_singleton.1 hm
      exact hinrange
    · rw [hhalf]
      exact .half hreached (by rw [← hhalf, hlength]; exact h3)
    · have hopen := openEdges_half hclear base keep (r := half.counterClockwise) fun v hv =>
        hmem v (Ring.mem_counterClockwise.1 hv)
      rw [Option.toList_some, List.map_singleton, List.sum_singleton,
        PlateShape.mesh_total hinrange (hlength ▸ hring) hw, hopen]
  · have harea := HalfPlane.signedArea_eq_zero_of_not_isReached (ridgeSide_ends_ne hridge keep)
      hreached hmem
    refine ⟨none, [], ?_, ?_, .nothing hreached, fun w _ => rfl⟩
    · rw [hside, if_neg]
      rw [harea, abs_zero]
      exact fun hwide => hpos.not_gt hwide.2
    · intro m hm
      cases hm

/-- **What both sides leave open** cancels, or is an edge that comes from one of the outline along
the ridge line. -/
theorem leavesOpen_cases {opened opened' : List (Point ℝ × Point ℝ)}
    (hconvex : outline.StrictlyConvex)
    (hridge : Tolerance.geometry < roof.ridge.direction.length) (hclear : roof.ClearOf outline)
    (hopened : (roof.ridgeSide .left).LeavesOpen Tolerance.geometry outline opened)
    (hopened' : (roof.ridgeSide .right).LeavesOpen Tolerance.geometry outline opened') :
    ((opened ++ opened').Perm ((opened ++ opened').map Prod.swap) ∧
      ∀ e ∈ outline.edges, ¬ roof.RunsAlong e) ∨
    ∃ A B, A ≠ B ∧ opened ++ opened' = [(A, B)] ∧ ∃ e ∈ outline.edges, roof.RunsAlong e := by
  have hop (v : Point ℝ) : (roof.ridgeSide .right).depth v = -(roof.ridgeSide .left).depth v := by
    rw [depth_ridgeSide_left, neg_neg]
  have hcases := hconvex.leavesOpen_cases HalfPlane.geometry_pos.le (ridgeSide_ends_ne hridge .left)
    (ridgeSide_ends_ne hridge .right) hop (hclear.offLine_ridgeSide hridge .left) hopened hopened'
  simp only [depth_ridgeSide_eq_zero] at hcases
  refine hcases.imp_left ?_
  rintro ⟨hperm, hshort⟩
  refine ⟨hperm, fun e he halong => ?_⟩
  obtain ⟨hp, hq, hlong⟩ := halong
  exact (hshort e he hp hq).not_gt hlong

end GableRoof

/-! ## The roof -/

section Roof

variable {kernel : AreaKernel ℝ} {h : House ℝ} {roof : GableRoof ℝ} {level : Level ℝ}
  {outline : Ring ℝ}

/-- A gable roof is built from its two sides. -/
theorem House.buildGableRoof_eq_ok_iff {built : BuiltRoof ℝ}
    (hlevel : h.baseLevel (.gable roof) = .ok level)
    (houtline : level.roofOutline kernel roof.overhang = .ok outline)
    (hridge : Tolerance.geometry < roof.ridge.direction.length) :
    h.buildGableRoof kernel roof = .ok built ↔ ∃ left right : Option (Mesh ℝ),
      (roof.exactSlopes level.elevation outline).buildSide kernel outline roof.thickness .left =
        .ok left ∧
      (roof.exactSlopes level.elevation outline).buildSide kernel outline roof.thickness .right =
        .ok right ∧
      built = .gable roof.id (.merge (left.toList ++ right.toList)) := by
  have hslopes := GableRoof.slopes_eq_ok hridge level.elevation outline
  constructor
  · intro hbuilt
    obtain ⟨level', hlevel', hbuilt⟩ := bind_eq_ok.1 hbuilt
    obtain rfl : level' = level := Except.ok.inj (hlevel'.symm.trans hlevel)
    obtain ⟨outline', houtline', hbuilt⟩ := bind_eq_ok.1 hbuilt
    obtain rfl : outline' = outline := Except.ok.inj (houtline'.symm.trans houtline)
    obtain ⟨slopes, hslopes', hbuilt⟩ := bind_eq_ok.1 hbuilt
    obtain rfl := Except.ok.inj (hslopes'.symm.trans hslopes)
    obtain ⟨left, hleft, hbuilt⟩ := bind_eq_ok.1 hbuilt
    obtain ⟨right, hright, hbuilt⟩ := bind_eq_ok.1 hbuilt
    exact ⟨left, right, mapError_eq_ok.1 hleft, mapError_eq_ok.1 hright,
      (pure_eq_ok.1 hbuilt).symm⟩
  · rintro ⟨left, right, hleft, hright, rfl⟩
    refine bind_eq_ok.2 ⟨level, hlevel, bind_eq_ok.2 ⟨outline, houtline, ?_⟩⟩
    refine bind_eq_ok.2 ⟨_, hslopes, bind_eq_ok.2 ⟨left, mapError_eq_ok.2 hleft, ?_⟩⟩
    exact bind_eq_ok.2 ⟨right, mapError_eq_ok.2 hright, rfl⟩

/-- **A gable roof is built**, and its sides cancel, unless an edge of the outline runs along the
ridge line; then the rim of one hole is left. -/
theorem House.exists_gableMesh (hlevel : h.baseLevel (.gable roof) = .ok level)
    (houtline : level.roofOutline kernel roof.overhang = .ok outline)
    (hconvex : outline.StrictlyConvex)
    (hridge : Tolerance.geometry < roof.ridge.direction.length) (hclear : roof.ClearOf outline)
    (htriangles : roof.Triangulated kernel outline) :
    ∃ mesh, h.buildGableRoof kernel roof = .ok (.gable roof.id mesh) ∧ mesh.InRange ∧
      (((∀ e ∈ outline.edges, ¬ roof.RunsAlong e) ∧ ∀ w, Alternates w → mesh.total w = 0) ∨
        (∃ e ∈ outline.edges, roof.RunsAlong e) ∧ ∃ A B, A ≠ B ∧ ∀ w, Alternates w →
          mesh.total w = (roof.plate level.elevation outline).rim w A B) := by
  let plate := roof.plate level.elevation outline
  obtain ⟨left, opened, hleft, hleftIn, hopened, hleftTotal⟩ :=
    GableRoof.exists_buildSide hridge hclear htriangles level.elevation .left
  obtain ⟨right, opened', hright, hrightIn, hopened', hrightTotal⟩ :=
    GableRoof.exists_buildSide hridge hclear htriangles level.elevation .right
  have hplates (m : Mesh ℝ) (hm : m ∈ left.toList ++ right.toList) : m.InRange :=
    (List.mem_append.1 hm).elim (hleftIn m) (hrightIn m)
  have hmerge (w : Point3 ℝ → Point3 ℝ → ℤ) := Mesh.total_merge w hplates
  have htotal (w : Point3 ℝ → Point3 ℝ → ℤ) (hw : Alternates w) :
      (Mesh.merge (left.toList ++ right.toList)).total w =
        ((opened ++ opened').map fun e => plate.rim w e.1 e.2).sum := by
    rw [hmerge w, List.map_append, List.sum_append, hleftTotal w hw, hrightTotal w hw,
      List.map_append, List.sum_append]
  refine ⟨.merge (left.toList ++ right.toList),
    (House.buildGableRoof_eq_ok_iff hlevel houtline hridge).2 ⟨left, right, hleft, hright, rfl⟩,
    Mesh.inRange_merge hplates, ?_⟩
  rcases GableRoof.leavesOpen_cases hconvex hridge hclear hopened hopened' with
    ⟨hperm, hnone⟩ | ⟨A, B, hne, hone, halong⟩
  · refine .inl ⟨hnone, fun w hw => ?_⟩
    rw [htotal w hw]
    exact (perm_map_swap_iff _).1 hperm (plate.rim w) fun p q => PlateShape.rim_swap hw p q
  · refine .inr ⟨halong, A, B, hne, fun w hw => ?_⟩
    rw [htotal w hw, hone, List.map_singleton, List.sum_singleton]

/-- **A gable roof is closed** if and only if no edge of the outline runs along the ridge line, or
the roof is not thick.  The outline is strictly convex, run either way; the ridge line may cross it,
touch it or miss it. -/
theorem House.gableRoof_closed_iff (hlevel : h.baseLevel (.gable roof) = .ok level)
    (houtline : level.roofOutline kernel roof.overhang = .ok outline)
    (hconvex : outline.StrictlyConvex)
    (hridge : Tolerance.geometry < roof.ridge.direction.length) (hclear : roof.ClearOf outline)
    (htriangles : roof.Triangulated kernel outline) :
    ∃ mesh, h.buildGableRoof kernel roof = .ok (.gable roof.id mesh) ∧ mesh.InRange ∧
      (mesh.Closed ↔ roof.thickness = 0 ∨ ∀ e ∈ outline.edges, ¬ roof.RunsAlong e) := by
  obtain ⟨mesh, hmesh, hin, hsides⟩ :=
    House.exists_gableMesh hlevel houtline hconvex hridge hclear htriangles
  refine ⟨mesh, hmesh, hin, ?_⟩
  rcases hsides with ⟨hnone, htotal⟩ | ⟨⟨e, he, halong⟩, A, B, hne, htotal⟩
  · exact ⟨fun _ => .inr hnone, fun _ => Mesh.closed_iff.2 htotal⟩
  · constructor
    · intro hclosed
      by_contra hthick
      push Not at hthick
      exact PlateShape.not_closed_of_rim hthick.1 hne htotal hclosed
    · rintro (hthin | hnone)
      · refine Mesh.closed_iff.2 fun w hw => ?_
        rw [htotal w hw]
        exact PlateShape.rim_eq_zero hw hthin A B
      · exact absurd halong (hnone e he)

end Roof

/-! ## A barn -/

/-- What clipping leaves is a quadrangle with whole coordinates that turns left. -/
def HalfPlane.CutsQuadrangle (side : HalfPlane ℝ) (outline : Ring ℝ) : Prop :=
  ∃ a b c d : ℤ × ℤ, outline.clip side Tolerance.geometry =
      .ok ([a, b, c, d].map Point.ofInts) ∧ [a, b, c, d].Nodup ∧
    1 ≤ (Point.ofInts a).spanned (Point.ofInts b) (Point.ofInts c) ∧
    1 ≤ (Point.ofInts a).spanned (Point.ofInts c) (Point.ofInts d)

theorem HalfPlane.CutsQuadrangle.of_cutRing {side : HalfPlane ℝ} {outline : Ring ℝ}
    {a b c d : ℤ × ℤ} (hsharp : ∀ v ∈ outline, side.Sharp v)
    (hcut : side.cutRing outline = [a, b, c, d].map Point.ofInts) (hcs : [a, b, c, d].Nodup)
    (habc : 1 ≤ (Point.ofInts a).spanned (Point.ofInts b) (Point.ofInts c))
    (hacd : 1 ≤ (Point.ofInts a).spanned (Point.ofInts c) (Point.ofInts d)) :
    side.CutsQuadrangle outline := by
  refine ⟨a, b, c, d, ?_, hcs, habc, hacd⟩
  rw [Ring.clip_eq_ok_of_ints hsharp hcut (by simp)]
  simp only [List.nodup_cons, List.mem_cons, not_or] at hcs
  simp [Ring.pruned, Ring.distant, Ring.unclosed, Point.gap_ofInts_pos_iff,
    Point.gap_ofInts_le_zero_iff, hcs]

/-- The outline of a barn, eight metres by four. -/
def barnOutline : Ring ℝ := [⟨0, 0⟩, ⟨8, 0⟩, ⟨8, 4⟩, ⟨0, 4⟩]

/-- The only level of the barn. -/
def Level.barn : Level ℝ := ⟨"ground", 0, 2.5, ⟨barnOutline, []⟩, none⟩

/-- The barn. -/
def House.barn : House ℝ where
  name := "Barn"
  wallThickness := 0.3
  elevationConvention := .topOfSlab
  allowGroundSupport := true
  supportGapLevelIds := []
  levels := [.barn]
  roofs := []
  openings := []

/-- A gable roof for the barn, with the ridge parallel to its front and `y` metres behind it. -/
def GableRoof.overBarn (y : ℝ) : GableRoof ℝ where
  id := "gable"
  baseLevelId := "ground"
  eaveHeight := 2.5
  ridgeHeight := 4.5
  ridge := ⟨⟨0, y⟩, ⟨8, y⟩⟩
  overhang := 0
  thickness := 0.25

theorem barnOutline_strictlyConvex : barnOutline.StrictlyConvex := by
  refine ⟨by simp [barnOutline], .inl ?_⟩
  norm_num [barnOutline, Ring.TurnsLeft, List.triplewise_cons, Point.spanned]

theorem Level.barn_roofOutline (y : ℝ) :
    Level.barn.roofOutline .fan (GableRoof.overBarn y).overhang = .ok barnOutline := by
  have hflat : (-(0 : ℝ) == 0.0) = true := by norm_num
  unfold roofOutline Ring.offsetInward
  simp only [GableRoof.overBarn, hflat, Bool.or_true, if_true]
  rfl

namespace GableRoof

theorem length_overBarn (y : ℝ) : (overBarn y).ridge.direction.length = 8 := by
  rw [Vec.length_eq, Real.sqrt_eq_iff_mul_self_eq_of_pos (by norm_num)]
  norm_num [overBarn, RidgeLine.direction, Vec.between]

theorem direction_overBarn (y : ℝ) : (overBarn y).ridge.direction.direction = ⟨1, 0⟩ := by
  rw [Vec.direction, length_overBarn]
  norm_num [overBarn, RidgeLine.direction, Vec.between]

theorem geometry_lt_length_overBarn (y : ℝ) :
    Tolerance.geometry < (overBarn y).ridge.direction.length := by
  rw [length_overBarn]
  norm_num [Tolerance.geometry]

theorem offRidge_overBarn (y : ℝ) (p : Point ℝ) : (overBarn y).offRidge p = p.y - y := by
  rw [offRidge, direction_overBarn, leftOf]
  norm_num [overBarn]

theorem ridgeSide_overBarn (y : ℝ) (keep : Side) :
    (overBarn y).ridgeSide keep = ⟨⟨-1000, y⟩, ⟨1000, y⟩, keep⟩ := by
  rw [ridgeSide, direction_overBarn]
  norm_num [overBarn, Point.shift, referenceExtent_eq]

/-- The barn has no vertices near a ridge in the middle. -/
theorem offLine_overBarn_middle : ∀ v ∈ barnOutline,
    (overBarn 2).offRidge v = 0 ∨ Tolerance.geometry < |(overBarn 2).offRidge v| := by
  norm_num [barnOutline, offRidge_overBarn, Tolerance.geometry]

/-- The barn has two vertices on a ridge above its front. -/
theorem offLine_overBarn_front : ∀ v ∈ barnOutline,
    (overBarn 0).offRidge v = 0 ∨ Tolerance.geometry < |(overBarn 0).offRidge v| := by
  norm_num [barnOutline, offRidge_overBarn, Tolerance.geometry]

/-- Both sides of a ridge in the middle of the barn are quadrangles. -/
theorem cutsQuadrangle_overBarn_middle (keep : Side) :
    ((overBarn 2).ridgeSide keep).CutsQuadrangle barnOutline := by
  have hsharp (v : Point ℝ) (hv : v ∈ barnOutline) :=
    sharp_ridgeSide (offLine_overBarn_middle v hv) keep
  cases keep with
  | left =>
    have hcut : ((overBarn 2).ridgeSide .left).cutRing barnOutline =
        [(0, 2), (0, 0), (8, 0), (8, 2)].map Point.ofInts := by
      rw [ridgeSide_overBarn]
      norm_num [HalfPlane.cutRing, barnOutline, Ring.edgesInto, HalfPlane.cut, HalfPlane.depth,
        sideOfLine, HalfPlane.hit, Point.along, Point.ofInts]
    exact .of_cutRing hsharp hcut (by decide) (by norm_num [Point.spanned, Point.ofInts])
      (by norm_num [Point.spanned, Point.ofInts])
  | right =>
    have hcut : ((overBarn 2).ridgeSide .right).cutRing barnOutline =
        [(0, 2), (8, 2), (8, 4), (0, 4)].map Point.ofInts := by
      rw [ridgeSide_overBarn]
      norm_num [HalfPlane.cutRing, barnOutline, Ring.edgesInto, HalfPlane.cut, HalfPlane.depth,
        sideOfLine, HalfPlane.hit, Point.along, Point.ofInts]
    exact .of_cutRing hsharp hcut (by decide) (by norm_num [Point.spanned, Point.ofInts])
      (by norm_num [Point.spanned, Point.ofInts])

/-- The side behind a ridge above the front of the barn is the whole barn. -/
theorem clip_overBarn_front :
    barnOutline.clip ((overBarn 0).ridgeSide .right) Tolerance.geometry = .ok barnOutline := by
  have hbarn : barnOutline = [(0, 0), (8, 0), (8, 4), (0, 4)].map Point.ofInts := by
    norm_num [barnOutline, Point.ofInts]
  have hcut : ((overBarn 0).ridgeSide .right).cutRing barnOutline = barnOutline := by
    refine HalfPlane.cutRing_eq_self ?_
    norm_num [barnOutline, depth_ridgeSide_right, offRidge_overBarn]
  have hsharp (v : Point ℝ) (hv : v ∈ barnOutline) :=
    sharp_ridgeSide (offLine_overBarn_front v hv) .right
  rw [Ring.clip_eq_ok_of_ints hsharp (hcut.trans hbarn) (by norm_num), hbarn]
  norm_num [Ring.pruned, Ring.distant, Ring.unclosed, Point.gap_ofInts_pos_iff,
    Point.gap_ofInts_le_zero_iff]

/-- Nothing of the barn is on the other side. -/
theorem not_isReached_overBarn_front : ¬ ((overBarn 0).ridgeSide .left).IsReached barnOutline := by
  rintro ⟨v, hv, hpos⟩
  rw [depth_ridgeSide_left, depth_ridgeSide_right, offRidge_overBarn] at hpos
  simp only [barnOutline, List.mem_cons, List.not_mem_nil, or_false] at hv
  rcases hv with rfl | rfl | rfl | rfl <;> norm_num at hpos

end GableRoof

/-- The barn has a closed roof with the ridge in the middle. -/
theorem House.barn_middle_closed :
    ∃ mesh, barn.buildGableRoof .fan (.overBarn 2) = .ok (.gable "gable" mesh) ∧
      mesh.InRange ∧ mesh.Closed := by
  have hhalf {keep : Side} {half : Ring ℝ} (hclip : barnOutline.clip
      ((GableRoof.overBarn 2).ridgeSide keep) Tolerance.geometry = .ok half) :
      Tolerance.geometry < |half.signedArea| ∧
        ∃ triangles, half.counterClockwise.triangulate .fan = .ok triangles ∧
          Triangulates half.length triangles := by
    obtain ⟨a, b, c, d, hquad, hcs, habc, hacd⟩ := GableRoof.cutsQuadrangle_overBarn_middle keep
    exact Ring.fan_fills_quadrangle (Except.ok.inj (hclip.symm.trans hquad)) hcs habc hacd
  have hclear : (GableRoof.overBarn 2).ClearOf barnOutline :=
    ⟨GableRoof.offLine_overBarn_middle, fun keep _ half hclip => (hhalf hclip).1⟩
  have hlevel : barn.baseLevel (.gable (.overBarn 2)) = .ok .barn := rfl
  obtain ⟨mesh, hmesh, hin, hclosed⟩ := gableRoof_closed_iff hlevel (Level.barn_roofOutline 2)
    barnOutline_strictlyConvex (GableRoof.geometry_lt_length_overBarn 2)
    hclear fun keep half hclip _ => (hhalf hclip).2
  refine ⟨mesh, hmesh, hin, hclosed.2 (.inr fun e he halong => ?_)⟩
  -- no vertex is on the ridge line
  obtain ⟨hp, -⟩ := Ring.mem_of_mem_edgesInto ((Ring.edgesInto_perm_edges _).mem_iff.2 he)
  have hzero := halong.1
  rw [GableRoof.offRidge_overBarn] at hzero
  simp only [barnOutline, List.mem_cons, List.not_mem_nil, or_false] at hp
  rcases hp with hp | hp | hp | hp <;> norm_num [hp] at hzero

/-- **With the ridge above its front** the barn has an open roof: there is no wall below the front,
although the other side of the ridge line is empty. -/
theorem House.barn_front_open :
    barnOutline.StrictlyConvex ∧
      Tolerance.geometry < (GableRoof.overBarn 0).ridge.direction.length ∧
      (GableRoof.overBarn 0).Triangulated .fan barnOutline ∧
      Level.barn.roofOutline .fan (GableRoof.overBarn 0).overhang = .ok barnOutline ∧
      ∃ mesh, barn.buildGableRoof .fan (.overBarn 0) = .ok (.gable "gable" mesh) ∧
        mesh.InRange ∧ ¬ mesh.Closed := by
  have hbarn := Ring.fan_fills_quadrangle (a := (0, 0)) (b := (8, 0)) (c := (8, 4)) (d := (0, 4))
    (r := barnOutline) (by norm_num [barnOutline, Point.ofInts]) (by decide)
    (by norm_num [Point.spanned, Point.ofInts]) (by norm_num [Point.spanned, Point.ofInts])
  have hridge := GableRoof.geometry_lt_length_overBarn 0
  have hleft {half : Ring ℝ} (hclip : barnOutline.clip ((GableRoof.overBarn 0).ridgeSide .left)
      Tolerance.geometry = .ok half) : half.signedArea = 0 := by
    obtain ⟨half', hclip', -, hmem⟩ := GableRoof.exists_clip GableRoof.offLine_overBarn_front .left
    obtain rfl : half' = half := Except.ok.inj (hclip'.symm.trans hclip)
    exact HalfPlane.signedArea_eq_zero_of_not_isReached
      (GableRoof.ridgeSide_ends_ne hridge .left) GableRoof.not_isReached_overBarn_front hmem
  have hright {half : Ring ℝ} (hclip : barnOutline.clip ((GableRoof.overBarn 0).ridgeSide .right)
      Tolerance.geometry = .ok half) : half = barnOutline :=
    Except.ok.inj (hclip.symm.trans GableRoof.clip_overBarn_front)
  have hclear : (GableRoof.overBarn 0).ClearOf barnOutline := by
    refine ⟨GableRoof.offLine_overBarn_front, fun keep hreached half hclip => ?_⟩
    cases keep with
    | left => exact absurd hreached GableRoof.not_isReached_overBarn_front
    | right => exact hright hclip ▸ hbarn.1
  have htriangles : (GableRoof.overBarn 0).Triangulated .fan barnOutline := by
    intro keep half hclip harea
    cases keep with
    | left =>
      rw [hleft hclip, abs_zero] at harea
      exact absurd HalfPlane.geometry_pos harea.not_gt
    | right => exact hright hclip ▸ hbarn.2
  have hlevel : barn.baseLevel (.gable (.overBarn 0)) = .ok .barn := rfl
  obtain ⟨mesh, hmesh, hin, hsides⟩ := exists_gableMesh hlevel (Level.barn_roofOutline 0)
    barnOutline_strictlyConvex hridge hclear htriangles
  refine ⟨barnOutline_strictlyConvex, hridge, htriangles, Level.barn_roofOutline 0, mesh, hmesh,
    hin, ?_⟩
  rcases hsides with ⟨hnone, -⟩ | ⟨-, A, B, hne, htotal⟩
  · refine absurd ?_ (hnone (⟨0, 0⟩, ⟨8, 0⟩) (by simp [barnOutline, Ring.edges]))
    have hline (x : ℝ) : (GableRoof.overBarn 0).offRidge ⟨x, 0⟩ = 0 := by
      norm_num [GableRoof.offRidge_overBarn]
    refine ⟨hline 0, hline 8, ?_⟩
    have hgap := Point.one_le_gap_ofInts (c := (0, 0)) (d := (8, 0)) (by decide)
    norm_num [Point.ofInts] at hgap
    exact lt_of_lt_of_le (by norm_num [Tolerance.geometry]) hgap
  · have hthick : (GableRoof.overBarn 0).thickness ≠ 0 := by norm_num [GableRoof.overBarn]
    exact PlateShape.not_closed_of_rim hthick hne htotal

end

end Housewright
