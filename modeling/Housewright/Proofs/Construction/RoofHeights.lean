import Housewright.Proofs.Construction.GableMesh
import Housewright.Proofs.Construction.ClosedPlates
import Housewright.Proofs.Exact.ClippedVertices

/-!
# Heights between eaves and ridge

Gable roofs and roofs that are split at a ridge fall in the same way: from the height of the ridge
to that of the eaves, by how far a point is from the line of the ridge.  They differ in where they
reach to, which is told from the outline for the sides of a gable roof, and from what is left of it
after clipping for the halves of a split one.

* `Slope` is what both have in common, and `Slope.Fits` what is asked of the height of a vertex;
* `greatestPositive_le_iff`, `Ring.reachFrom_le_iff`: how far the roofs reach;
* `Mesh.IsSlope` says that a mesh is a plate of even thickness whose top fits a slope, and
  `buildPlate_isSlope` that plates are built like that;
* `GableRoof.fits_of_mem_clip`, `MultiRidgeRoof.fits_of_mem`: what clipping leaves fits, whatever
  the outline is;
* `SlopesOn` says what is built on one side of a line, and `roofs_fit_slopes` that both kinds of
  roofs consist of such slopes.
-/

namespace Housewright

noncomputable section

/-! ## Slopes -/

/-- A slope: how far from the line of its ridge the points of the plan are, with the side as the
sign, and the heights of the ridge and of the eaves above zero. -/
structure Slope where
  off : Point ℝ → ℝ
  ridge : ℝ
  eaves : ℝ

/-- The point of the plan below or above. -/
def Point3.plan (v : Point3 ℝ) : Point ℝ := ⟨v.x, v.y⟩

/-- The point below, at some distance. -/
def Point3.lowered (thickness : ℝ) (v : Point3 ℝ) : Point3 ℝ := { v with z := v.z - thickness }

namespace Slope

variable (s : Slope)

/-- The height over a point, of a slope that reaches so far. -/
def height (reach : ℝ) (p : Point ℝ) : ℝ :=
  if reach ≤ Tolerance.geometry then s.ridge
  else s.ridge - (s.ridge - s.eaves) * (|s.off p| / reach)

/-- No point of the list is farther from the ridge line. -/
def Farthest (points : List (Point ℝ)) (p : Point ℝ) : Prop := ∀ q ∈ points, |s.off q| ≤ |s.off p|

/-- What is asked of the height of a vertex: it is between those of the eaves and of the ridge; it
is that of the ridge on the ridge line; and it is that of the eaves if the vertex is as far from the
ridge line as any, and not near it. -/
structure Fits (farthest : Prop) (v : Point3 ℝ) : Prop where
  between : v.z ∈ Set.uIcc s.eaves s.ridge
  at_ridge : s.off v.plan = 0 → v.z = s.ridge
  at_eaves : farthest → Tolerance.geometry < |s.off v.plan| → v.z = s.eaves

variable {s} {reach : ℝ} {p : Point ℝ}

/-- **The height over a point** that the slope reaches fits. -/
theorem fits_height (hreach : |s.off p| ≤ reach) {farthest : Prop}
    (hfar : farthest → Tolerance.geometry < |s.off p| → reach = |s.off p|) :
    s.Fits farthest ⟨p.x, p.y, s.height reach p⟩ := by
  have hpos := HalfPlane.geometry_pos
  constructor
  · show s.height reach p ∈ _
    unfold height
    split_ifs with hshort
    · exact Set.right_mem_uIcc
    · have hunit : |s.off p| / reach ≤ 1 := (div_le_one (hpos.trans (not_le.1 hshort))).2 hreach
      rw [← segment_eq_uIcc]
      refine ⟨|s.off p| / reach, 1 - |s.off p| / reach, ?_, sub_nonneg.2 hunit, by ring, ?_⟩
      · exact div_nonneg (abs_nonneg _) (hpos.le.trans (not_le.1 hshort).le)
      · simp only [smul_eq_mul]
        ring
  · intro hzero
    show s.height reach p = s.ridge
    replace hzero : s.off p = 0 := hzero
    rw [height, hzero, abs_zero, zero_div, mul_zero, sub_zero, ite_self]
  · intro hfarthest hoff
    show s.height reach p = s.eaves
    have hoff : Tolerance.geometry < |s.off p| := hoff
    rw [height, hfar hfarthest hoff, if_neg (not_le.2 hoff), div_self (hpos.trans hoff).ne']
    ring

end Slope

/-! ## How far slopes reach -/

theorem greatest_eq_max (x y : ℝ) : Scalar.greatest x y = max x y := (max_def_lt x y).symm

theorem foldl_greatest_le_iff {x m : ℝ} {rest : List ℝ} :
    rest.foldl Scalar.greatest x ≤ m ↔ ∀ y ∈ x :: rest, y ≤ m := by
  induction rest generalizing x with
  | nil => simp
  | cons y rest ih =>
    rw [List.foldl_cons, ih, greatest_eq_max, List.forall_mem_cons, List.forall_mem_cons,
      List.forall_mem_cons, max_le_iff, and_assoc]

/-- The greatest positive number is the least bound of the numbers and of zero. -/
theorem greatestPositive_le_iff {xs : List ℝ} {m : ℝ} :
    greatestPositive xs ≤ m ↔ 0 ≤ m ∧ ∀ x ∈ xs, x ≤ m := by
  have hzero : (0.0 : ℝ) = 0 := by norm_num
  have hmem {x : ℝ} : x ∈ xs.filter (fun x => decide ((0.0 : ℝ) < x)) ↔ x ∈ xs ∧ 0 < x := by
    rw [List.mem_filter, decide_eq_true_iff, hzero]
  have hbound (hm : 0 ≤ m) : (∀ x ∈ xs, x ≤ m) ↔
      ∀ x ∈ xs.filter (fun x => decide ((0.0 : ℝ) < x)), x ≤ m := by
    refine ⟨fun h x hx => h x (hmem.1 hx).1, fun h x hx => ?_⟩
    by_cases hpos : 0 < x
    · exact h x (hmem.2 ⟨hx, hpos⟩)
    · exact (not_lt.1 hpos).trans hm
  unfold greatestPositive
  split
  case h_1 hnone =>
    rw [hzero]
    refine ⟨fun hm => ⟨hm, (hbound hm).2 ?_⟩, fun h => h.1⟩
    rw [hnone]
    exact fun x hx => by cases hx
  case h_2 x rest hsome =>
    rw [foldl_greatest_le_iff, ← hsome]
    refine ⟨fun h => ?_, fun h => (hbound h.1).1 h.2⟩
    have hx : x ∈ xs.filter (fun x => decide ((0.0 : ℝ) < x)) := hsome ▸ List.mem_cons_self
    have hm : 0 ≤ m := (hmem.1 hx).2.le.trans (h x hx)
    exact ⟨hm, (hbound hm).2 h⟩

theorem Ring.reachFrom_le_iff {r : Ring ℝ} (hr : r ≠ []) {splitX m : ℝ} :
    r.reachFrom splitX ≤ m ↔ ∀ p ∈ r, |p.x - splitX| ≤ m := by
  cases r with
  | nil => exact absurd rfl hr
  | cons p rest =>
    show (rest.map fun p => |p.x - splitX|).foldl Scalar.greatest |p.x - splitX| ≤ m ↔ _
    rw [foldl_greatest_le_iff]
    show (∀ y ∈ (p :: rest).map fun p => |p.x - splitX|, y ≤ m) ↔ _
    rw [List.forall_mem_map]

/-! ## Plates that slope -/

/-- A plate of even thickness over a ring, whose top fits a slope: the vertices of the top lie over
those of the ring, and each of them has a vertex of the bottom below it. -/
def Mesh.IsSlope (m : Mesh ℝ) (s : Slope) (ring : Ring ℝ) (thickness : ℝ)
    (farthest : Point ℝ → Prop) : Prop :=
  ∃ top : List (Point3 ℝ), top.map Point3.plan = ring.counterClockwise ∧
    m.vertices = top ++ top.map (Point3.lowered thickness) ∧
    ∀ v ∈ top, s.Fits (farthest v.plan) v

/-- Meshes that are put side by side have their vertices one after the other. -/
theorem Mesh.vertices_merge {α : Type} (meshes : List (Mesh α)) :
    (merge meshes).vertices = meshes.flatMap Mesh.vertices := by
  induction meshes with
  | nil => rfl
  | cons m rest ih => rw [merge_cons, append, ih, List.flatMap_cons]

variable {kernel : AreaKernel ℝ}

/-- **A plate slopes** if the heights over the vertices of its ring fit. -/
theorem buildPlate_isSlope {s : Slope} {ring : Ring ℝ} {heightAt : Point ℝ → Computed ℝ}
    {thickness : ℝ} {isOpen : Point ℝ → Point ℝ → Bool} {m : Mesh ℝ} {farthest : Point ℝ → Prop}
    (h : buildPlate kernel ring heightAt thickness isOpen = .ok m)
    (hheight : ∀ p ∈ ring, ∃ z, heightAt p = .ok z ∧ s.Fits (farthest p) ⟨p.x, p.y, z⟩) :
    m.IsSlope s ring thickness farthest := by
  obtain ⟨top, triangles, htop, -, rfl⟩ := buildPlate_parts h
  refine ⟨top, ?_, rfl, fun v hv => ?_⟩
  · have hbeside : List.Forall₂ (fun (p : Point ℝ) (v : Point3 ℝ) => v.plan = id p)
        ring.counterClockwise top := by
      refine htop.imp fun p v hv => ?_
      obtain ⟨z, -, rfl⟩ := hv
      rfl
    rw [map_eq_map_of_forall₂ hbeside, List.map_id]
  · obtain ⟨p, hp, z, hz, rfl⟩ := exists_of_forall₂_right htop hv
    obtain ⟨z', hz', hfits⟩ := hheight p (Ring.mem_counterClockwise.1 hp)
    rwa [Except.ok.inj (hz.symm.trans hz')]

/-- What is built on one side of a line: a slope over what is left of the outline there, unless that
is too small. -/
def SlopesOn (side : HalfPlane ℝ) (s : Slope) (outline : Ring ℝ) (thickness : ℝ)
    (farthest : Ring ℝ → Point ℝ → Prop) (built : Option (Mesh ℝ)) : Prop :=
  ∃ half, outline.clip side Tolerance.geometry = .ok half ∧
    (built.isSome ↔ 3 ≤ half.length ∧ Tolerance.geometry < |half.signedArea|) ∧
    ∀ m ∈ built, m.IsSlope s half thickness (farthest half)

/-- Both sides of a line, clipped off an outline, fall into triangles unless they are too small. -/
def HalvesTriangulate (kernel : AreaKernel ℝ) (side : Side → HalfPlane ℝ) (outline : Ring ℝ) :
    Prop :=
  ∀ keep half, outline.clip (side keep) Tolerance.geometry = .ok half → 3 ≤ half.length →
    Tolerance.geometry < |half.signedArea| →
      ∃ triangles, half.counterClockwise.triangulate kernel = .ok triangles

/-! ## Gable roofs -/

namespace GableRoof

variable {roof : GableRoof ℝ} {outline : Ring ℝ} {base : ℝ} {keep : Side} {half : Ring ℝ}
  {p : Point ℝ}

/-- The slope on both sides of a gable roof. -/
def slope (roof : GableRoof ℝ) (base : ℝ) : Slope :=
  ⟨roof.offRidge, base + roof.ridgeHeight, base + roof.eaveHeight⟩

/-- How far the outline reaches on the side of a point. -/
def reach (roof : GableRoof ℝ) (outline : Ring ℝ) (p : Point ℝ) : ℝ :=
  if 0 < roof.offRidge p then greatestPositive (outline.map roof.offRidge)
  else greatestPositive ((outline.map roof.offRidge).map (- ·))

/-- The vertices of the outline on the side of a point. -/
def sameSide (roof : GableRoof ℝ) (outline : Ring ℝ) (p : Point ℝ) : List (Point ℝ) :=
  outline.filter fun q => 0 < roof.offRidge p * roof.offRidge q

theorem height_exactSlopes (p : Point ℝ) :
    (roof.exactSlopes base outline).height p =
      (roof.slope base).height (roof.reach outline p) p := by
  have hzero : (0.0 : ℝ) = 0 := by norm_num
  have hreach : (if 0.0 < (roof.exactSlopes base outline).distance p then
      (roof.exactSlopes base outline).reachLeft else (roof.exactSlopes base outline).reachRight) =
      roof.reach outline p := by
    rw [hzero]
    rfl
  unfold GableSlopes.height Slope.height
  simp only [hreach]
  split_ifs
  · rfl
  · show base + roof.ridgeHeight - (roof.ridgeHeight - roof.eaveHeight) * |roof.offRidge p| / _ =
      base + roof.ridgeHeight - (base + roof.ridgeHeight - (base + roof.eaveHeight)) *
        (|roof.offRidge p| / _)
    ring

/-- The outline reaches to its vertices. -/
theorem abs_offRidge_le_reach (hp : p ∈ outline ∨ roof.offRidge p = 0) :
    |roof.offRidge p| ≤ roof.reach outline p := by
  unfold reach
  split_ifs with hleft
  · have hmem := List.mem_map_of_mem (f := roof.offRidge) (hp.resolve_right hleft.ne')
    rw [abs_of_pos hleft]
    exact (greatestPositive_le_iff.1 le_rfl).2 _ hmem
  · obtain ⟨hnonneg, hall⟩ := greatestPositive_le_iff.1
      (le_refl (greatestPositive ((outline.map roof.offRidge).map (- ·))))
    rcases hp with hmem | hzero
    · rw [abs_of_nonpos (not_lt.1 hleft)]
      exact hall _ (List.mem_map_of_mem (List.mem_map_of_mem hmem))
    · rwa [hzero, abs_zero]

/-- The outline reaches to the farthest of its vertices on a side. -/
theorem reach_eq (hp : p ∈ outline) (hoff : roof.offRidge p ≠ 0)
    (hfar : (roof.slope base).Farthest (roof.sameSide outline p) p) :
    roof.reach outline p = |roof.offRidge p| := by
  have hsame {q : Point ℝ} (hq : q ∈ outline) (hside : 0 < roof.offRidge p * roof.offRidge q) :
      |roof.offRidge q| ≤ |roof.offRidge p| :=
    hfar q (List.mem_filter.2 ⟨hq, decide_eq_true hside⟩)
  refine le_antisymm ?_ (abs_offRidge_le_reach (.inl hp))
  unfold reach
  split_ifs with hleft
  · refine greatestPositive_le_iff.2 ⟨abs_nonneg _, fun x hx => ?_⟩
    obtain ⟨q, hq, rfl⟩ := List.mem_map.1 hx
    by_cases hpos : 0 < roof.offRidge q
    · exact (le_abs_self _).trans (hsame hq (mul_pos hleft hpos))
    · exact (not_lt.1 hpos).trans (abs_nonneg _)
  · have hright : roof.offRidge p < 0 := lt_of_le_of_ne (not_lt.1 hleft) hoff
    refine greatestPositive_le_iff.2 ⟨abs_nonneg _, fun x hx => ?_⟩
    obtain ⟨y, hy, rfl⟩ := List.mem_map.1 hx
    obtain ⟨q, hq, rfl⟩ := List.mem_map.1 hy
    by_cases hneg : roof.offRidge q < 0
    · exact (neg_le_abs _).trans (hsame hq (mul_pos_of_neg_of_neg hright hneg))
    · exact (neg_nonpos.2 (not_lt.1 hneg)).trans (abs_nonneg _)

/-- **What is clipped off an outline** at the ridge line consists of vertices of the outline and of
points on the ridge line, and so it fits. -/
theorem fits_of_mem_clip
    (hclip : outline.clip (roof.ridgeSide keep) Tolerance.geometry = .ok half) (hp : p ∈ half) :
    (roof.slope base).Fits ((roof.slope base).Farthest (roof.sameSide outline p) p)
      ⟨p.x, p.y, (roof.exactSlopes base outline).height p⟩ := by
  have hleaves := Ring.leaves_of_mem_clip HalfPlane.geometry_pos.le hclip hp
  have hwhere : p ∈ outline ∨ roof.offRidge p = 0 := hleaves.old_or_on_line.imp_right fun hline =>
    depth_ridgeSide_eq_zero.1 (HalfPlane.depth_eq_zero_of_isOnLine hline)
  rw [height_exactSlopes]
  refine Slope.fits_height (abs_offRidge_le_reach hwhere) fun hfar hoff => ?_
  have hne : roof.offRidge p ≠ 0 := abs_pos.1 (HalfPlane.geometry_pos.trans hoff)
  exact reach_eq (hwhere.resolve_right hne) hne hfar

/-- What is built on one side of a gable roof.  It reaches as far as the outline does on that
side. -/
def SideSlopes (roof : GableRoof ℝ) (base : ℝ) (outline : Ring ℝ) (keep : Side)
    (built : Option (Mesh ℝ)) : Prop :=
  SlopesOn (roof.ridgeSide keep) (roof.slope base) outline roof.thickness
    (fun _ p => (roof.slope base).Farthest (roof.sameSide outline p) p) built

theorem sideSlopes_of_buildSide {built : Option (Mesh ℝ)}
    (h : (roof.exactSlopes base outline).buildSide kernel outline roof.thickness keep =
      .ok built) : roof.SideSlopes base outline keep built := by
  obtain ⟨half, hclip⟩ := outline.exists_clip (roof.ridgeSide keep) Tolerance.geometry
  refine ⟨half, hclip, ?_⟩
  rw [(roof.exactSlopes base outline).buildSide_eq kernel roof.thickness hclip] at h
  split_ifs at h with hlarge
  · cases hplate : buildPlate kernel half (roof.exactSlopes base outline).heightAt roof.thickness
      (roof.exactSlopes base outline).onLine with
    | error e =>
      rw [hplate] at h
      cases h
    | ok plate =>
      rw [hplate] at h
      obtain rfl := Except.ok.inj h
      refine ⟨iff_of_true rfl hlarge, ?_⟩
      rintro m ⟨⟩
      exact buildPlate_isSlope hplate fun p hp =>
        ⟨_, GableSlopes.heightAt_eq_ok _ p, fits_of_mem_clip hclip hp⟩
  · obtain rfl := Except.ok.inj h
    exact ⟨iff_of_false Bool.false_ne_true hlarge, fun m hm => by cases hm⟩

/-- A side is built if its half falls into triangles. -/
theorem exists_buildSide_of_triangulate (hhalves : HalvesTriangulate kernel roof.ridgeSide outline)
    (base : ℝ) (keep : Side) : ∃ built,
    (roof.exactSlopes base outline).buildSide kernel outline roof.thickness keep = .ok built := by
  obtain ⟨half, hclip⟩ := outline.exists_clip (roof.ridgeSide keep) Tolerance.geometry
  rw [(roof.exactSlopes base outline).buildSide_eq kernel roof.thickness hclip]
  split_ifs with hlarge
  · obtain ⟨triangles, htriangles⟩ := hhalves keep half hclip hlarge.1 hlarge.2
    obtain ⟨m, hm⟩ := exists_buildPlate
      (fun p _ => ⟨_, GableSlopes.heightAt_eq_ok (roof.exactSlopes base outline) p⟩) htriangles
      roof.thickness (roof.exactSlopes base outline).onLine
    exact ⟨some m, by rw [hm]; rfl⟩
  · exact ⟨none, rfl⟩

end GableRoof

/-! ## Multi-ridge roofs -/

namespace MultiRidgeRoof

variable {roof : MultiRidgeRoof ℝ} {ridge : Ridge ℝ} {outline : Ring ℝ} {base : ℝ} {keep : Side}
  {half : Ring ℝ} {p : Point ℝ}

/-- The slope on both sides of a roof that is split at a ridge. -/
def slope (roof : MultiRidgeRoof ℝ) (ridge : Ridge ℝ) (base : ℝ) : Slope :=
  ⟨fun p => p.x - ridge.start.x, base + ridge.height, base + roof.eaveHeight⟩

/-- The heights of a half. -/
def splitSlope (roof : MultiRidgeRoof ℝ) (ridge : Ridge ℝ) (base : ℝ) (half : Ring ℝ) :
    SplitSlope ℝ :=
  ⟨ridge.start.x, half.reachFrom ridge.start.x, base + ridge.height, ridge.height - roof.eaveHeight⟩

theorem heightAt_splitSlope (p : Point ℝ) : (roof.splitSlope ridge base half).heightAt p =
    .ok ((roof.slope ridge base).height (roof.splitSlope ridge base half).reach p) := by
  unfold SplitSlope.heightAt Slope.height
  by_cases hshort : (roof.splitSlope ridge base half).reach ≤ Tolerance.geometry
  · rw [if_pos hshort, if_pos hshort]
    rfl
  · rw [if_neg hshort, if_neg hshort,
      divide_eq_ok _ (HalfPlane.geometry_pos.trans (not_le.1 hshort)).ne']
    refine congrArg Except.ok ?_
    show base + ridge.height - (ridge.height - roof.eaveHeight) * (|p.x - ridge.start.x| / _) =
      base + ridge.height - (base + ridge.height - (base + roof.eaveHeight)) *
        (|p.x - ridge.start.x| / _)
    ring

/-- **The vertices of a half** fit: it reaches to the farthest of them. -/
theorem fits_of_mem (hp : p ∈ half) :
    (roof.slope ridge base).Fits ((roof.slope ridge base).Farthest half p)
      ⟨p.x, p.y, (roof.slope ridge base).height (half.reachFrom ridge.start.x) p⟩ := by
  have hne : half ≠ [] := List.ne_nil_of_mem hp
  have hreach : |p.x - ridge.start.x| ≤ half.reachFrom ridge.start.x :=
    (Ring.reachFrom_le_iff hne).1 le_rfl p hp
  exact Slope.fits_height hreach fun hfar _ =>
    le_antisymm ((Ring.reachFrom_le_iff hne).2 hfar) hreach

/-- What is built on one side of a split.  It reaches as far as what is left of the outline
there. -/
def HalfSlopes (roof : MultiRidgeRoof ℝ) (ridge : Ridge ℝ) (base : ℝ) (outline : Ring ℝ)
    (keep : Side) (built : Option (Mesh ℝ)) : Prop :=
  SlopesOn (splitSide ridge.start.x keep) (roof.slope ridge base) outline roof.thickness
    (roof.slope ridge base).Farthest built

theorem halfSlopes_of_buildHalf {built : Option (Mesh ℝ)}
    (h : roof.buildHalf kernel ridge base outline keep = .ok built) :
    roof.HalfSlopes ridge base outline keep built := by
  obtain ⟨half, hclip, h⟩ := bind_eq_ok.1 h
  refine ⟨half, hclip, ?_⟩
  split_ifs at h with hsmall
  · obtain rfl := pure_eq_ok.1 h
    refine ⟨iff_of_false Bool.false_ne_true fun hlarge => ?_, fun m hm => by cases hm⟩
    exact hsmall.elim (not_lt.2 hlarge.1) (not_le.2 hlarge.2)
  · obtain ⟨plate, hplate, h⟩ := bind_eq_ok.1 h
    obtain rfl := pure_eq_ok.1 h
    have hlarge := not_or.1 hsmall
    refine ⟨iff_of_true rfl ⟨not_lt.1 hlarge.1, not_le.1 hlarge.2⟩, ?_⟩
    rintro m ⟨⟩
    exact buildPlate_isSlope hplate fun p hp => ⟨_, heightAt_splitSlope p, fits_of_mem hp⟩

/-- A half is built if it falls into triangles. -/
theorem exists_buildHalf
    (hhalves : HalvesTriangulate kernel (splitSide ridge.start.x) outline) (base : ℝ)
    (keep : Side) : ∃ built, roof.buildHalf kernel ridge base outline keep = .ok built := by
  obtain ⟨half, hclip⟩ := outline.exists_clip (splitSide ridge.start.x keep) Tolerance.geometry
  by_cases hsmall : half.length < 3 ∨ Scalar.abs half.signedArea ≤ Tolerance.geometry
  · exact ⟨none, bind_eq_ok.2 ⟨half, hclip, if_pos hsmall⟩⟩
  · have hlarge := not_or.1 hsmall
    obtain ⟨triangles, htriangles⟩ :=
      hhalves keep half hclip (not_lt.1 hlarge.1) (not_le.1 hlarge.2)
    have hheight (p : Point ℝ) (_ : p ∈ half) :
        ∃ z, (roof.splitSlope ridge base half).heightAt p = .ok z := ⟨_, heightAt_splitSlope p⟩
    obtain ⟨m, hm⟩ := exists_buildPlate hheight htriangles roof.thickness fun _ _ => false
    exact ⟨some m, bind_eq_ok.2 ⟨half, hclip, (if_neg hsmall).trans (bind_eq_ok.2 ⟨m, hm, rfl⟩)⟩⟩

end MultiRidgeRoof

/-! ## Both kinds of roofs -/

/-- **Roofs stay between eaves and ridge.**  Over any outline, a gable roof whose ridge is long
enough consists of slopes on either side of the ridge line, and a multi-ridge roof of slopes on
either side of its first ridge.  The top vertices of a slope are between the heights of the eaves
and of the ridge, whichever is higher; on the ridge line they are at the height of the ridge, and
at the largest distance from it at the height of the eaves.  For a gable roof that is the largest
distance of the outline on that side, for a multi-ridge roof the largest one of the half.  Each
bottom vertex is below its top vertex by the thickness.  The roofs are built if the halves of the
outline fall into triangles. -/
theorem roofs_fit_slopes (kernel : AreaKernel ℝ) (h : House ℝ) :
    (∀ (roof : GableRoof ℝ) (level : Level ℝ) (outline : Ring ℝ),
      h.baseLevel (.gable roof) = .ok level →
      level.roofOutline kernel roof.overhang = .ok outline →
      Tolerance.geometry < roof.ridge.direction.length →
      (∀ built, h.buildGableRoof kernel roof = .ok built →
        ∃ (mesh : Mesh ℝ) (left right : Option (Mesh ℝ)), built = .gable roof.id mesh ∧
          mesh.vertices = (left.toList ++ right.toList).flatMap Mesh.vertices ∧
          roof.SideSlopes level.elevation outline .left left ∧
          roof.SideSlopes level.elevation outline .right right) ∧
      (HalvesTriangulate kernel roof.ridgeSide outline →
        ∃ built, h.buildGableRoof kernel roof = .ok built)) ∧
    ∀ (roof : MultiRidgeRoof ℝ) (ridge : Ridge ℝ) (rest : List (Ridge ℝ)) (level : Level ℝ)
      (outline : Ring ℝ),
      h.baseLevel (.multiRidge roof) = .ok level → roof.ridges = ridge :: rest →
      level.roofOutline kernel roof.overhang = .ok outline →
      (∀ built, h.buildMultiRidgeRoof kernel roof = .ok built →
        ∃ west east : Option (Mesh ℝ), built = .multiRidge roof.id ridge.start.x west east ∧
          roof.HalfSlopes ridge level.elevation outline .right west ∧
          roof.HalfSlopes ridge level.elevation outline .left east) ∧
      (HalvesTriangulate kernel (splitSide ridge.start.x) outline →
        ∃ built, h.buildMultiRidgeRoof kernel roof = .ok built) := by
  refine ⟨fun roof level outline hlevel houtline hridge => ⟨fun built hbuilt => ?_,
    fun hhalves => ?_⟩, fun roof ridge rest level outline hlevel hridges houtline =>
    ⟨fun built hbuilt => ?_, fun hhalves => ?_⟩⟩
  · obtain ⟨left, right, hleft, hright, rfl⟩ :=
      (House.buildGableRoof_eq_ok_iff hlevel houtline hridge).1 hbuilt
    exact ⟨_, left, right, rfl, Mesh.vertices_merge _, GableRoof.sideSlopes_of_buildSide hleft,
      GableRoof.sideSlopes_of_buildSide hright⟩
  · obtain ⟨left, hleft⟩ :=
      GableRoof.exists_buildSide_of_triangulate hhalves level.elevation .left
    obtain ⟨right, hright⟩ :=
      GableRoof.exists_buildSide_of_triangulate hhalves level.elevation .right
    exact ⟨_, (House.buildGableRoof_eq_ok_iff hlevel houtline hridge).2
      ⟨left, right, hleft, hright, rfl⟩⟩
  · obtain ⟨level', ridge', rest', outline', west, east, hlevel', hridges', houtline', hwest, heast,
      rfl⟩ := House.buildMultiRidgeRoof_eq_ok_iff.1 hbuilt
    obtain rfl : level' = level := Except.ok.inj (hlevel'.symm.trans hlevel)
    obtain rfl : outline' = outline := Except.ok.inj (houtline'.symm.trans houtline)
    obtain ⟨rfl, -⟩ := List.cons.inj (hridges'.symm.trans hridges)
    exact ⟨west, east, rfl, MultiRidgeRoof.halfSlopes_of_buildHalf hwest,
      MultiRidgeRoof.halfSlopes_of_buildHalf heast⟩
  · obtain ⟨west, hwest⟩ := MultiRidgeRoof.exists_buildHalf hhalves level.elevation .right
    obtain ⟨east, heast⟩ := MultiRidgeRoof.exists_buildHalf hhalves level.elevation .left
    exact ⟨_, House.buildMultiRidgeRoof_eq_ok_iff.2 ⟨level, ridge, rest, outline, west, east,
      hlevel, hridges, houtline, hwest, heast, rfl⟩⟩

/-! ## Roofs for the barn -/

/-- Rings fall into fans. -/
theorem halvesTriangulate_fan (side : Side → HalfPlane ℝ) (outline : Ring ℝ) :
    HalvesTriangulate .fan side outline := by
  intro keep half _ _ _
  unfold Ring.triangulate
  split_ifs
  · exact ⟨_, rfl⟩
  · exact ⟨_, rfl⟩

/-- A roof for the barn that is split across it. -/
def MultiRidgeRoof.acrossBarn : MultiRidgeRoof ℝ where
  id := "split"
  baseLevelId := "ground"
  eaveHeight := 2.5
  thickness := 0.25
  overhang := 0
  ridges := [⟨"ridge", ⟨4, 0⟩, ⟨4, 4⟩, 4.5, false, false⟩]

/-- Both sides of the split are quadrangles. -/
theorem cutsQuadrangle_acrossBarn (keep : Side) :
    (splitSide 4 keep).CutsQuadrangle barnOutline := by
  have hside : splitSide (4 : ℝ) keep = ⟨⟨4, -1000⟩, ⟨4, 1000⟩, keep⟩ := by
    rw [splitSide, referenceExtent_eq]
  have hsharp : ∀ v ∈ barnOutline, (splitSide (4 : ℝ) keep).Sharp v := by
    rw [hside]
    cases keep <;>
      norm_num [barnOutline, HalfPlane.Sharp, HalfPlane.depth, sideOfLine, Tolerance.geometry]
  cases keep with
  | left =>
    have hcut : (splitSide (4 : ℝ) .left).cutRing barnOutline =
        [(4, 0), (8, 0), (8, 4), (4, 4)].map Point.ofInts := by
      rw [hside]
      norm_num [HalfPlane.cutRing, barnOutline, Ring.edgesInto, HalfPlane.cut, HalfPlane.depth,
        sideOfLine, HalfPlane.hit, Point.along, Point.ofInts]
    exact .of_cutRing hsharp hcut (by decide) (by norm_num [Point.spanned, Point.ofInts])
      (by norm_num [Point.spanned, Point.ofInts])
  | right =>
    have hcut : (splitSide (4 : ℝ) .right).cutRing barnOutline =
        [(0, 0), (4, 0), (4, 4), (0, 4)].map Point.ofInts := by
      rw [hside]
      norm_num [HalfPlane.cutRing, barnOutline, Ring.edgesInto, HalfPlane.cut, HalfPlane.depth,
        sideOfLine, HalfPlane.hit, Point.along, Point.ofInts]
    exact .of_cutRing hsharp hcut (by decide) (by norm_num [Point.spanned, Point.ofInts])
      (by norm_num [Point.spanned, Point.ofInts])

/-- Over a quadrangle a slope is built. -/
theorem SlopesOn.exists_mesh {side : HalfPlane ℝ} {s : Slope} {outline : Ring ℝ} {thickness : ℝ}
    {farthest : Ring ℝ → Point ℝ → Prop} {built : Option (Mesh ℝ)}
    (h : SlopesOn side s outline thickness farthest built)
    (hquad : side.CutsQuadrangle outline) : ∃ m, built = some m := by
  obtain ⟨half, hclip, hsome, -⟩ := h
  obtain ⟨a, b, c, d, hclip', hcs, habc, hacd⟩ := hquad
  obtain rfl := Except.ok.inj (hclip'.symm.trans hclip)
  refine Option.isSome_iff_exists.1 (hsome.2 ⟨by simp, ?_⟩)
  exact (Ring.fan_fills_quadrangle rfl hcs habc hacd).1

/-- The barn with either roof: both are built of two slopes. -/
theorem barn_roofs_fit_slopes :
    ∃ mesh left right west east : Mesh ℝ,
      House.barn.buildGableRoof .fan (.overBarn 2) = .ok (.gable "gable" mesh) ∧
      mesh.vertices = left.vertices ++ right.vertices ∧
      (GableRoof.overBarn 2).SideSlopes 0 barnOutline .left (some left) ∧
      (GableRoof.overBarn 2).SideSlopes 0 barnOutline .right (some right) ∧
      House.barn.buildMultiRidgeRoof .fan .acrossBarn =
        .ok (.multiRidge "split" 4 (some west) (some east)) ∧
      MultiRidgeRoof.acrossBarn.HalfSlopes ⟨"ridge", ⟨4, 0⟩, ⟨4, 4⟩, 4.5, false, false⟩ 0
        barnOutline .right (some west) ∧
      MultiRidgeRoof.acrossBarn.HalfSlopes ⟨"ridge", ⟨4, 0⟩, ⟨4, 4⟩, 4.5, false, false⟩ 0
        barnOutline .left (some east) := by
  obtain ⟨hgable, hsplit⟩ := roofs_fit_slopes .fan House.barn
  obtain ⟨hslopes, hbuilt⟩ := hgable (.overBarn 2) .barn barnOutline rfl (Level.barn_roofOutline 2)
    (GableRoof.geometry_lt_length_overBarn 2)
  obtain ⟨roof, hroof⟩ := hbuilt (halvesTriangulate_fan _ _)
  obtain ⟨mesh, left, right, rfl, hvertices, hleft, hright⟩ := hslopes roof hroof
  obtain ⟨hhalves, hbuilt'⟩ := hsplit .acrossBarn _ [] .barn barnOutline rfl rfl
    (Level.barn_roofOutline 2)
  obtain ⟨roof', hroof'⟩ := hbuilt' (halvesTriangulate_fan _ _)
  obtain ⟨west, east, rfl, hwest, heast⟩ := hhalves roof' hroof'
  obtain ⟨left, rfl⟩ := hleft.exists_mesh (GableRoof.cutsQuadrangle_overBarn_middle .left)
  obtain ⟨right, rfl⟩ := hright.exists_mesh (GableRoof.cutsQuadrangle_overBarn_middle .right)
  obtain ⟨west, rfl⟩ := hwest.exists_mesh (cutsQuadrangle_acrossBarn .right)
  obtain ⟨east, rfl⟩ := heast.exists_mesh (cutsQuadrangle_acrossBarn .left)
  refine ⟨mesh, left, right, west, east, hroof, ?_, hleft, hright, hroof', hwest, heast⟩
  rw [hvertices]
  simp

end

end Housewright
