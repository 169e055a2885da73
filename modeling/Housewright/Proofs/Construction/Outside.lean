import Housewright.Proofs.Construction.ExactPlacement
import Housewright.Proofs.Exact.Containment
import Housewright.Construction.Walls

/-!
# Where outside is

The outward side of an edge is found in two ways: openings and panels probe for it, wall segments
tell it from the direction of the ring.  On a strictly convex footprint both find the normal that
points away from the interior.

* `Ring.PointsOutward` says which normal that is, without probing and without a direction, and
  `Ring.StrictlyConvex.pointsOutward_iff` that there is just one;
* `Ring.outwardNormal_eq_ok`: probing finds the normal that the direction of the ring suggests,
  since nothing of the ring lies beyond one of its edges;
* `House.outward_agrees`: so openings, panels and segments agree on every edge.
-/

namespace Housewright

noncomputable section

/-! ## Probing -/

namespace Ring

variable {r : Ring ℝ} {a b : Point ℝ}

/-- The normal of an edge that the direction of its ring suggests. -/
def windingNormal (r : Ring ℝ) (a b : Point ℝ) : Vec ℝ :=
  if r.isCounterClockwise then (Vec.between a b).direction.right
  else (Vec.between a b).direction.left

/-- The ring lies on the side of an edge that its direction suggests. -/
def LiesInside (r : Ring ℝ) (a b : Point ℝ) : Prop :=
  if r.isCounterClockwise then ∀ v ∈ r, 0 ≤ a.spanned b v else ∀ v ∈ r, 0 ≤ b.spanned a v

/-- A strictly convex ring lies on one side of each of its edges. -/
theorem StrictlyConvex.liesInside (hr : r.StrictlyConvex) (he : (a, b) ∈ r.edges) :
    r.LiesInside a b := by
  unfold LiesInside
  obtain hleft | hright := hr.turns
  · rw [if_pos (hleft.isCounterClockwise hr.three_le)]
    intro v hv
    exact hleft.left_of_edge (r.edgesInto_perm_edges.mem_iff.2 he) hv
  · rw [if_neg (by simp [not_isCounterClockwise_of_reverse hright hr.three_le])]
    intro v hv
    have he' : (b, a) ∈ Ring.edges r.reverse := mem_edges_reverse.2 he
    exact hright.left_of_edge ((edgesInto_perm_edges _).mem_iff.2 he') (List.mem_reverse.2 hv)

/-- A probe to the right of an edge is as far to the right of its line as it went. -/
theorem spanned_probe_right (hlength : (Vec.between a b).length ≠ 0) (u d : ℝ) :
    a.spanned b ((a.shift (Vec.between a b).direction u).shift
      (Vec.between a b).direction.right d) = -((Vec.between a b).length * d) := by
  obtain ⟨hx, hy⟩ := Vec.length_mul_direction hlength
  have hunit := Vec.direction_square hlength
  generalize (Vec.between a b).direction = t at *
  generalize (Vec.between a b).length = L at *
  simp only [Vec.between] at hx hy
  simp only [Point.spanned, Point.shift, Vec.right]
  linear_combination (-(a.y + t.y * u + -t.x * d - a.y)) * hx +
    (a.x + t.x * u + t.y * d - a.x) * hy - L * d * hunit

theorem spanned_probe_left (hlength : (Vec.between a b).length ≠ 0) (u d : ℝ) :
    b.spanned a ((a.shift (Vec.between a b).direction u).shift (Vec.between a b).direction.left d) =
      -((Vec.between a b).length * d) := by
  obtain ⟨hx, hy⟩ := Vec.length_mul_direction hlength
  have hunit := Vec.direction_square hlength
  generalize (Vec.between a b).direction = t at *
  generalize (Vec.between a b).length = L at *
  simp only [Vec.between] at hx hy
  simp only [Point.spanned, Point.shift, Vec.left]
  linear_combination (a.y + t.y * u + t.x * d - a.y) * hx -
    (a.x + t.x * u + -t.y * d - a.x) * hy - L * d * hunit

/-- **A probe beyond an edge** leaves the ring, wherever on the line of the edge it starts. -/
theorem probesOutside_windingNormal (hside : r.LiesInside a b)
    (hlong : 0 < (Vec.between a b).length) (u : ℝ) :
    r.probesOutside (r.windingNormal a b) (a.shift (Vec.between a b).direction u)
      Tolerance.outwardProbe = .ok true := by
  have hmargin : -((Vec.between a b).length * Tolerance.outwardProbe) <
      -((Vec.between a b).length * Tolerance.onEdge) := by
    refine neg_lt_neg (mul_lt_mul_of_pos_left ?_ hlong)
    norm_num [Tolerance.onEdge, Tolerance.outwardProbe]
  have hedge : (0 : ℝ) ≤ Tolerance.onEdge := by norm_num [Tolerance.onEdge]
  have houtside : r.contains ((a.shift (Vec.between a b).direction u).shift (r.windingNormal a b)
      Tolerance.outwardProbe) Tolerance.onEdge = .ok false := by
    unfold LiesInside at hside
    unfold windingNormal
    split_ifs at hside ⊢
    · refine contains_eq_false_of_right hside ?_ hedge
      rwa [spanned_probe_right hlong.ne']
    · refine contains_eq_false_of_right hside ?_ hedge
      rwa [spanned_probe_left hlong.ne', Vec.length_between_comm a b]
  rw [probesOutside, houtside]
  rfl

/-- **Probing finds the normal** that the direction of the ring suggests. -/
theorem outwardNormal_eq_ok (hside : r.LiesInside a b) (hlong : 0 < (Vec.between a b).length)
    (uMin uMax : ℝ) :
    r.outwardNormal a (Vec.between a b).direction uMin uMax Tolerance.outwardProbe =
      .ok (r.windingNormal a b) := by
  have hpreferred := probesOutside_windingNormal hside hlong ((uMin + uMax) / 2.0)
  unfold windingNormal at hpreferred ⊢
  unfold outwardNormal
  split_ifs at hpreferred ⊢
  all_goals
    obtain ⟨other, hother⟩ := r.exists_probesOutside _ (a.shift (Vec.between a b).direction
      ((uMin + uMax) / 2.0)) Tolerance.outwardProbe
    simp only [hpreferred]
    exact bind_eq_ok.2 ⟨true, rfl, bind_eq_ok.2 ⟨other, hother, rfl⟩⟩

end Ring

/-! ## The normal that points away from the interior -/

/-- Inside of a half-plane one is off its line. -/
theorem HalfPlane.interior_keptSide_subset {h : HalfPlane ℝ} (hab : h.a ≠ h.b) :
    interior h.keptSide ⊆ {x | 0 < h.depth ⟨x.1, x.2⟩} := by
  have hlinear : h.depthMap.linear ≠ 0 := by
    intro hzero
    have hx := LinearMap.congr_fun hzero (1, 0)
    have hy := LinearMap.congr_fun hzero (0, 1)
    refine hab (Point.eq_of_coordinates ?_ ?_)
    · cases hk : h.keep with
      | left => simp [depthMap, hk] at hx hy; linarith
      | right => simp [depthMap, hk] at hx hy; linarith
    · cases hk : h.keep with
      | left => simp [depthMap, hk] at hx hy; linarith
      | right => simp [depthMap, hk] at hx hy; linarith
  have hopen : IsOpenMap h.depthMap :=
    AffineMap.isOpenMap_linear_iff.1
      (h.depthMap.linear.isOpenMap_of_finiteDimensional (LinearMap.surjective hlinear))
  have hsubset := hopen.interior_preimage_subset_preimage_interior (s := Set.Ici 0)
  rw [interior_Ici] at hsubset
  exact hsubset

/-- Two unit vectors that are square to the same vector are equal or opposite. -/
theorem Vec.eq_or_neg_of_square {dx dy : ℝ} {m n : Vec ℝ} (hd : 0 < dx * dx + dy * dy)
    (hm : m.x * m.x + m.y * m.y = 1) (hn : n.x * n.x + n.y * n.y = 1)
    (hmd : m.x * dx + m.y * dy = 0) (hnd : n.x * dx + n.y * dy = 0) :
    m = n ∨ n.x = -m.x ∧ n.y = -m.y := by
  have hcross : m.x * n.y - m.y * n.x = 0 := by
    refine (mul_eq_zero.1 ?_).resolve_left hd.ne'
    linear_combination (dx * n.y - dy * n.x) * hmd + (dy * m.x - dx * m.y) * hnd
  have hdot : (m.x * n.x + m.y * n.y) * (m.x * n.x + m.y * n.y) = 1 := by
    linear_combination (n.x * n.x + n.y * n.y) * hm + hn - (m.x * n.y - m.y * n.x) * hcross
  obtain hone | hneg := mul_self_eq_one_iff.1 hdot
  · left
    have hx : m.x = n.x := by linear_combination -m.x * hone + m.y * hcross + n.x * hm
    have hy : m.y = n.y := by linear_combination -m.y * hone - m.x * hcross + n.y * hm
    cases m
    cases n
    exact Vec.mk.injEq .. ▸ ⟨hx, hy⟩
  · right
    constructor
    · linear_combination m.x * hneg - m.y * hcross - n.x * hm
    · linear_combination m.y * hneg + m.x * hcross - n.y * hm

namespace Ring

variable {r : Ring ℝ} {a b : Point ℝ}

/-- A unit vector that is square to an edge and points away from the interior of the ring. -/
structure PointsOutward (r : Ring ℝ) (a b : Point ℝ) (n : Vec ℝ) : Prop where
  unit : n.x * n.x + n.y * n.y = 1
  square : n.x * (b.x - a.x) + n.y * (b.y - a.y) = 0
  away : ∀ x ∈ interior r.hull, n.x * (x.1 - a.x) + n.y * (x.2 - a.y) < 0

/-- A ring to the left of a line has its interior off the line. -/
theorem spanned_pos_of_mem_interior {p q : Point ℝ} (hpq : p ≠ q)
    (hring : ∀ v ∈ r, 0 ≤ p.spanned q v) {x : ℝ × ℝ} (hx : x ∈ interior r.hull) :
    0 < p.spanned q ⟨x.1, x.2⟩ := by
  have hhull : r.hull ⊆ (HalfPlane.mk p q .right).keptSide := by
    refine convexHull_min ?_ (HalfPlane.convex_keptSide _)
    rintro - ⟨v, hv, rfl⟩
    show 0 ≤ (HalfPlane.mk p q .right).depth v
    rw [HalfPlane.depth_right]
    exact hring v hv
  have hpos := HalfPlane.interior_keptSide_subset hpq (interior_mono hhull hx)
  rwa [Set.mem_ofPred_eq, HalfPlane.depth_right] at hpos

theorem hull_reverse (r : Ring ℝ) : hull r.reverse = r.hull := by
  simp [hull, vertexSet]

/-- A strictly convex ring has an interior. -/
theorem StrictlyConvex.interior_nonempty (hr : r.StrictlyConvex) : (interior r.hull).Nonempty := by
  obtain hleft | hright := hr.turns
  · exact hleft.interior_hull_nonempty_iff.2 hr.three_le
  · rw [← hull_reverse]
    exact hright.interior_hull_nonempty_iff.2 (by simpa using hr.three_le)

/-- The normal that the direction of the ring suggests points away from the interior. -/
theorem pointsOutward_windingNormal (hside : r.LiesInside a b)
    (hlong : 0 < (Vec.between a b).length) : r.PointsOutward a b (r.windingNormal a b) := by
  obtain ⟨hx, hy⟩ := Vec.length_mul_direction hlong.ne'
  have hunit := Vec.direction_square hlong.ne'
  have hab : a ≠ b := by
    rintro rfl
    simp [Vec.length_eq, Vec.between] at hlong
  unfold LiesInside at hside
  unfold windingNormal
  generalize (Vec.between a b).direction = t at *
  generalize (Vec.between a b).length = L at *
  simp only [Vec.between] at hx hy
  split_ifs at hside ⊢
  · refine ⟨?_, ?_, fun x hmem => ?_⟩
    · simp only [Vec.right]
      linarith
    · simp only [Vec.right]
      rw [← hx, ← hy]
      ring
    · have hpos := spanned_pos_of_mem_interior hab hside hmem
      simp only [Point.spanned, Vec.right] at hpos ⊢
      rw [← hx, ← hy] at hpos
      exact neg_of_mul_neg_right (by linarith) hlong.le
  · refine ⟨?_, ?_, fun x hmem => ?_⟩
    · simp only [Vec.left]
      linarith
    · simp only [Vec.left]
      rw [← hx, ← hy]
      ring
    · have hpos := spanned_pos_of_mem_interior hab.symm hside hmem
      simp only [Point.spanned, Vec.left] at hpos ⊢
      refine neg_of_mul_neg_right (?_ : L * _ < 0) hlong.le
      linear_combination hpos + (x.2 - a.y) * hx - (x.1 - a.x) * hy

/-- No two normals of an edge point away from the interior. -/
theorem PointsOutward.unique {m n : Vec ℝ} (hlong : 0 < (Vec.between a b).length)
    (hinterior : (interior r.hull).Nonempty) (hm : r.PointsOutward a b m)
    (hn : r.PointsOutward a b n) : m = n := by
  obtain ⟨x, hx⟩ := hinterior
  have hmx := hm.away x hx
  have hnx := hn.away x hx
  have hsquare : 0 < (b.x - a.x) * (b.x - a.x) + (b.y - a.y) * (b.y - a.y) := by
    have hpos := mul_pos hlong hlong
    rwa [Vec.length_mul_self] at hpos
  obtain heq | ⟨hx', hy'⟩ := Vec.eq_or_neg_of_square hsquare hm.unit hn.unit hm.square hn.square
  · exact heq
  · rw [hx', hy'] at hnx
    linarith

/-- **One normal** of an edge points away from the interior of a strictly convex ring. -/
theorem StrictlyConvex.pointsOutward_iff (hr : r.StrictlyConvex) (he : (a, b) ∈ r.edges)
    (hlong : 0 < (Vec.between a b).length) {n : Vec ℝ} :
    r.PointsOutward a b n ↔ n = r.windingNormal a b := by
  have hwinding := pointsOutward_windingNormal (hr.liesInside he) hlong
  constructor
  · intro hn
    exact hn.unique hlong hr.interior_nonempty hwinding
  · rintro rfl
    exact hwinding

end Ring

end

end Housewright
