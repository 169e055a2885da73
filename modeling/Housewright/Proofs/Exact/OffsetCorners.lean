import Mathlib.Tactic.NormNum.RealSqrt
import Housewright.Proofs.Construction.Winding
import Housewright.Proofs.Exact.Mitres
import Housewright.Proofs.Geometry.CornerOrder

/-!
# Where corners are moved to

When the edges of a ring are moved inward, every corner with two edges that have directions is moved
to one or two points on the moved edges, near the corner, whatever way the ring runs.

* `Ring.inwardDistance` is how far inside the line of an edge a point lies, and `Ring.MovesCorner`
  says what points a corner may be moved to;
* `Ring.movesCorner_movedTo`: these are the points it is moved to, so `Ring.offsetInward_on_edges`
  says where the vertices of an offset come from;
* `Ring.Corner.movedTo_backwards`, `Ring.movedCorners_reverse`: seen the other way, a corner is
  moved to the same points, so in `Ring.offsetInward_reverse` a ring that is run backwards has its
  offset run backwards.
-/

namespace Housewright

noncomputable section

/-! ## Shifted points -/

namespace Vec

/-- Where a shifted point lies, seen along a direction. -/
theorem cross_between_shift (e w : Vec ℝ) (p : Point ℝ) (d : ℝ) :
    e.cross (Vec.between p (p.shift w d)) = e.cross w * d := by
  simp only [Vec.cross, Vec.between, Point.shift]
  ring

/-- The end of a moved edge is on it. -/
theorem cross_between_shift_left {e : Vec ℝ} (he : e.dot e = 1) (p : Point ℝ) (d : ℝ) :
    e.cross (Vec.between p (p.shift e.left d)) = d := by
  have hleft : e.cross e.left = e.dot e := by
    simp only [Vec.cross, Vec.left, Vec.dot]
    ring
  rw [cross_between_shift, hleft, he, one_mul]

/-- A direction that is turned is as long as before. -/
theorem length_left_of_unit {e : Vec ℝ} (he : e.dot e = 1) : e.left.length = 1 := by
  rw [Vec.length_eq, Real.sqrt_eq_one, ← he]
  simp only [Vec.left, Vec.dot]
  ring

end Vec

/-- The end of a moved edge stays where it is if the edge is run backwards and moved the other
way. -/
theorem Point.shift_left_opposite (p : Point ℝ) (e : Vec ℝ) (d : ℝ) :
    p.shift e.opposite.left (-d) = p.shift e.left d := by
  rw [Vec.left_opposite, Point.shift_right, neg_neg]

namespace Ring

/-! ## Distances from moved edges -/

/-- How far inside the line from `a` to `b` a point lies, measured along the inward normal of the
edges of a ring. -/
def inwardDistance (r : Ring ℝ) (a b q : Point ℝ) : ℝ :=
  if r.isCounterClockwise then (Vec.between a b).direction.left.dot (Vec.between a q)
  else (Vec.between a b).direction.right.dot (Vec.between a q)

/-- A point is inside by some distance if it is to the left by the distance that this means. -/
theorem inwardDistance_eq_iff {r : Ring ℝ} {a b q : Point ℝ} {d : ℝ} :
    r.inwardDistance a b q = d ↔
      (Vec.between a b).direction.cross (Vec.between a q) = r.leftward d := by
  unfold inwardDistance leftward
  simp only [Vec.dot, Vec.left, Vec.right, Vec.cross]
  split_ifs
  · constructor <;> intro h <;> linarith
  · constructor <;> intro h <;> linarith

/-- What points a corner of a ring may be moved to when the edges of the ring move inward by a
distance. -/
inductive MovesCorner (r : Ring ℝ) (d : ℝ) (c : Corner ℝ) : List (Point ℝ) → Prop
  /-- A corner at an edge without direction is lost. -/
  | lost (h : ¬ c.HasDirections) : MovesCorner r d c []
  /-- The mitre lies on both moved edges and within the limit. -/
  | mitred {m : Point ℝ} (h : c.HasDirections) (first : r.inwardDistance c.before c.apex m = d)
    (second : r.inwardDistance c.apex c.after m = d)
    (near : m.gap c.apex ≤ Tolerance.mitreLimit * |d|) : MovesCorner r d c [m]
  /-- The ends of both moved edges stand square to the corner.  The edges are nearly parallel, or
  the moved edges meet beyond the limit. -/
  | bevelled {p q : Point ℝ} (h : c.HasDirections) (first : r.inwardDistance c.before c.apex p = d)
    (second : r.inwardDistance c.apex c.after q = d) (hp : p.gap c.apex = |d|)
    (hq : q.gap c.apex = |d|)
    (reason : |c.incoming.cross c.outgoing| < Tolerance.geometry ∨
      ∀ m, r.inwardDistance c.before c.apex m = d → r.inwardDistance c.apex c.after m = d →
        Tolerance.mitreLimit * |d| < m.gap c.apex) : MovesCorner r d c [p, q]

/-- The points are few, lie on the line of a moved edge and do not run away. -/
theorem MovesCorner.on_edge {r : Ring ℝ} {d : ℝ} {c : Corner ℝ} {group : List (Point ℝ)}
    (h : r.MovesCorner d c group) {v : Point ℝ} (hv : v ∈ group) :
    c.HasDirections ∧ (group.length = 1 ∨ group.length = 2) ∧
      (r.inwardDistance c.before c.apex v = d ∨ r.inwardDistance c.apex c.after v = d) ∧
      v.gap c.apex ≤ Tolerance.mitreLimit * |d| := by
  have hlimit : |d| ≤ Tolerance.mitreLimit * |d| :=
    le_mul_of_one_le_left (abs_nonneg d) (by norm_num [Tolerance.mitreLimit])
  cases h with
  | lost => cases hv
  | mitred h first second near =>
    obtain rfl := List.mem_singleton.1 hv
    exact ⟨h, .inl rfl, .inl first, near⟩
  | bevelled h first second hp hq =>
    refine ⟨h, .inr rfl, ?_⟩
    obtain rfl | hv := List.mem_cons.1 hv
    · exact ⟨.inl first, hp.trans_le hlimit⟩
    · obtain rfl := List.mem_singleton.1 hv
      exact ⟨.inr second, hq.trans_le hlimit⟩

namespace Corner

variable {c : Corner ℝ} {d : ℝ}

/-- The line of the edge into a corner passes through the corner. -/
theorem cross_between_before (hc : c.HasDirections) (q : Point ℝ) :
    c.incoming.cross (Vec.between c.before q) = c.incoming.cross (Vec.between c.apex q) := by
  obtain ⟨hx, hy⟩ := Vec.length_mul_direction (HalfPlane.geometry_pos.trans_le hc.before).ne'
  rw [← incoming] at hx hy
  simp only [Vec.between] at hx hy
  simp only [Vec.cross, Vec.between]
  linear_combination c.incoming.y * hx - c.incoming.x * hy

/-- The moved corner is on both moved edges. -/
theorem cross_between_moved (hc : c.HasDirections) (hcross : c.incoming.cross c.outgoing ≠ 0)
    (d : ℝ) : c.incoming.cross (Vec.between c.apex (c.moved d)) = d ∧
      c.outgoing.cross (Vec.between c.apex (c.moved d)) = d := by
  have he := incoming_dot_self hc.before
  have hf := outgoing_dot_self hc.after
  have hback := Vec.one_add_dot_ne_zero he hf hcross
  constructor
  · rw [moved, Vec.cross_between_shift, mitre, Vec.cross_mitre_first he hback, one_mul]
  · rw [moved, Vec.cross_between_shift, mitre, Vec.cross_mitre_second hf hback, one_mul]

/-- **Two lines meet once**: a point on both moved edges is the moved corner. -/
theorem eq_moved (hc : c.HasDirections) (hcross : c.incoming.cross c.outgoing ≠ 0) {m : Point ℝ}
    (hfirst : c.incoming.cross (Vec.between c.apex m) = d)
    (hsecond : c.outgoing.cross (Vec.between c.apex m) = d) : m = c.moved d := by
  obtain ⟨hfirst', hsecond'⟩ := cross_between_moved hc hcross d
  simp only [Vec.cross, Vec.between] at hfirst hsecond hfirst' hsecond' hcross
  refine Point.eq_of_coordinates (mul_left_cancel₀ hcross ?_) (mul_left_cancel₀ hcross ?_)
  · linear_combination c.outgoing.x * (hfirst - hfirst') - c.incoming.x * (hsecond - hsecond')
  · linear_combination c.outgoing.y * (hfirst - hfirst') - c.incoming.y * (hsecond - hsecond')

/-- Edges that are not nearly parallel cross. -/
theorem cross_ne_zero (hcross : ¬ |c.incoming.cross c.outgoing| < Tolerance.geometry) :
    c.incoming.cross c.outgoing ≠ 0 :=
  abs_pos.1 (HalfPlane.geometry_pos.trans_le (not_lt.1 hcross))

/-- A corner between crossing edges is moved to where the moved edges meet, if that is not too far
away. -/
theorem movedTo_eq_singleton {c : Corner ℝ} {d : ℝ} {m : Point ℝ} (hc : c.HasDirections)
    (hcross : ¬ |c.incoming.cross c.outgoing| < Tolerance.geometry)
    (hfirst : c.incoming.cross (Vec.between c.apex m) = d)
    (hsecond : c.outgoing.cross (Vec.between c.apex m) = d)
    (hnear : m.gap c.apex ≤ Tolerance.mitreLimit * |d|) : c.movedTo d = [m] := by
  have hmoved := eq_moved hc (cross_ne_zero hcross) hfirst hsecond
  have hmitred : ¬ c.IsBevelled d := not_or.2 ⟨hcross, not_lt.2 (hmoved ▸ hnear)⟩
  rw [movedTo, if_pos hc, if_neg hmitred, ← hmoved]

end Corner

/-- How far inside the edge into a corner a point lies, seen from the corner. -/
theorem inwardDistance_before_iff {r : Ring ℝ} {c : Corner ℝ} (hc : c.HasDirections) {q : Point ℝ}
    {d : ℝ} : r.inwardDistance c.before c.apex q = d ↔
      c.incoming.cross (Vec.between c.apex q) = r.leftward d := by
  rw [inwardDistance_eq_iff, ← Corner.cross_between_before hc]
  rfl

/-- The distance to the left is as large as the inward one. -/
theorem abs_leftward (r : Ring ℝ) (d : ℝ) : |r.leftward d| = |d| := by
  unfold leftward
  split_ifs
  · rfl
  · exact abs_neg d

/-- **A corner is moved** to points on its moved edges. -/
theorem movesCorner_movedTo (r : Ring ℝ) (d : ℝ) (c : Corner ℝ) :
    r.MovesCorner d c (c.movedTo (r.leftward d)) := by
  unfold Corner.movedTo
  split_ifs with hc hbevelled
  · have he := Corner.incoming_dot_self hc.before
    have hf := Corner.outgoing_dot_self hc.after
    refine .bevelled hc ((inwardDistance_before_iff hc).2 (Vec.cross_between_shift_left he _ _))
      (inwardDistance_eq_iff.2 (Vec.cross_between_shift_left hf _ _)) ?_ ?_ ?_
    · rw [Point.gap_shift, Vec.length_left_of_unit he, one_mul, abs_leftward]
    · rw [Point.gap_shift, Vec.length_left_of_unit hf, one_mul, abs_leftward]
    · refine or_iff_not_imp_left.2 fun hcross m hfirst hsecond => ?_
      rw [Corner.eq_moved hc (Corner.cross_ne_zero hcross) ((inwardDistance_before_iff hc).1 hfirst)
        (inwardDistance_eq_iff.1 hsecond), ← r.abs_leftward d]
      exact hbevelled.resolve_left hcross
  · obtain ⟨hcross, hfar⟩ := not_or.1 hbevelled
    obtain ⟨hfirst, hsecond⟩ :=
      Corner.cross_between_moved hc (Corner.cross_ne_zero hcross) (r.leftward d)
    refine .mitred hc ((inwardDistance_before_iff hc).2 hfirst)
      (inwardDistance_eq_iff.2 hsecond) ?_
    rw [← r.abs_leftward d]
    exact not_lt.1 hfar
  · exact .lost hc

/-! ## Rings run backwards -/

namespace Corner

variable {c : Corner ℝ} {d : ℝ}

theorem incoming_backwards (c : Corner ℝ) : c.backwards.incoming = c.outgoing.opposite :=
  Vec.direction_between_comm c.apex c.after

theorem outgoing_backwards (c : Corner ℝ) : c.backwards.outgoing = c.incoming.opposite :=
  Vec.direction_between_comm c.before c.apex

theorem hasDirections_backwards : c.backwards.HasDirections ↔ c.HasDirections := by
  have hbefore := Vec.length_between_comm c.before c.apex
  have hafter := Vec.length_between_comm c.apex c.after
  constructor
  · exact fun h => ⟨hbefore ▸ h.after, hafter ▸ h.before⟩
  · exact fun h => ⟨hafter.symm ▸ h.after, hbefore.symm ▸ h.before⟩

theorem cross_backwards (c : Corner ℝ) :
    c.backwards.incoming.cross c.backwards.outgoing = -c.incoming.cross c.outgoing := by
  rw [incoming_backwards, outgoing_backwards]
  simp only [Vec.cross, Vec.opposite]
  ring

/-- The mitre stays where it is, seen the other way. -/
theorem moved_backwards (c : Corner ℝ) (d : ℝ) : c.backwards.moved (-d) = c.moved d := by
  have hmitre : c.backwards.mitre = c.mitre.opposite := by
    have hdot : c.outgoing.opposite.dot c.incoming.opposite = c.incoming.dot c.outgoing := by
      simp only [Vec.dot, Vec.opposite]
      ring
    rw [mitre, incoming_backwards, outgoing_backwards, Vec.mitre, hdot, mitre, Vec.mitre]
    simp only [Vec.opposite]
    congr 1 <;> ring
  rw [moved, hmitre, moved]
  simp only [backwards, Point.shift, Vec.opposite, neg_mul_neg]

theorem isBevelled_backwards : c.backwards.IsBevelled (-d) ↔ c.IsBevelled d := by
  rw [IsBevelled, cross_backwards, moved_backwards, abs_neg, abs_neg]
  rfl

/-- **A corner that is run backwards** is moved the other way to the same points, in the opposite
order. -/
theorem movedTo_backwards (c : Corner ℝ) (d : ℝ) :
    c.backwards.movedTo (-d) = (c.movedTo d).reverse := by
  unfold movedTo
  by_cases hc : c.HasDirections
  · rw [if_pos (hasDirections_backwards.2 hc), if_pos hc]
    by_cases hbevelled : c.IsBevelled d
    · rw [if_pos (isBevelled_backwards.2 hbevelled), if_pos hbevelled, incoming_backwards,
        outgoing_backwards, Point.shift_left_opposite, Point.shift_left_opposite]
      rfl
    · rw [if_neg (mt isBevelled_backwards.1 hbevelled), if_neg hbevelled, moved_backwards]
      rfl
  · rw [if_neg (mt hasDirections_backwards.1 hc), if_neg hc]
    rfl

end Corner

/-- A ring of some area that is run backwards has its inside on the other side. -/
theorem leftward_reverse {r : Ring ℝ} (harea : r.signedArea ≠ 0) (d : ℝ) :
    leftward r.reverse d = -r.leftward d := by
  unfold leftward
  rw [isCounterClockwise_reverse harea]
  cases r.isCounterClockwise
  · exact (neg_neg d).symm
  · rfl

/-- **The moved corners** of a ring that is run backwards are those of the ring, run backwards. -/
theorem movedCorners_reverse {r : Ring ℝ} (harea : r.signedArea ≠ 0) (d : ℝ) :
    movedCorners r.reverse d = (r.movedCorners d).reverse := by
  unfold movedCorners
  rw [corners_reverse, leftward_reverse harea, List.reverse_flatMap, ← List.map_reverse,
    List.flatMap_map]
  exact List.flatMap_congr fun c _ => c.movedTo_backwards (r.leftward d)

/-- No two neighbours among the points of a ring are within the tolerance of each other. -/
def Apart (r : Ring ℝ) : Prop :=
  1 < r.length → ∀ e ∈ r.edges, Tolerance.geometry < e.1.gap e.2

theorem Apart.pruned_eq {r : Ring ℝ} (hr : r.Apart) : r.pruned Tolerance.geometry = r :=
  pruned_eq_self fun h e he => hr h e (r.edgesInto_perm_edges.mem_iff.1 he)

theorem Apart.reverse {r : Ring ℝ} (hr : r.Apart) : Apart r.reverse := by
  intro h e he
  rw [List.length_reverse] at h
  rw [Point.gap_comm]
  exact hr h _ (mem_edges_reverse.1 he)

/-! ## A spire -/

/-- A spire over a notch: its tip is too sharp for a mitre, and its corner at the notch turns the
other way. -/
def spire : Ring ℝ := [⟨0, 0⟩, ⟨156, 65⟩, ⟨312, 0⟩, ⟨156, 1008⟩]

/-- The spire with its edges moved inward by one. -/
def spireInset : List (Point ℝ) :=
  [⟨29 / 23, 37 / 23⟩, ⟨156, 65 + 13 / 12⟩, ⟨312 - 29 / 23, 37 / 23⟩,
    ⟨156 - 84 / 85, 1008 - 13 / 85⟩, ⟨156 + 84 / 85, 1008 - 13 / 85⟩]

theorem corners_spire : spire.corners =
    [⟨⟨156, 1008⟩, ⟨0, 0⟩, ⟨156, 65⟩⟩, ⟨⟨0, 0⟩, ⟨156, 65⟩, ⟨312, 0⟩⟩,
      ⟨⟨156, 65⟩, ⟨312, 0⟩, ⟨156, 1008⟩⟩, ⟨⟨312, 0⟩, ⟨156, 1008⟩, ⟨0, 0⟩⟩] := rfl

theorem signedArea_spire : spire.signedArea = 147108 := by
  norm_num [spire, signedArea, edges]

theorem signedArea_spire_ne_zero : spire.signedArea ≠ 0 := by
  rw [signedArea_spire]
  norm_num

theorem spire_long : ∀ c ∈ spire.corners, c.HasDirections := by
  have hlong : ∀ e ∈ spire.edges, Tolerance.geometry ≤ (Vec.between e.1 e.2).length := by
    intro e he
    simp only [spire, edges, List.cons_append, List.nil_append, List.zip_cons_cons,
      List.zip_nil_right, List.mem_cons, List.not_mem_nil, or_false] at he
    rcases he with rfl | rfl | rfl | rfl <;>
      norm_num [Vec.between, Vec.length_eq, Tolerance.geometry]
  intro c hc
  obtain ⟨hbefore, hafter⟩ := mem_edges_of_mem_corners hc
  exact ⟨hlong _ hbefore, hlong _ hafter⟩

theorem movedCorners_spire : spire.movedCorners 1 = spireInset := by
  have hleft : spire.leftward 1 = 1 := by
    rw [leftward, isCounterClockwise, signedArea_spire]
    norm_num
  have hlong := spire_long
  rw [corners_spire] at hlong
  simp only [List.forall_mem_cons] at hlong
  obtain ⟨hleftFoot, hnotch, hrightFoot, htip, -⟩ := hlong
  have hbevelled : Corner.IsBevelled ⟨⟨312, 0⟩, ⟨156, 1008⟩, ⟨0, 0⟩⟩ 1 := by
    right
    norm_num [Corner.moved, Point.gap, Point.shift, Corner.mitre, Corner.incoming,
      Corner.outgoing, Vec.between, Vec.direction, Vec.length_eq, Vec.mitre, Vec.dot,
      Tolerance.mitreLimit]
  have hlimit : √2210 / 23 ≤ 6 :=
    div_le_of_le_mul₀ (by norm_num) (by norm_num) (Real.sqrt_le_iff.2 (by norm_num))
  rw [movedCorners, hleft, corners_spire]
  simp only [List.flatMap_cons, List.flatMap_nil]
  rw [Corner.movedTo_eq_singleton (m := ⟨29 / 23, 37 / 23⟩) hleftFoot,
    Corner.movedTo_eq_singleton (m := ⟨156, 65 + 13 / 12⟩) hnotch,
    Corner.movedTo_eq_singleton (m := ⟨312 - 29 / 23, 37 / 23⟩) hrightFoot, Corner.movedTo,
    if_pos htip, if_pos hbevelled]
  · norm_num [spireInset, Point.shift, Corner.incoming, Corner.outgoing, Vec.between,
      Vec.direction, Vec.length_eq, Vec.left]
  -- the other corners turn, and their points are on both moved edges and near enough
  all_goals
    norm_num [Corner.incoming, Corner.outgoing, Vec.between, Vec.direction, Vec.length_eq,
      Vec.cross, Point.gap, Tolerance.geometry, Tolerance.mitreLimit, hlimit]

theorem spireInset_apart : Apart spireInset := by
  intro _ e he
  simp only [spireInset, edges, List.cons_append, List.nil_append, List.zip_cons_cons,
    List.zip_nil_right, List.mem_cons, List.not_mem_nil, or_false] at he
  rcases he with rfl | rfl | rfl | rfl | rfl <;>
    exact Real.lt_sqrt_of_sq_lt (by norm_num [Tolerance.geometry])

/-! ## Offsets -/

/-- **Where the vertices of an offset come from.**  Corner by corner a ring is moved to groups of
points, and those that are not dropped as repeats are its offset.  Every vertex of the offset comes
from a corner between two edges that have directions, with at most one other point; it lies on one
of the two moved edges, and not farther from the corner than the limit. -/
theorem offsetInward_on_edges {r : Ring ℝ} (hthree : 3 ≤ r.length) {d : ℝ} (hd : d ≠ 0) :
    ∃ groups s, List.Forall₂ (r.MovesCorner d) r.corners groups ∧
      r.offsetPoints d = .ok groups.flatten ∧ r.offsetInward d = .ok s ∧
      withoutRepeats Tolerance.geometry groups.flatten = .ok s ∧
      ∀ v ∈ s, ∃ c group, (c, group) ∈ r.corners.zip groups ∧ v ∈ group ∧ c.HasDirections ∧
        (group.length = 1 ∨ group.length = 2) ∧
        (r.inwardDistance c.before c.apex v = d ∨ r.inwardDistance c.apex c.after v = d) ∧
        v.gap c.apex ≤ Tolerance.mitreLimit * |d| := by
  refine ⟨r.corners.map (·.movedTo (r.leftward d)), _, ?_, ?_, offsetInward_eq_ok hthree hd,
    withoutRepeats_eq_ok _ _, fun v hv => ?_⟩
  · exact List.forall₂_map_right_iff.2 (List.forall₂_same.2 fun c _ => r.movesCorner_movedTo d c)
  · exact r.offsetPoints_eq_ok d
  · obtain ⟨c, hc, hgroup⟩ := List.mem_flatMap.1 ((pruned_sublist _ _).subset hv)
    refine ⟨c, _, ?_, hgroup, (r.movesCorner_movedTo d c).on_edge hgroup⟩
    rw [← List.map_prod_left_eq_zip]
    exact List.mem_map_of_mem hc

/-- The spire run clockwise and moved inward by one. -/
theorem spire_offset_on_edges : 3 ≤ spire.reverse.length ∧ (1 : ℝ) ≠ 0 ∧
    Ring.offsetInward spire.reverse 1 = .ok spireInset.reverse ∧
    ∀ v ∈ spireInset.reverse, ∃ c ∈ corners spire.reverse,
      (inwardDistance spire.reverse c.before c.apex v = 1 ∨
        inwardDistance spire.reverse c.apex c.after v = 1) ∧ v.gap c.apex ≤ 6 := by
  have hthree : 3 ≤ spire.reverse.length := by decide
  obtain ⟨groups, s, -, -, hs, -, hvertices⟩ := offsetInward_on_edges hthree one_ne_zero
  have hinset : Ring.offsetInward spire.reverse 1 = .ok spireInset.reverse := by
    rw [offsetInward_eq_ok hthree one_ne_zero, movedCorners_reverse signedArea_spire_ne_zero,
      movedCorners_spire, spireInset_apart.reverse.pruned_eq]
  obtain rfl := Except.ok.inj (hs.symm.trans hinset)
  refine ⟨hthree, one_ne_zero, hinset, fun v hv => ?_⟩
  obtain ⟨c, group, hc, -, -, -, hline, hnear⟩ := hvertices v hv
  refine ⟨c, (List.of_mem_zip hc).1, hline, hnear.trans ?_⟩
  norm_num [Tolerance.mitreLimit]

/-- **An offset does not depend on the way a ring runs**: for a ring of some area that is run
backwards it is the offset run backwards, provided that no two neighbours among the points it is
made of are within the tolerance of each other. -/
theorem offsetInward_reverse {r : Ring ℝ} (harea : r.signedArea ≠ 0) {d : ℝ}
    {points : List (Point ℝ)} (hpoints : r.offsetPoints d = .ok points)
    (hapart : d ≠ 0 → Apart points) :
    ∃ s, r.offsetInward d = .ok s ∧ Ring.offsetInward r.reverse d = .ok s.reverse := by
  by_cases hd : d = 0
  · subst hd
    exact ⟨r, r.offsetInward_zero, offsetInward_zero r.reverse⟩
  · obtain rfl := Except.ok.inj (hpoints.symm.trans (r.offsetPoints_eq_ok d))
    have hthree := three_le_of_signedArea_ne_zero harea
    have hthree' : 3 ≤ r.reverse.length := by rwa [List.length_reverse]
    refine ⟨_, offsetInward_eq_ok hthree hd, ?_⟩
    rw [offsetInward_eq_ok hthree' hd, movedCorners_reverse harea, (hapart hd).reverse.pruned_eq,
      (hapart hd).pruned_eq]

/-- The spire run backwards and moved inward by one. -/
theorem spire_offset_reverse : spire.signedArea ≠ 0 ∧ spire.offsetPoints 1 = .ok spireInset ∧
    ((1 : ℝ) ≠ 0 → Apart spireInset) ∧
    ∃ s, spire.offsetInward 1 = .ok s ∧ Ring.offsetInward spire.reverse 1 = .ok s.reverse := by
  have hpoints : spire.offsetPoints 1 = .ok spireInset := by
    rw [offsetPoints_eq_ok, movedCorners_spire]
  exact ⟨signedArea_spire_ne_zero, hpoints, fun _ => spireInset_apart,
    offsetInward_reverse signedArea_spire_ne_zero hpoints fun _ => spireInset_apart⟩

end Ring

end

end Housewright
