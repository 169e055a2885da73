import Mathlib.Data.Real.Sign
import Housewright.Geometry.Offset
import Housewright.Proofs.Construction.ExactPlacement

/-!
# Mitred offsets

When the edges of a ring are moved to one side, its corners move to mitres.

* `Vec.mitre` is how far a corner moves when its edges move by one; `Corner.movedTo` are the points
  that a corner is moved to, its mitre or, if that is too long or its edges are nearly parallel, the
  ends of both moved edges;
* `Ring.offsetPoints_eq_ok`, `Ring.offsetInward_eq_ok`: these are the points of the offset;
* `signedArea_moved_sub`: the areas of a ring moved by a distance to either side differ by twice
  the distance times the perimeter, since every edge sweeps its length and what the corners sweep
  cancels around the ring;
* `Ring.signedArea_offset_sub` says so of the rings that are computed.
-/

namespace Housewright

noncomputable section

/-! ## Mitres -/

namespace Vec

/-- The product of two vectors as a number. -/
def dot (u v : Vec ℝ) : ℝ := u.x * v.x + u.y * v.y

/-- Where a corner moves when its edges, which have the directions `e` and `f`, move to the left
by one. -/
def mitre (e f : Vec ℝ) : Vec ℝ := ⟨-(e.y + f.y) / (1 + e.dot f), (e.x + f.x) / (1 + e.dot f)⟩

variable {e f : Vec ℝ}

theorem length_mul_cross_direction {u v : Vec ℝ} (hu : u.length ≠ 0) :
    u.length * u.direction.cross v = u.cross v := by
  obtain ⟨hx, hy⟩ := length_mul_direction hu
  simp only [cross]
  linear_combination v.y * hx - v.x * hy

/-- A mitre is on the moved first edge. -/
theorem cross_mitre_first (he : e.dot e = 1) (hef : 1 + e.dot f ≠ 0) :
    e.cross (e.mitre f) = 1 := by
  simp only [cross, mitre]
  field_simp
  simp only [dot] at he ⊢
  linear_combination he

/-- A mitre is on the moved second edge. -/
theorem cross_mitre_second (hf : f.dot f = 1) (hef : 1 + e.dot f ≠ 0) :
    f.cross (e.mitre f) = 1 := by
  simp only [cross, mitre]
  field_simp
  simp only [dot] at hf ⊢
  linear_combination hf

/-- Between edges that run straight on, the mitre is the normal. -/
theorem mitre_self (he : e.dot e = 1) : e.mitre e = e.left := by
  rw [mitre, left, he]
  congr 1 <;> ring

/-- Directions that cross do not lead back. -/
theorem one_add_dot_ne_zero (he : e.dot e = 1) (hf : f.dot f = 1) (hcross : e.cross f ≠ 0) :
    1 + e.dot f ≠ 0 := by
  intro hback
  have hsquare : e.cross f * e.cross f = 0 := by
    simp only [cross, dot] at *
    linear_combination (f.x * f.x + f.y * f.y) * he + hf + (1 - (e.x * f.x + e.y * f.y)) * hback
  exact hcross (mul_self_eq_zero.1 hsquare)

end Vec

/-- Moving to the right is moving to the left by the opposite distance. -/
theorem Point.shift_right (p : Point ℝ) (v : Vec ℝ) (d : ℝ) :
    p.shift v.right d = p.shift v.left (-d) := by
  simp only [shift, Vec.right, Vec.left]
  congr 1 <;> ring

/-- **Moved edges meet** at the mitre. -/
theorem meetingPoint_eq_ok (p : Point ℝ) {e f : Vec ℝ} (d : ℝ) (he : e.dot e = 1)
    (hf : f.dot f = 1) (hcross : Tolerance.geometry ≤ |e.cross f|) :
    meetingPoint (p.shift e.left d) e (p.shift f.left d) f = .ok (p.shift (e.mitre f) d) := by
  have hne : e.cross f ≠ 0 := abs_pos.1 (HalfPlane.geometry_pos.trans_le hcross)
  have hback := Vec.one_add_dot_ne_zero he hf hne
  have habs : ¬ Scalar.abs (e.cross f) < Tolerance.geometry := not_lt.2 hcross
  have hparameter : ((Vec.between (p.shift e.left d) (p.shift f.left d)).x * f.y -
      (Vec.between (p.shift e.left d) (p.shift f.left d)).y * f.x) / e.cross f =
      -(d * e.cross f) / (1 + e.dot f) := by
    rw [div_eq_div_iff hne hback]
    simp only [Vec.dot] at he hf
    simp only [Vec.between, Point.shift, Vec.left, Vec.cross, Vec.dot]
    linear_combination d * (f.x * f.x + f.y * f.y) * he - d * (e.x * f.x + e.y * f.y) * hf
  unfold meetingPoint
  simp only
  rw [if_neg habs, divide_eq_ok _ hne, hparameter]
  refine congrArg Except.ok (Point.eq_of_coordinates ?_ ?_)
  · simp only [Point.shift, Vec.left, Vec.mitre]
    field_simp
    simp only [Vec.dot, Vec.cross] at he ⊢
    linear_combination -d * f.y * he
  · simp only [Point.shift, Vec.left, Vec.mitre]
    field_simp
    simp only [Vec.dot, Vec.cross] at he ⊢
    linear_combination d * f.x * he

/-- How far a point is moved. -/
theorem Point.gap_shift (p : Point ℝ) (v : Vec ℝ) (d : ℝ) :
    (p.shift v d).gap p = v.length * |d| := by
  rw [gap, Vec.length_eq, ← Real.sqrt_sq_eq_abs, ← Real.sqrt_mul (by positivity)]
  congr 1
  simp only [shift]
  ring

/-! ## Corners -/

theorem Vec.unit_eq_ok {v : Vec ℝ} (hv : Tolerance.geometry ≤ v.length) :
    v.unit = .ok v.direction := by
  rw [unit, if_neg (not_lt.2 hv), divide_length_eq_ok (HalfPlane.geometry_pos.trans_le hv).ne']

theorem Vec.unit_eq_zero {v : Vec ℝ} (hv : v.length < Tolerance.geometry) :
    v.unit = .ok Vec.zero := by
  rw [unit, if_pos hv]

/-- Whether a vector has a direction is always settled. -/
theorem Vec.exists_unit_eq_ok (v : Vec ℝ) : ∃ e, v.unit = .ok e := by
  obtain hv | hv := lt_or_ge v.length Tolerance.geometry
  · exact ⟨_, unit_eq_zero hv⟩
  · exact ⟨_, unit_eq_ok hv⟩

theorem Vec.beq_zero_self : ((Vec.zero : Vec ℝ) == Vec.zero) = true := by
  show ((0.0 : ℝ) == 0.0 && (0.0 : ℝ) == 0.0) = true
  rw [beq_self_eq_true, Bool.and_self]

/-- A unit vector is not zero. -/
theorem Vec.beq_zero_of_unit {v : Vec ℝ} (hv : v.dot v = 1) : (v == Vec.zero) = false := by
  have hzero : (0.0 : ℝ) = 0 := by norm_num
  show (v.x == 0.0 && v.y == 0.0) = false
  rw [hzero, Bool.and_eq_false_iff, beq_eq_false_iff_ne, beq_eq_false_iff_ne]
  by_contra hboth
  push Not at hboth
  rw [dot, hboth.1, hboth.2] at hv
  norm_num at hv

namespace Ring

namespace Corner

/-- The direction of the edge into a corner. -/
def incoming (c : Corner ℝ) : Vec ℝ := (Vec.between c.before c.apex).direction

/-- The direction of the edge out of a corner. -/
def outgoing (c : Corner ℝ) : Vec ℝ := (Vec.between c.apex c.after).direction

/-- Where a corner moves when its edges move to the left by one. -/
def mitre (c : Corner ℝ) : Vec ℝ := c.incoming.mitre c.outgoing

/-- Where a corner is moved when its edges move to the left by a distance. -/
def moved (c : Corner ℝ) (d : ℝ) : Point ℝ := c.apex.shift c.mitre d

/-- Both edges at a corner are long enough to have directions. -/
structure HasDirections (c : Corner ℝ) : Prop where
  before : Tolerance.geometry ≤ (Vec.between c.before c.apex).length
  after : Tolerance.geometry ≤ (Vec.between c.apex c.after).length

/-- The edges at a corner are nearly parallel, or its mitre runs too far away. -/
def IsBevelled (c : Corner ℝ) (d : ℝ) : Prop :=
  |c.incoming.cross c.outgoing| < Tolerance.geometry ∨
    Tolerance.mitreLimit * |d| < (c.moved d).gap c.apex

open Classical in
/-- The points that a corner is moved to when its edges move to the left by a distance. -/
def movedTo (c : Corner ℝ) (d : ℝ) : List (Point ℝ) :=
  if c.HasDirections then
    if c.IsBevelled d then [c.apex.shift c.incoming.left d, c.apex.shift c.outgoing.left d]
    else [c.moved d]
  else []

/-- The edges at a corner run exactly straight on, or turn and have a mitre within the limit. -/
def Joins (c : Corner ℝ) : Prop :=
  c.incoming = c.outgoing ∨ Tolerance.geometry ≤ |c.incoming.cross c.outgoing| ∧
    c.mitre.length ≤ Tolerance.mitreLimit

variable {c : Corner ℝ}

theorem incoming_dot_self (hbefore : Tolerance.geometry ≤ (Vec.between c.before c.apex).length) :
    c.incoming.dot c.incoming = 1 :=
  Vec.direction_square (HalfPlane.geometry_pos.trans_le hbefore).ne'

theorem outgoing_dot_self (hafter : Tolerance.geometry ≤ (Vec.between c.apex c.after).length) :
    c.outgoing.dot c.outgoing = 1 :=
  Vec.direction_square (HalfPlane.geometry_pos.trans_le hafter).ne'

/-- Edges that join do not lead back. -/
theorem Joins.one_add_dot_ne_zero (hjoins : c.Joins) (he : c.incoming.dot c.incoming = 1)
    (hf : c.outgoing.dot c.outgoing = 1) : 1 + c.incoming.dot c.outgoing ≠ 0 := by
  obtain hstraight | ⟨hcross, -⟩ := hjoins
  · rw [← hstraight, he]
    norm_num
  · exact Vec.one_add_dot_ne_zero he hf (abs_pos.1 (HalfPlane.geometry_pos.trans_le hcross))

/-- Both edges at a corner move to the mitre. -/
theorem Joins.cross_mitre (hjoins : c.Joins)
    (hbefore : Tolerance.geometry ≤ (Vec.between c.before c.apex).length)
    (hafter : Tolerance.geometry ≤ (Vec.between c.apex c.after).length) :
    (Vec.between c.before c.apex).cross c.mitre = (Vec.between c.before c.apex).length ∧
      (Vec.between c.apex c.after).cross c.mitre = (Vec.between c.apex c.after).length := by
  have he := incoming_dot_self hbefore
  have hf := outgoing_dot_self hafter
  have hback := hjoins.one_add_dot_ne_zero he hf
  constructor
  · rw [← Vec.length_mul_cross_direction (HalfPlane.geometry_pos.trans_le hbefore).ne']
    exact (congrArg _ (Vec.cross_mitre_first he hback)).trans (mul_one _)
  · rw [← Vec.length_mul_cross_direction (HalfPlane.geometry_pos.trans_le hafter).ne']
    exact (congrArg _ (Vec.cross_mitre_second hf hback)).trans (mul_one _)

end Corner

/-- **A corner is moved** to its points. -/
theorem offsetCorner_left (c : Corner ℝ) (d : ℝ) :
    offsetCorner Vec.left d c = .ok (c.movedTo d) := by
  unfold offsetCorner Corner.movedTo
  by_cases hc : c.HasDirections
  · have he := Corner.incoming_dot_self hc.before
    have hf := Corner.outgoing_dot_self hc.after
    simp only [Vec.unit_eq_ok hc.before, Vec.unit_eq_ok hc.after]
    rw [← Corner.incoming, ← Corner.outgoing, if_pos hc]
    show (if (c.incoming == Vec.zero || c.outgoing == Vec.zero) = true then _ else _) = _
    rw [Vec.beq_zero_of_unit he, Vec.beq_zero_of_unit hf]
    by_cases hparallel : |c.incoming.cross c.outgoing| < Tolerance.geometry
    · have habs : Scalar.abs (c.incoming.cross c.outgoing) < Tolerance.geometry := hparallel
      have hbevelled : c.IsBevelled d := .inl hparallel
      simp only [Bool.or_self, Bool.false_eq_true, if_false, if_pos habs, if_pos hbevelled]
      rfl
    · have habs : ¬ Scalar.abs (c.incoming.cross c.outgoing) < Tolerance.geometry := hparallel
      simp only [Bool.or_self, Bool.false_eq_true, if_false, if_neg habs,
        meetingPoint_eq_ok c.apex d he hf (not_lt.1 hparallel)]
      show (if Tolerance.mitreLimit * Scalar.abs d < (c.moved d).gap c.apex then _ else _) = _
      by_cases hfar : Tolerance.mitreLimit * |d| < (c.moved d).gap c.apex
      · have hbevelled : c.IsBevelled d := .inr hfar
        rw [if_pos hbevelled]
        exact if_pos hfar
      · have hmitred : ¬ c.IsBevelled d := not_or.2 ⟨hparallel, hfar⟩
        rw [if_neg hmitred]
        exact if_neg hfar
  · rw [if_neg hc]
    obtain hbefore | hbefore := lt_or_ge (Vec.between c.before c.apex).length Tolerance.geometry
    · obtain ⟨f, hf⟩ := (Vec.between c.apex c.after).exists_unit_eq_ok
      rw [Vec.unit_eq_zero hbefore, hf]
      exact if_pos (by rw [Vec.beq_zero_self, Bool.true_or])
    · have hafter : (Vec.between c.apex c.after).length < Tolerance.geometry :=
        not_le.1 fun hafter => hc ⟨hbefore, hafter⟩
      rw [Vec.unit_eq_ok hbefore, Vec.unit_eq_zero hafter]
      exact if_pos (by rw [Vec.beq_zero_self, Bool.or_true])

/-- **A corner whose edges join** is moved to its mitre, once or twice. -/
theorem Corner.Joins.exists_movedTo {c : Corner ℝ} (hjoins : c.Joins) (hc : c.HasDirections)
    (d : ℝ) : ∃ again, c.movedTo d = List.replicate (again + 1) (c.moved d) := by
  unfold movedTo
  rw [if_pos hc]
  obtain hstraight | ⟨hcross, hlimit⟩ := hjoins
  · have hbevelled : c.IsBevelled d := by
      left
      rw [← hstraight, Vec.cross, mul_comm, sub_self, abs_zero]
      exact HalfPlane.geometry_pos
    rw [if_pos hbevelled, moved, mitre, ← hstraight, Vec.mitre_self (incoming_dot_self hc.before)]
    exact ⟨1, rfl⟩
  · have hmitred : ¬ c.IsBevelled d := by
      refine not_or.2 ⟨not_lt.2 hcross, ?_⟩
      rw [moved, Point.gap_shift]
      exact not_lt.2 (mul_le_mul_of_nonneg_right hlimit (abs_nonneg d))
    rw [if_neg hmitred]
    exact ⟨0, rfl⟩

/-- A corner is moved to the right as it is moved to the left by the opposite distance. -/
theorem offsetCorner_right (c : Corner ℝ) (d : ℝ) :
    offsetCorner Vec.right d c = offsetCorner Vec.left (-d) c := by
  have habs : Scalar.abs (-d) = Scalar.abs d := abs_neg d
  simp only [offsetCorner, Point.shift_right, habs]

/-- The distance to the left that an inward distance means. -/
def leftward (r : Ring ℝ) (d : ℝ) : ℝ := if r.isCounterClockwise then d else -d

/-- The points that the corners of a ring are moved to when its edges move inward by a distance. -/
def movedCorners (r : Ring ℝ) (d : ℝ) : List (Point ℝ) :=
  r.corners.flatMap (·.movedTo (r.leftward d))

/-- **The moved corners** of a ring. -/
theorem offsetPoints_eq_ok (r : Ring ℝ) (d : ℝ) : r.offsetPoints d = .ok (r.movedCorners d) := by
  refine bind_eq_ok.2 ⟨_, mapM_eq_ok_map fun c _ => ?_, rfl⟩
  unfold leftward
  split_ifs
  · exact offsetCorner_left c d
  · exact (offsetCorner_right c d).trans (offsetCorner_left c (-d))

/-- **The offset** of a ring are its moved corners that are far enough apart. -/
theorem offsetInward_eq_ok {r : Ring ℝ} (hthree : 3 ≤ r.length) {d : ℝ} (hd : d ≠ 0) :
    r.offsetInward d = .ok (pruned Tolerance.geometry (r.movedCorners d)) := by
  have hmoves : (decide (r.length < 3) || d == 0.0) = false := by
    have hzero : (0.0 : ℝ) = 0 := by norm_num
    rw [hzero, decide_eq_false (by omega), Bool.false_or, beq_eq_false_iff_ne]
    exact hd
  unfold offsetInward
  rw [hmoves, offsetPoints_eq_ok]
  exact withoutRepeats_eq_ok _ _

/-- A ring that is moved by nothing stays as it is. -/
theorem offsetInward_zero (r : Ring ℝ) : r.offsetInward 0 = .ok r := by
  have hzero : (0.0 : ℝ) = 0 := by norm_num
  rw [offsetInward, hzero, beq_self_eq_true, Bool.or_true]
  rfl

/-- The moved corners of a ring whose edges join are their mitres, once or twice. -/
theorem exists_movedCorners {r : Ring ℝ} (hjoins : ∀ c ∈ r.corners, c.Joins)
    (hlong : ∀ e ∈ r.edges, Tolerance.geometry ≤ (Vec.between e.1 e.2).length) (d : ℝ) :
    ∃ again : Corner ℝ → ℕ, r.movedCorners d =
      r.corners.flatMap fun c => List.replicate (again c + 1) (c.moved (r.leftward d)) := by
  have hcorner (c : Corner ℝ) : ∃ again, c ∈ r.corners →
      c.movedTo (r.leftward d) = List.replicate (again + 1) (c.moved (r.leftward d)) := by
    by_cases hc : c ∈ r.corners
    · obtain ⟨hbefore, hafter⟩ := mem_edges_of_mem_corners hc
      obtain ⟨again, hagain⟩ :=
        (hjoins c hc).exists_movedTo ⟨hlong _ hbefore, hlong _ hafter⟩ (r.leftward d)
      exact ⟨again, fun _ => hagain⟩
    · exact ⟨0, fun hc' => absurd hc' hc⟩
  choose again hagain using hcorner
  exact ⟨again, List.flatMap_congr hagain⟩

/-! ## Areas -/

theorem sweep_replicate (o p : Point ℝ) (k : ℕ) (rest : List (Point ℝ)) :
    sweep o p (List.replicate k p ++ rest) = sweep o p rest := by
  induction k with
  | zero => rfl
  | succ k ih => rw [List.replicate_succ, List.cons_append, sweep, ih, Point.spanned_self, zero_add]

/-- Vertices that are repeated do not change the area. -/
theorem signedArea_flatMap_replicate {β : Type} (items : List β) (v : β → Point ℝ) (again : β → ℕ) :
    signedArea (items.flatMap fun x => List.replicate (again x + 1) (v x)) =
      signedArea (items.map v) := by
  have hsweep (o s : Point ℝ) (items : List β) :
      sweep o s (items.flatMap fun x => List.replicate (again x + 1) (v x)) =
        sweep o s (items.map v) := by
    induction items generalizing s with
    | nil => rfl
    | cons x rest ih =>
      rw [List.flatMap_cons, List.replicate_succ, List.cons_append, sweep, sweep_replicate, ih]
      rfl
  obtain rfl | ⟨init, last, rfl⟩ := items.eq_nil_or_concat'
  · rfl
  · have hlast : ((init ++ [last]).flatMap fun x => List.replicate (again x + 1) (v x)).getLast? =
        some (v last) := by
      simp [List.flatMap_append, List.replicate_succ']
    have hlast' : ((init ++ [last]).map v).getLast? = some (v last) := by simp
    rw [signedArea_eq_sweep ⟨0, 0⟩ hlast, signedArea_eq_sweep ⟨0, 0⟩ hlast', hsweep]

/-- **Moved to either side**, a ring differs in area by twice the distance times what its edges
span together, if every vertex moves to where its edges move. -/
theorem signedArea_moved_sub {p : ℕ → Point ℝ} {m : ℕ → Vec ℝ} {length : ℕ → ℝ} {n : ℕ}
    (hp : p n = p 0) (hm : m n = m 0)
    (hstart : ∀ i < n, (Vec.between (p i) (p (i + 1))).cross (m i) = length i)
    (hend : ∀ i < n, (Vec.between (p i) (p (i + 1))).cross (m (i + 1)) = length i) (d : ℝ) :
    signedArea ((List.range n).map fun i => (p i).shift (m i) (-d)) -
      signedArea ((List.range n).map fun i => (p i).shift (m i) d) =
      2 * d * ∑ i ∈ Finset.range n, length i := by
  have hclosed (d : ℝ) : (p n).shift (m n) d = (p 0).shift (m 0) d := by rw [hp, hm]
  -- what a vertex sweeps on its way out, seen from the origin
  have hedge (i : ℕ) (hi : i < n) :
      Point.spanned ⟨0, 0⟩ ((p i).shift (m i) (-d)) ((p (i + 1)).shift (m (i + 1)) (-d)) -
      Point.spanned ⟨0, 0⟩ ((p i).shift (m i) d) ((p (i + 1)).shift (m (i + 1)) d) =
      2 * d * (2 * length i) -
        2 * d * (((p (i + 1)).x * (m (i + 1)).y - (p (i + 1)).y * (m (i + 1)).x) -
          ((p i).x * (m i).y - (p i).y * (m i).x)) := by
    have hs := hstart i hi
    have he := hend i hi
    simp only [Vec.between, Vec.cross] at hs he
    simp only [Point.spanned, Point.shift]
    linear_combination 2 * d * hs + 2 * d * he
  rw [signedArea_map_range (hclosed (-d)) ⟨0, 0⟩, signedArea_map_range (hclosed d) ⟨0, 0⟩,
    ← sub_div, ← Finset.sum_sub_distrib,
    Finset.sum_congr rfl fun i hi => hedge i (Finset.mem_range.1 hi), Finset.sum_sub_distrib,
    ← Finset.mul_sum, ← Finset.mul_sum, ← Finset.mul_sum]
  rw [Finset.sum_range_sub (fun i => (p i).x * (m i).y - (p i).y * (m i).x), hp, hm]
  ring

/-- How long the edges of a ring are together. -/
def perimeter (r : Ring ℝ) : ℝ := (r.edges.map fun e => (Vec.between e.1 e.2).length).sum

/-- The corners of a ring in order, again and again. -/
def cornerAt (r : Ring ℝ) (i : ℕ) : Corner ℝ :=
  ⟨r.around (i + (r.length - 1)), r.around i, r.around (i + 1)⟩

theorem cornerAt_mem_corners {r : Ring ℝ} (hr : 0 < r.length) (i : ℕ) :
    r.cornerAt i ∈ r.corners := by
  have hmod : r.cornerAt (i % r.length) = r.cornerAt i := by
    simp only [cornerAt, around, Nat.mod_add_mod, Nat.mod_mod]
  rw [corners_eq_map, ← hmod]
  exact List.mem_map.2 ⟨i % r.length, List.mem_range.2 (Nat.mod_lt i hr), rfl⟩

/-- How far the corner with an index moves when its edges move by one. -/
def mitreAt (r : Ring ℝ) (i : ℕ) : Vec ℝ := (r.cornerAt i).mitre

/-- Both edges at a corner move to the mitre. -/
theorem cross_mitreAt {r : Ring ℝ} (hjoins : ∀ c ∈ r.corners, c.Joins)
    (hlong : ∀ e ∈ r.edges, Tolerance.geometry ≤ (Vec.between e.1 e.2).length) (hr : 0 < r.length)
    (i : ℕ) :
    (Vec.between (r.around (i + (r.length - 1))) (r.around i)).cross (r.mitreAt i) =
        (Vec.between (r.around (i + (r.length - 1))) (r.around i)).length ∧
      (Vec.between (r.around i) (r.around (i + 1))).cross (r.mitreAt i) =
        (Vec.between (r.around i) (r.around (i + 1))).length := by
  have hmem := cornerAt_mem_corners hr i
  obtain ⟨hbefore, hafter⟩ := mem_edges_of_mem_corners hmem
  exact (hjoins _ hmem).cross_mitre (hlong _ hbefore) (hlong _ hafter)

/-- **The areas of the moved corners** on either side. -/
theorem signedArea_map_moved_sub {r : Ring ℝ} (hjoins : ∀ c ∈ r.corners, c.Joins)
    (hlong : ∀ e ∈ r.edges, Tolerance.geometry ≤ (Vec.between e.1 e.2).length) (hr : 0 < r.length)
    (d : ℝ) :
    signedArea (r.corners.map fun c => c.moved (-d)) -
      signedArea (r.corners.map fun c => c.moved d) = 2 * d * r.perimeter := by
  have hmoved (d : ℝ) : (r.corners.map fun c => c.moved d) =
      (List.range r.length).map fun i => (r.around i).shift (r.mitreAt i) d := by
    rw [corners_eq_map, List.map_map]
    rfl
  have hperiod (k : ℕ) : r.around (r.length + k) = r.around k := by
    rw [Nat.add_comm, around_add_length]
  have hmitre : r.mitreAt r.length = r.mitreAt 0 := by
    simp only [mitreAt, cornerAt, hperiod, Nat.zero_add]
    rw [← hperiod 0, Nat.add_zero]
  rw [hmoved, hmoved, perimeter, edges_eq_map, List.map_map]
  refine signedArea_moved_sub (hperiod 0) hmitre (fun i _ => ?_) (fun i _ => ?_) d
  · exact (cross_mitreAt hjoins hlong hr i).2
  · have hend := (cross_mitreAt hjoins hlong hr (i + 1)).1
    have hlap : i + 1 + (r.length - 1) = i + r.length := by omega
    rw [hlap, around_add_length] at hend
    exact hend

/-- When the moved corners of a ring are joined, the tolerance drops no more points than would be
dropped without one, which are repeated points. -/
def OffsetDropsOnlyRepeats (r : Ring ℝ) (d : ℝ) : Prop :=
  ∀ points, r.offsetPoints d = .ok points →
    Ring.withoutRepeats Tolerance.geometry points = Ring.withoutRepeats 0 points

/-- No points are dropped but repeated ones if the corners are moved to points that are equal or
farther apart than the tolerance. -/
theorem offsetDropsOnlyRepeats_of_apart {r : Ring ℝ} (hjoins : ∀ c ∈ r.corners, c.Joins)
    (hlong : ∀ e ∈ r.edges, Tolerance.geometry ≤ (Vec.between e.1 e.2).length) {d : ℝ}
    (hapart : ∀ c ∈ r.corners, ∀ c' ∈ r.corners, c.moved (r.leftward d) = c'.moved (r.leftward d) ∨
      Tolerance.geometry < (c.moved (r.leftward d)).gap (c'.moved (r.leftward d))) :
    r.OffsetDropsOnlyRepeats d := by
  intro points hpoints
  obtain ⟨again, hagain⟩ := exists_movedCorners hjoins hlong d
  obtain rfl := Except.ok.inj (hpoints.symm.trans (r.offsetPoints_eq_ok d))
  rw [hagain, withoutRepeats_eq_ok, withoutRepeats_eq_ok,
    pruned_eq_pruned_zero HalfPlane.geometry_pos.le fun e he => ?_]
  obtain ⟨hp, hq⟩ := mem_of_mem_edgesInto he
  obtain ⟨c, hc, hp⟩ := List.mem_flatMap.1 hp
  obtain ⟨c', hc', hq⟩ := List.mem_flatMap.1 hq
  rw [List.eq_of_mem_replicate hp, List.eq_of_mem_replicate hq]
  exact hapart c hc c' hc'

/-- A ring of some area has three vertices. -/
theorem three_le_of_signedArea_ne_zero {r : Ring ℝ} (harea : r.signedArea ≠ 0) : 3 ≤ r.length := by
  by_contra hshort
  match r, not_le.1 hshort with
  | [], _ => simp at harea
  | [a], _ => exact harea (by simp [signedArea_cons a, sweep])
  | [a, b], _ => exact harea (by simp [signedArea_cons a, sweep])

/-- A ring that is moved has the area of its moved corners. -/
theorem exists_offsetInward {r : Ring ℝ} (hthree : 3 ≤ r.length) (hjoins : ∀ c ∈ r.corners, c.Joins)
    (hlong : ∀ e ∈ r.edges, Tolerance.geometry ≤ (Vec.between e.1 e.2).length) {d : ℝ} (hd : d ≠ 0)
    (hclean : r.OffsetDropsOnlyRepeats d) :
    ∃ s, r.offsetInward d = .ok s ∧
      s.signedArea = signedArea (r.corners.map fun c => c.moved (r.leftward d)) := by
  obtain ⟨again, hagain⟩ := exists_movedCorners hjoins hlong d
  have hkept := hclean _ (r.offsetPoints_eq_ok d)
  rw [withoutRepeats_eq_ok, withoutRepeats_eq_ok, Except.ok.injEq] at hkept
  refine ⟨_, offsetInward_eq_ok hthree hd, ?_⟩
  rw [hkept, signedArea_pruned_zero, hagain, signedArea_flatMap_replicate]

/-- **A ring moved to either side.**  If the corners of a ring of some area run straight on or have
mitres within the limit, no edge is shorter than a millionth, and no points are dropped but repeated
ones, then the areas of the ring moved outward and inward by a distance differ by twice the distance
times the perimeter. -/
theorem signedArea_offset_sub {r : Ring ℝ} (harea : r.signedArea ≠ 0)
    (hjoins : ∀ c ∈ r.corners, c.Joins)
    (hlong : ∀ e ∈ r.edges, Tolerance.geometry ≤ (Vec.between e.1 e.2).length) {d : ℝ}
    (hinward : r.OffsetDropsOnlyRepeats d) (houtward : r.OffsetDropsOnlyRepeats (-d)) :
    ∃ outer inner, r.offsetInward (-d) = .ok outer ∧ r.offsetInward d = .ok inner ∧
      Real.sign r.signedArea * (outer.signedArea - inner.signedArea) = 2 * d * r.perimeter := by
  have hthree := three_le_of_signedArea_ne_zero harea
  by_cases hd : d = 0
  · subst hd
    refine ⟨r, r, by rw [neg_zero, offsetInward_zero], r.offsetInward_zero, ?_⟩
    ring
  · obtain ⟨outer, houter, houterArea⟩ :=
      exists_offsetInward hthree hjoins hlong (neg_ne_zero.2 hd) houtward
    obtain ⟨inner, hinner, hinnerArea⟩ := exists_offsetInward hthree hjoins hlong hd hinward
    refine ⟨outer, inner, houter, hinner, ?_⟩
    have hsub := signedArea_map_moved_sub hjoins hlong (by omega) d
    have hzero : (0.0 : ℝ) = 0 := by norm_num
    rw [houterArea, hinnerArea]
    unfold leftward isCounterClockwise
    rw [hzero]
    obtain hneg | hpos := harea.lt_or_gt
    · rw [Real.sign_of_neg hneg]
      simp only [not_lt.2 hneg.le, decide_false, Bool.false_eq_true, if_false, neg_neg]
      linarith
    · rw [Real.sign_of_pos hpos]
      simp only [hpos, decide_true, if_true]
      linarith

end Ring

end

end Housewright
