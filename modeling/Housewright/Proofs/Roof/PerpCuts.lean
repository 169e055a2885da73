import Mathlib.Tactic.NormNum.RealSqrt
import Housewright.Proofs.Exact.Mitres
import Housewright.Roof.Region

/-!
# Cuts across a ridge

A cut across a ridge is given by two far points on the line through a point of the ridge, and by
the side that a probe past that line finds to lie ahead.  In exact arithmetic the side that is kept
is the one that the cut names.

* `sideOfLine_across`: the side of a point, seen along a line across a direction, is how far the
  point lies in that direction;
* `Ridge.exists_perpCut_keeps`: what either cut keeps, told by how far a point lies along the ridge;
* `Ridge.perpCut_keeps`: what two cuts keep together are the points that stand square to a point
  of the ridge between them.
-/

namespace Housewright

noncomputable section

/-- **The side of a point**, seen along a line across a direction, tells how far the point lies in
that direction. -/
theorem sideOfLine_across (foot p : Point ℝ) (u : Vec ℝ) (h : ℝ) :
    sideOfLine p (foot.shift u.left (-h)) (foot.shift u.left h) =
      2 * h * u.dot (Vec.between foot p) := by
  simp only [sideOfLine, Point.shift, Vec.left, Vec.dot, Vec.between]
  ring

/-- A direction has the same side as the vector it is the direction of. -/
theorem Vec.length_mul_direction_dot {v : Vec ℝ} (hv : v.length ≠ 0) (w : Vec ℝ) :
    v.length * v.direction.dot w = v.dot w := by
  obtain ⟨hx, hy⟩ := Vec.length_mul_direction hv
  simp only [dot]
  linear_combination w.x * hx + w.y * hy

namespace Ridge

variable {r : Ridge ℝ}

/-- How far a point lies past the start of a ridge in its direction, times the length of the
ridge. -/
def advance (r : Ridge ℝ) (p : Point ℝ) : ℝ := (Vec.between r.start p).dot r.direction

/-- How far a point lies past a point of the ridge. -/
theorem direction_dot_between_pointAt (r : Ridge ℝ) (t : ℝ) (p : Point ℝ) :
    r.direction.dot (Vec.between (r.pointAt t) p) =
      r.advance p - t * r.direction.dot r.direction := by
  simp only [advance, pointAt, Point.shift, Vec.dot, Vec.between]
  ring

theorem unitDirection_eq_ok (hlong : 0 < r.direction.length) :
    r.unitDirection = .ok r.direction.direction := by
  have hzero : (0.0 : ℝ) = 0 := by norm_num
  have hne : (r.direction.length == 0.0) = false := by
    rw [hzero, beq_eq_false_iff_ne]
    exact hlong.ne'
  simp only [unitDirection, hne, Bool.false_eq_true, if_false]
  exact Vec.divide_length_eq_ok hlong.ne'

/-- **The probe past a cut** lies to the left of the line, so that the left side is ahead. -/
theorem perpCut_eq_ok (hlong : 0 < r.direction.length) (t : ℝ) (keep : CutSide) :
    r.perpCut t keep = .ok
      ⟨(r.pointAt t).shift r.direction.direction.left (-Tolerance.referenceExtent),
        (r.pointAt t).shift r.direction.direction.left Tolerance.referenceExtent,
        match keep with
        | .ahead => .left
        | .behind => .right⟩ := by
  have hprobe : (0.0 : ℝ) ≤ sideOfLine
      ((r.pointAt t).shift r.direction.direction Tolerance.cutProbe)
      ((r.pointAt t).shift r.direction.direction.left (-Tolerance.referenceExtent))
      ((r.pointAt t).shift r.direction.direction.left Tolerance.referenceExtent) := by
    have hunit := Vec.direction_square hlong.ne'
    have hdot : r.direction.direction.dot (Vec.between (r.pointAt t)
        ((r.pointAt t).shift r.direction.direction Tolerance.cutProbe)) = Tolerance.cutProbe := by
      simp only [Point.shift, Vec.dot, Vec.between]
      linear_combination Tolerance.cutProbe * hunit
    rw [sideOfLine_across, hdot, Tolerance.referenceExtent, Tolerance.cutProbe]
    norm_num
  unfold perpCut
  rw [unitDirection_eq_ok hlong]
  refine congrArg Except.ok ?_
  rw [if_pos hprobe]
  cases keep <;> rfl

/-- **What a cut keeps**: ahead the points that lie at least as far along the ridge as the cut, and
behind those that lie at most as far. -/
theorem exists_perpCut_keeps (hlong : 0 < r.direction.length) (t : ℝ) :
    ∃ ahead behind, r.perpCut t .ahead = .ok ahead ∧ r.perpCut t .behind = .ok behind ∧ ∀ p,
      (ahead.keeps 0 p = true ↔ t * r.direction.dot r.direction ≤ r.advance p) ∧
      (behind.keeps 0 p = true ↔ r.advance p ≤ t * r.direction.dot r.direction) := by
  refine ⟨_, _, perpCut_eq_ok hlong t .ahead, perpCut_eq_ok hlong t .behind, fun p => ?_⟩
  have hscale : 0 < 2 * (Tolerance.referenceExtent : ℝ) := by norm_num [Tolerance.referenceExtent]
  have hdot := Vec.length_mul_direction_dot hlong.ne' (Vec.between (r.pointAt t) p)
  rw [direction_dot_between_pointAt] at hdot
  simp only [HalfPlane.keeps, decide_eq_true_eq, sideOfLine_across, neg_zero]
  constructor
  · rw [mul_nonneg_iff_of_pos_left hscale, ← mul_nonneg_iff_of_pos_left hlong, hdot, sub_nonneg]
  · rw [← not_lt, mul_pos_iff_of_pos_left hscale, ← mul_pos_iff_of_pos_left hlong, hdot, sub_pos,
      not_lt]

/-- The point of a ridge that a point stands square to. -/
theorem exists_square_iff (hlong : 0 < r.direction.length) (p : Point ℝ) (s t : ℝ) :
    (∃ u ∈ Set.Icc s t, r.direction.dot (Vec.between (r.pointAt u) p) = 0) ↔
      s * r.direction.dot r.direction ≤ r.advance p ∧
        r.advance p ≤ t * r.direction.dot r.direction := by
  have hpos : 0 < r.direction.dot r.direction := by
    have hsquare := r.direction.length_mul_self
    rw [← Vec.dot] at hsquare
    rw [← hsquare]
    positivity
  simp only [direction_dot_between_pointAt, sub_eq_zero]
  constructor
  · rintro ⟨u, ⟨hs, ht⟩, hu⟩
    rw [hu]
    exact ⟨mul_le_mul_of_nonneg_right hs hpos.le, mul_le_mul_of_nonneg_right ht hpos.le⟩
  · rintro ⟨hs, ht⟩
    exact ⟨r.advance p / r.direction.dot r.direction,
      ⟨(le_div_iff₀ hpos).2 hs, (div_le_iff₀ hpos).2 ht⟩, (div_mul_cancel₀ _ hpos.ne').symm⟩

/-- **A cut across a ridge keeps the side that it names.**  Ahead of the cut at a parameter are the
points that lie at least that far along the ridge, behind it those that lie at most that far; so
what is ahead of one cut and behind another one are the points that stand square to a point of the
ridge between them. -/
theorem perpCut_keeps (hlong : 0 < r.direction.length) :
    (∀ t, ∃ ahead behind, r.perpCut t .ahead = .ok ahead ∧ r.perpCut t .behind = .ok behind ∧
      ∀ p, (ahead.keeps 0 p = true ↔
          t * r.direction.dot r.direction ≤ (Vec.between r.start p).dot r.direction) ∧
        (behind.keeps 0 p = true ↔
          (Vec.between r.start p).dot r.direction ≤ t * r.direction.dot r.direction)) ∧
    ∀ t₀ t₁, ∃ ahead behind, r.perpCut t₀ .ahead = .ok ahead ∧
      r.perpCut t₁ .behind = .ok behind ∧
      ∀ p, (ahead.keeps 0 p = true ∧ behind.keeps 0 p = true ↔
        ∃ t ∈ Set.Icc t₀ t₁, r.direction.dot (Vec.between (r.pointAt t) p) = 0) := by
  refine ⟨exists_perpCut_keeps hlong, fun t₀ t₁ => ?_⟩
  obtain ⟨ahead, _, hahead, -, hkeeps⟩ := exists_perpCut_keeps hlong t₀
  obtain ⟨_, behind, -, hbehind, hkeeps'⟩ := exists_perpCut_keeps hlong t₁
  refine ⟨ahead, behind, hahead, hbehind, fun p => ?_⟩
  rw [exists_square_iff hlong, (hkeeps p).1, (hkeeps' p).2]

/-- A ridge that runs down to the left. -/
def slanted : Ridge ℝ := ⟨"slanted", ⟨4, 4⟩, ⟨1, 0⟩, 3, false, false⟩

/-- The cuts across the slanted ridge at a quarter and at its end. -/
theorem slanted_perpCut_keeps : 0 < slanted.direction.length ∧
    ∃ ahead behind, slanted.perpCut (1 / 4) .ahead = .ok ahead ∧
      slanted.perpCut 1 .behind = .ok behind ∧
      (ahead.keeps 0 ⟨3, 1⟩ = true ∧ behind.keeps 0 ⟨3, 1⟩ = true) ∧
      ¬ (ahead.keeps 0 ⟨4, 4⟩ = true ∧ behind.keeps 0 ⟨4, 4⟩ = true) := by
  have hlong : 0 < slanted.direction.length := by
    norm_num [slanted, direction, Vec.between, Vec.length_eq]
  obtain ⟨ahead, behind, hahead, hbehind, hkeeps⟩ := (perpCut_keeps hlong).2 (1 / 4) 1
  refine ⟨hlong, ahead, behind, hahead, hbehind, (hkeeps _).2 ⟨3 / 5, ?_⟩, fun hboth => ?_⟩
  · norm_num [slanted, direction, pointAt, Point.shift, Vec.between, Vec.dot]
  · obtain ⟨t, ⟨ht, -⟩, hsquare⟩ := (hkeeps _).1 hboth
    norm_num [slanted, direction, pointAt, Point.shift, Vec.between, Vec.dot] at hsquare
    linarith

end Ridge

end

end Housewright
