import Housewright.Proofs.Exact.RayParity

/-!
# The distance to a segment

Whether a point lies on an edge goes by its distance to the edge.  With real coordinates this is the
least of the distances to the points between the ends, for every segment whose ends count as two
points.

* `Point.segment`: the points of a segment;
* `footOnSegment_mem_segment`, `gap_footOnSegment_le_of_mem`: the foot is one of them, and none is
  nearer;
* `distanceToSegment_isLeast`: the distance to a segment is the one to the nearest of its points,
  and the same when its ends are exchanged.
-/

namespace Housewright

noncomputable section

/-- The points of the segment from `a` to `b`, its ends included. -/
def Point.segment (a b : Point ℝ) : Set (Point ℝ) :=
  {q | ∃ t, 0 ≤ t ∧ t ≤ 1 ∧ q = a.along b t}

variable {p a b : Point ℝ}

theorem footOnSegment_mem_segment (p a b : Point ℝ) : footOnSegment p a b ∈ Point.segment a b :=
  footOnSegment_eq_along p a b

/-- No point of a segment is nearer than the foot. -/
theorem gap_footOnSegment_le_of_mem (hlong : Tolerance.geometry ≤ (Vec.between a b).length)
    {q : Point ℝ} (hq : q ∈ Point.segment a b) : p.gap (footOnSegment p a b) ≤ p.gap q := by
  obtain ⟨t, h0, h1, rfl⟩ := hq
  exact gap_footOnSegment_le hlong h0 h1

/-- **The distance to a segment** whose ends are at least a millionth apart is at most the distance
to each of its points, and the distance to one of them.  It does not change when the ends are
exchanged. -/
theorem distanceToSegment_isLeast (p a b : Point ℝ)
    (hlong : Tolerance.geometry ≤ (Vec.between a b).length) :
    ∃ d, distanceToSegment p a b = .ok d ∧ distanceToSegment p b a = .ok d ∧
      (∀ q ∈ Point.segment a b, ∃ g, p.distance q = .ok g ∧ d ≤ g) ∧
      ∃ q ∈ Point.segment a b, p.distance q = .ok d := by
  refine ⟨p.gap (footOnSegment p a b), distanceToSegment_eq_ok p a b, ?_, ?_, ?_⟩
  · rw [distanceToSegment_eq_ok, footOnSegment_comm p (.inr hlong)]
  · intro q hq
    exact ⟨p.gap q, p.distance_eq_ok q, gap_footOnSegment_le_of_mem hlong hq⟩
  · exact ⟨_, footOnSegment_mem_segment p a b, p.distance_eq_ok _⟩

/-- From a point past the end of a segment the distance is the one to the end. -/
theorem distanceToSegment_pastEnd :
    Tolerance.geometry ≤ (Vec.between ⟨0, 0⟩ (⟨2, 0⟩ : Point ℝ)).length ∧
    distanceToSegment (⟨5, 4⟩ : Point ℝ) ⟨0, 0⟩ ⟨2, 0⟩ = .ok 5 ∧
    distanceToSegment (⟨5, 4⟩ : Point ℝ) ⟨2, 0⟩ ⟨0, 0⟩ = .ok 5 ∧
    ∀ q ∈ Point.segment ⟨0, 0⟩ ⟨2, 0⟩, ∃ g, Point.distance ⟨5, 4⟩ q = .ok g ∧ 5 ≤ g := by
  have hlong : Tolerance.geometry ≤ (Vec.between ⟨0, 0⟩ (⟨2, 0⟩ : Point ℝ)).length := by
    rw [Vec.geometry_le_length_iff]
    norm_num [Vec.between, Tolerance.geometry]
  obtain ⟨d, hd, hback, hleast, -⟩ := distanceToSegment_isLeast ⟨5, 4⟩ ⟨0, 0⟩ ⟨2, 0⟩ hlong
  have hend : footOnSegment ⟨5, 4⟩ ⟨0, 0⟩ (⟨2, 0⟩ : Point ℝ) = ⟨2, 0⟩ := by
    norm_num [footOnSegment, Vec.between, Tolerance.geometry, clampUnit_eq]
  have hfive : d = 5 := by
    rw [distanceToSegment_eq_ok, hend, Except.ok.injEq] at hd
    rw [← hd, Point.gap, Real.sqrt_eq_iff_mul_self_eq_of_pos (by norm_num)]
    norm_num
  subst hfive
  exact ⟨hlong, hd, hback, hleast⟩

end

end Housewright
