import Housewright.Proofs.Exact.Pruning

/-!
# What is dropped is near what is kept

A point is compared with the point kept last, which may be dropped itself if it closes the ring.  So
a chain of close points cannot drift away: what is dropped on the way is within the tolerance of the
point kept before it, and that one is kept in the end, or within the tolerance of the first point.

* `Point.gap_triangle`: distances obey the triangle inequality;
* `Ring.exists_gap_distant_le`: the step, one pass over the points;
* `Ring.mem_unclosed_or_gap_le`: what the end of the ring takes away;
* `Ring.withoutRepeats_keeps_near`: every point is within twice the tolerance of a point that is
  kept.
-/

namespace Housewright

noncomputable section

/-- A detour is not shorter. -/
theorem Point.gap_triangle (p q s : Point ℝ) : p.gap s ≤ p.gap q + q.gap s := by
  have hnorm (u v : Point ℝ) : u.gap v = ‖(⟨u.x, u.y⟩ : ℂ) - ⟨v.x, v.y⟩‖ := by
    rw [Complex.norm_eq_sqrt_sq_add_sq, Point.gap, pow_two, pow_two]
    rfl
  rw [hnorm, hnorm, hnorm]
  exact norm_sub_le_norm_sub_add_norm_sub _ _ _

namespace Ring

variable {eps : ℝ}

/-- **One pass** keeps a point within the tolerance of each point, if the one before them all
counts as kept. -/
theorem exists_gap_distant_le (heps : 0 ≤ eps) (last : Point ℝ) {p : Point ℝ}
    {points : List (Point ℝ)} (hp : p ∈ points) :
    ∃ q ∈ last :: distant eps last points, p.gap q ≤ eps := by
  induction points generalizing last with
  | nil => cases hp
  | cons first rest ih =>
    rw [distant]
    by_cases hfar : eps < last.gap first
    · rw [if_pos hfar]
      cases hp with
      | head => exact ⟨p, by simp, by rwa [Point.gap_self]⟩
      | tail _ hrest =>
        obtain ⟨q, hq, hgap⟩ := ih first hrest
        exact ⟨q, List.mem_cons_of_mem last hq, hgap⟩
    · rw [if_neg hfar]
      cases hp with
      | head => exact ⟨last, by simp, by rw [Point.gap_comm]; exact not_lt.1 hfar⟩
      | tail _ hrest => exact ih last hrest

/-- **The end of the ring** takes away no point but one within the tolerance of the first. -/
theorem mem_unclosed_or_gap_le (eps : ℝ) (first : Point ℝ) {q : Point ℝ} {points : List (Point ℝ)}
    (hq : q ∈ points) : q ∈ unclosed eps first points ∨ q.gap first ≤ eps := by
  obtain rfl | ⟨init, last, rfl⟩ := points.eq_nil_or_concat'
  · cases hq
  · rw [unclosed, List.getLast?_concat]
    by_cases hclosed : first.gap last ≤ eps
    · simp only [if_pos hclosed, List.dropLast_concat]
      rcases List.mem_append.1 hq with hinit | hlast
      · exact .inl hinit
      · rw [List.mem_singleton.1 hlast, Point.gap_comm]
        exact .inr hclosed
    · simp only [if_neg hclosed]
      exact .inl hq

/-- The points of a ring are near those that are kept. -/
theorem exists_gap_pruned_le (heps : 0 ≤ eps) {r : Ring ℝ} {p : Point ℝ} (hp : p ∈ r) :
    ∃ q ∈ r.pruned eps, p.gap q ≤ 2 * eps := by
  cases r with
  | nil => cases hp
  | cons first rest =>
    have hfirst : first ∈ pruned eps (first :: rest) := List.mem_cons_self
    cases hp with
    | head => exact ⟨p, hfirst, by rw [Point.gap_self]; linarith⟩
    | tail _ hrest =>
      obtain ⟨q, hq, hgap⟩ := exists_gap_distant_le heps first hrest
      cases hq with
      | head => exact ⟨first, hfirst, by linarith⟩
      | tail _ hkept =>
        rcases mem_unclosed_or_gap_le eps first hkept with hstays | hnear
        · exact ⟨q, List.mem_cons_of_mem first hstays, by linarith⟩
        · -- the point kept before is dropped itself, but it is near the first one
          refine ⟨first, hfirst, ?_⟩
          have hdetour := p.gap_triangle q first
          linarith

/-- **Dropping repeats drops nothing far away.**  What is left of a list of points is a sublist of
it that starts with its first point, and each of its points is within twice the tolerance of a point
that is left. -/
theorem withoutRepeats_keeps_near (heps : 0 ≤ eps) (r : Ring ℝ) :
    ∃ s, r.withoutRepeats eps = .ok s ∧ s.Sublist r ∧ s.head? = r.head? ∧
      ∀ p ∈ r, ∃ q ∈ s, ∃ d, p.distance q = .ok d ∧ d ≤ 2 * eps := by
  refine ⟨r.pruned eps, withoutRepeats_eq_ok eps r, pruned_sublist eps r, ?_, ?_⟩
  · cases r with
    | nil => rfl
    | cons first rest => rfl
  · intro p hp
    obtain ⟨q, hq, hgap⟩ := exists_gap_pruned_le heps hp
    exact ⟨q, hq, p.gap q, p.distance_eq_ok q, hgap⟩

/-- Points on a line: the third one is close to the first, and the fourth one to the third. -/
def drift : Ring ℝ := [⟨0, 0⟩, ⟨-8, 0⟩, ⟨4, 0⟩, ⟨8, 0⟩]

/-- The fourth point is dropped for the third one, which is dropped itself, so that it is twice the
tolerance away from all that is left. -/
theorem drift_keeps_near :
    drift.withoutRepeats 4 = .ok [⟨0, 0⟩, ⟨-8, 0⟩] ∧ drift.head? = some ⟨0, 0⟩ ∧
      ∃ q ∈ ([⟨0, 0⟩, ⟨-8, 0⟩] : Ring ℝ), ∃ d, Point.distance ⟨8, 0⟩ q = .ok d ∧ d ≤ 8 := by
  have hlevel (a b : ℝ) : Point.gap ⟨a, 0⟩ ⟨b, 0⟩ = |a - b| := by
    rw [Point.gap, sub_self, mul_zero, add_zero, Real.sqrt_mul_self_eq_abs]
  have hleft : drift.withoutRepeats 4 = .ok [⟨0, 0⟩, ⟨-8, 0⟩] := by
    rw [withoutRepeats_eq_ok]
    norm_num [drift, pruned, distant, unclosed, hlevel]
  obtain ⟨s, hs, -, hhead, hnear⟩ := withoutRepeats_keeps_near zero_le_four drift
  obtain rfl := Except.ok.inj (hleft.symm.trans hs)
  obtain ⟨q, hq, d, hd, hle⟩ := hnear ⟨8, 0⟩ (by simp [drift])
  exact ⟨hleft, hhead.symm, q, hq, d, hd, by linarith⟩

end Ring

end

end Housewright
