import Housewright.Construction.Outward
import Housewright.Proofs.Geometry.Overflow

/-!
# What can stop a probe

Whether a point lies in a ring is decided from its distances to the edges and from where a ray
cuts them.  Both divide, and both only by what cannot be zero: an edge that is long enough, and
the rise of an edge whose ends lie on different sides of the ray.  So nothing but a distance that
overflows stops a probe.

* `Point.exists_crossesRay`: a ray always cuts an edge or misses it;
* `Ring.contains_failsOnly`, `Ring.outwardNormal_failsOnly`: only an overflow stops the question
  whether a point lies in a ring, and the search for the side of an edge that is outside.
-/

namespace Housewright

open Binary64

/-- A divisor that is not below a positive bound does not equal zero. -/
theorem beq_zero_of_not_lt_bound {y bound : Float} (hbound : 0.0 < bound) (h : ¬ y < bound) :
    (y == 0.0) = false := by
  by_contra hc
  exact h (lt_of_beq_zero (Bool.eq_true_of_not_eq_false hc) hbound)

theorem distanceToSegment_failsOnly (p a b : Point Float) :
    OnlyOverflow (distanceToSegment p a b) := by
  unfold distanceToSegment
  simp only
  split_ifs with hshort
  · exact p.distance_failsOnly a
  · have hdivide := exists_divide ((p.x - a.x) * (Vec.between a b).x
      + (p.y - a.y) * (Vec.between a b).y) (beq_zero_of_not_lt_bound (by decide +kernel) hshort)
    exact .bind (.of_exists hdivide) fun _ => .pure _

/-- An edge whose ends lie on different sides of a ray has a rise to divide by. -/
theorem Point.exists_crossesRay (p a b : Point Float) :
    ∃ crosses, crossesRay p a b = .ok crosses := by
  unfold crossesRay
  split_ifs with hsides
  · have hrise : (b.y - a.y == 0.0) = false := by
      by_contra hc
      have hiff : p.y < b.y ↔ p.y < a.y :=
        lt_iff_of_beq (beq_of_sub_beq_zero (Bool.eq_true_of_not_eq_false hc))
      rw [decide_eq_decide.2 hiff, bne_self_eq_false] at hsides
      cases hsides
    exact exists_bind_eq_ok (exists_divide _ hrise) fun _ => ⟨_, rfl⟩
  · exact ⟨false, rfl⟩

theorem containsFrom_failsOnly (eps : Float) (p : Point Float) (inside : Bool)
    (edges : List (Point Float × Point Float)) :
    OnlyOverflow (containsFrom eps p inside edges) := by
  induction edges generalizing inside with
  | nil => exact .ok _
  | cons e rest ih =>
    obtain ⟨b, a⟩ := e
    refine .bind (distanceToSegment_failsOnly p a b) fun d => ?_
    split_ifs
    · exact .pure _
    · exact .bind (.of_exists (Point.exists_crossesRay p a b)) fun crosses => ih _

namespace Ring

/-- **Only an overflow stops the question** whether a point lies in a ring. -/
theorem contains_failsOnly (r : Ring Float) (p : Point Float) (eps : Float) :
    OnlyOverflow (r.contains p eps) := by
  unfold Ring.contains
  split_ifs
  · exact .ok _
  · exact containsFrom_failsOnly eps p false r.edgesInto

theorem probesOutside_failsOnly (r : Ring Float) (normal : Vec Float) (origin : Point Float)
    (distance : Float) : OnlyOverflow (r.probesOutside normal origin distance) :=
  .bind (r.contains_failsOnly _ _) fun _ => .pure _

theorem countOutside_failsOnly (r : Ring Float) (normal : Vec Float)
    (probes : List (Point Float × Float)) : OnlyOverflow (r.countOutside normal probes) :=
  .bind (.mapM fun probe _ => r.probesOutside_failsOnly normal probe.1 probe.2) fun _ => .pure _

/-- **Only an overflow stops the search** for the side of an edge that is outside. -/
theorem outwardNormal_failsOnly (r : Ring Float) (a : Point Float) (tangent : Vec Float)
    (uMin uMax distance : Float) :
    OnlyOverflow (r.outwardNormal a tangent uMin uMax distance) := by
  unfold Ring.outwardNormal
  refine .bind (r.probesOutside_failsOnly _ _ _) fun preferredOutside => ?_
  refine .bind (r.probesOutside_failsOnly _ _ _) fun otherOutside => ?_
  split_ifs
  · exact .pure _
  · exact .pure _
  · refine .bind (r.countOutside_failsOnly _ _) fun votes => ?_
    exact .bind (r.countOutside_failsOnly _ _) fun against => .pure _

end Ring

end Housewright
