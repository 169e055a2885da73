import Housewright.Proofs.Binary64.Nonnegative
import Housewright.Proofs.Binary64.SignedZeros
import Housewright.Proofs.Roof.DividerSync

/-!
# Points with finite coordinates

Between points with finite coordinates a distance may overflow, but if there is one, it is a number
and the same in both directions.

* `Point.distance_comm`: the distance does not depend on the direction;
* `Point.lt_distance_iff`: a distance that is not within a tolerance is above it.
-/

namespace Housewright

open Binary64

/-- Both coordinates of the point are finite. -/
def Point.IsFinite (p : Point Float) : Prop := p.x.isFinite = true ∧ p.y.isFinite = true

instance : DecidablePred Point.IsFinite := fun _ => instDecidableAnd

namespace Point

variable {p q : Point Float}

theorem square_sub_comm {x y : Float} (hx : x.isFinite = true) (hy : y.isFinite = true) :
    Scalar.square (x - y) = Scalar.square (y - x) := by
  have halike := alike_sub_comm hx hy
  have hmul : (x - y) * (x - y) = (y - x) * (y - x) :=
    halike.mul_self.trans (neg_mul_neg_self _)
  have hfinite : Scalar.isFinite (x - y) = Scalar.isFinite (y - x) :=
    halike.isFinite_eq.trans (isFinite_neg _)
  rw [Scalar.square, Scalar.square, hmul, hfinite]

/-- **The distance** of two points is the same in both directions. -/
theorem distance_comm (hp : p.IsFinite) (hq : q.IsFinite) : p.distance q = q.distance p := by
  rw [distance, distance, square_sub_comm hp.1 hq.1, square_sub_comm hp.2 hq.2]

/-- The distance of two points is a number, if only an infinite one. -/
theorem isNaN_distance (hp : p.IsFinite) (hq : q.IsFinite) {d : Float}
    (h : p.distance q = .ok d) : d.isNaN = false := by
  simp only [distance, bind_eq_ok, pure_eq_ok] at h
  obtain ⟨sx, hx, sy, hy, rfl⟩ := h
  obtain rfl := square_eq_ok hx
  obtain rfl := square_eq_ok hy
  refine Bool.eq_false_of_not_eq_true fun hnan => ?_
  rcases isNaN_sqrt_add_squares.1 hnan with h | h
  · cases h.symm.trans (units_sub hp.1 hq.1).1
  · cases h.symm.trans (units_sub hp.2 hq.2).1

/-- **A distance that is not within a tolerance** is above it. -/
theorem lt_distance_iff (hp : p.IsFinite) (hq : q.IsFinite) {eps d : Float}
    (heps : eps.isNaN = false) (h : p.distance q = .ok d) : eps < d ↔ ¬ d ≤ eps := by
  rw [← not_lt_iff heps (isNaN_distance hp hq h), not_not]

end Point

end Housewright
