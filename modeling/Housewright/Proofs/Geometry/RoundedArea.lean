import Housewright.Proofs.Binary64.Errors
import Housewright.Proofs.Exact.Clipping
import Housewright.Proofs.Geometry.FinitePoints

/-!
# The rounded area of a triangle

The shoelace sum of a triangle adds up products of coordinates, each of which is rounded.  Far from
the origin the products are large and nearly cancel, so that the sum may have the wrong sign.  It
has the right one if the triangle is large enough for its distance from the origin.

* `Point.exact`: a point with finite coordinates as one with real coordinates;
* `crossTerm_error`: the error of one summand;
* `shoelace_error`: the error of the sum of three;
* `Ring.signedArea_lt_zero_iff`: when the sign of the shoelace sum is that of the exact one.
-/

namespace Housewright

open Binary64

noncomputable section

/-- The point whose coordinates are the values of those of `p`. -/
def Point.exact (p : Point Float) : Point ℝ := ⟨value p.x, value p.y⟩

/-- The coordinates are finite and at most `2 ^ k` in size. -/
structure Point.InReach (k : ℕ) (p : Point Float) : Prop where
  finite : p.IsFinite
  x_le : |value p.x| ≤ 2 ^ k
  y_le : |value p.y| ≤ 2 ^ k

/-- What the edge from `p` to `q` adds to the shoelace sum. -/
def crossTerm (p q : Point Float) : Float := p.x * q.y - q.x * p.y

/-- What it would add without rounding. -/
def exactTerm (p q : Point Float) : ℝ := value p.x * value q.y - value q.x * value p.y

section Errors

variable {k : ℕ} {p q s : Point Float}

/-- The square of the largest coordinate is far above the least numbers and far below infinity. -/
theorem square_limits (hk : k ≤ 500) :
    1 ≤ (2 : ℝ) ^ (2 * k) ∧ 8 * (2 : ℝ) ^ (2 * k) ≤ halfInfinity := by
  refine ⟨one_le_pow₀ one_le_two, le_trans (le_of_eq ?_)
    (two_pow_le_halfInfinity (show 2 * k + 3 ≤ 1023 by omega))⟩
  rw [pow_add]
  ring

theorem abs_mul_le_square {x y : ℝ} (hx : |x| ≤ 2 ^ k) (hy : |y| ≤ 2 ^ k) :
    |x * y| ≤ 2 ^ (2 * k) := by
  rw [abs_mul, two_mul, pow_add]
  exact mul_le_mul hx hy (abs_nonneg y) (by positivity)

theorem abs_exactTerm_le (hp : p.InReach k) (hq : q.InReach k) :
    |exactTerm p q| ≤ 2 * 2 ^ (2 * k) := by
  refine (abs_sub _ _).trans ?_
  have hleft := abs_mul_le_square hp.x_le hq.y_le
  have hright := abs_mul_le_square hq.x_le hp.y_le
  linarith

/-- **One summand** of the shoelace sum is off by less than five times `2 ^ -53` of the square of
the largest coordinate: once that for either product, and twice that for the difference. -/
theorem crossTerm_error (hk : k ≤ 500) (hp : p.InReach k) (hq : q.InReach k) :
    (crossTerm p q).isFinite = true ∧
      |value (crossTerm p q) - exactTerm p q| ≤ 17 / 4 * 2 ^ (2 * k) / 2 ^ 53 := by
  obtain ⟨hone, hlimit⟩ := square_limits hk
  have hleft := abs_mul_le_square hp.x_le hq.y_le
  have hright := abs_mul_le_square hq.x_le hp.y_le
  set S : ℝ := 2 ^ (2 * k)
  have hleast : 16 * leastNormal ≤ S := by
    have := leastNormal_le
    have := leastNormal_pos
    linarith
  have hfirst := rounds_mul hp.finite.1 hq.finite.2 (hleft.trans (by linarith))
  have hsecond := rounds_mul hq.finite.1 hp.finite.2 (hright.trans (by linarith))
  have herror := abs_le.1 (hfirst.error hleft hleast)
  have herror' := abs_le.1 (hsecond.error hright hleast)
  rw [abs_le] at hleft hright
  have hsize : |value (p.x * q.y) - value (q.x * p.y)| ≤ 33 / 16 * S := by
    rw [abs_le]
    constructor <;> linarith
  have hsub := rounds_sub hfirst.isFinite hsecond.isFinite (hsize.trans (by linarith))
  have herror'' := abs_le.1 (hsub.error hsize hleast)
  refine ⟨hsub.isFinite, ?_⟩
  rw [crossTerm, exactTerm, abs_le]
  constructor <;> linarith

/-- **Adding a summand** adds its error, and that of the sum. -/
theorem add_error {x y : Float} {v w A B S : ℝ} (hx : x.isFinite = true) (hy : y.isFinite = true)
    (hS : 16 * leastNormal ≤ S) (hv : |v| ≤ A * S) (hw : |w| ≤ 2 * S)
    (hxv : |value x - v| ≤ B * S / 2 ^ 53) (hyw : |value y - w| ≤ 17 / 4 * S / 2 ^ 53)
    (hA : A ≤ 4) (hB : B ≤ 32) (hlimit : 8 * S ≤ halfInfinity) :
    (x + y).isFinite = true ∧ |v + w| ≤ (A + 2) * S ∧
      |value (x + y) - (v + w)| ≤ (B + A + 13 / 2) * S / 2 ^ 53 := by
  have hleast := leastNormal_pos
  rw [abs_le] at hv hw hxv hyw
  have hpos : 0 < S := by linarith
  have hAS : A * S ≤ 4 * S := mul_le_mul_of_nonneg_right hA hpos.le
  have hBS : B * S ≤ 32 * S := mul_le_mul_of_nonneg_right hB hpos.le
  have hsize : |value x + value y| ≤ A * S + 33 / 16 * S := by
    rw [abs_le]
    constructor <;> linarith
  have hsum := rounds_add hx hy (hsize.trans (by linarith))
  have herror := abs_le.1 (hsum.error hsize hS)
  refine ⟨hsum.isFinite, ?_, ?_⟩
  · rw [abs_le]
    constructor <;> linarith
  · rw [abs_le]
    constructor <;> linarith

/-- **The shoelace sum** of a triangle is off by less than `2 ^ -48` of the square of the largest
coordinate. -/
theorem shoelace_error (hk : k ≤ 500) (hp : p.InReach k) (hq : q.InReach k) (hs : s.InReach k) :
    (0.0 + crossTerm p q + crossTerm q s + crossTerm s p).isFinite = true ∧
      |p.exact.spanned q.exact s.exact| ≤ 6 * 2 ^ (2 * k) ∧
      |value (0.0 + crossTerm p q + crossTerm q s + crossTerm s p) -
        p.exact.spanned q.exact s.exact| ≤ 51 / 2 * 2 ^ (2 * k) / 2 ^ 53 := by
  obtain ⟨hone, hlimit⟩ := square_limits hk
  obtain ⟨hfinite₁, herror₁⟩ := crossTerm_error hk hp hq
  obtain ⟨hfinite₂, herror₂⟩ := crossTerm_error hk hq hs
  obtain ⟨hfinite₃, herror₃⟩ := crossTerm_error hk hs hp
  have hsize₁ := abs_exactTerm_le hp hq
  have hsize₂ := abs_exactTerm_le hq hs
  have hsize₃ := abs_exactTerm_le hs hp
  have hexact : p.exact.spanned q.exact s.exact =
      0 + exactTerm p q + exactTerm q s + exactTerm s p := by
    simp only [Point.spanned, Point.exact, exactTerm]
    ring
  have hleast : 16 * leastNormal ≤ 2 ^ (2 * k) := by
    have := leastNormal_le
    have := leastNormal_pos
    linarith
  have hstart : |value 0.0 - 0| ≤ 0 * 2 ^ (2 * k) / 2 ^ 53 := by simp [value_zero]
  obtain ⟨hfin, hsize, herror⟩ := add_error (A := 0) (by decide +kernel) hfinite₁ hleast (by simp)
    hsize₁ hstart herror₁ (by norm_num) (by norm_num) hlimit
  obtain ⟨hfin', hsize', herror'⟩ := add_error hfin hfinite₂ hleast hsize hsize₂ herror herror₂
    (by norm_num) (by norm_num) hlimit
  obtain ⟨hfin'', hsize'', herror''⟩ := add_error hfin' hfinite₃ hleast hsize' hsize₃ herror'
    herror₃ (by norm_num) (by norm_num) hlimit
  rw [hexact]
  refine ⟨hfin'', hsize''.trans (by linarith), herror''.trans ?_⟩
  gcongr
  norm_num

end Errors

/-- **The sign of the shoelace sum** of a triangle is that of the exact sum, unless what the corners
span is at most `2 ^ -48` of the square of the largest coordinate. -/
theorem Ring.signedArea_lt_zero_iff {p q s : Point Float} {k : ℕ} (hk : k ≤ 500)
    (hp : p.InReach k) (hq : q.InReach k) (hs : s.InReach k)
    (hlarge : 2 ^ (2 * k) < 2 ^ 48 * |p.exact.spanned q.exact s.exact|) :
    signedArea [p, q, s] < 0.0 ↔ p.exact.spanned q.exact s.exact < 0 := by
  obtain ⟨hone, hlimit⟩ := square_limits hk
  have hleast := leastNormal_le
  obtain ⟨hfinite, hsize, herror⟩ := shoelace_error hk hp hq hs
  have harea : signedArea [p, q, s] =
      (0.0 + crossTerm p q + crossTerm q s + crossTerm s p) / 2.0 := rfl
  rw [harea]
  set sum := 0.0 + crossTerm p q + crossTerm q s + crossTerm s p
  set area := p.exact.spanned q.exact s.exact
  rw [abs_le] at hsize herror
  rcases abs_cases area with ⟨habs, hsign⟩ | ⟨habs, hsign⟩
  · rw [habs] at hlarge
    have hpos : 0 < value sum := by linarith
    have habs' := abs_of_pos hpos
    rw [half_lt_zero_iff hfinite (by linarith) (by linarith)]
    constructor <;> intro hneg <;> linarith
  · rw [habs] at hlarge
    have hneg : value sum < 0 := by linarith
    have habs' := abs_of_neg hneg
    rw [half_lt_zero_iff hfinite (by linarith) (by linarith)]
    exact iff_of_true hneg hsign

end

end Housewright
