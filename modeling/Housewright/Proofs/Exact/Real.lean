import Mathlib.Algebra.Order.Round
import Mathlib.Analysis.SpecialFunctions.Complex.Arg
import Housewright.Construction.Outward
import Housewright.Proofs.Steps

/-!
# Real numbers as scalars

In exact arithmetic coordinates are real numbers: all of them are finite, nothing is
rounded, and no square is too large.  The only error of a single number that is left is a
division by zero, and containment and the search for the outside never run into it
(`Ring.exists_contains`, `Ring.exists_outwardNormal`).
-/

namespace Housewright

noncomputable instance : Scalar ℝ where
  decidableLT := inferInstance
  decidableLE := inferInstance
  abs := abs
  sqrt := Real.sqrt
  hypot x y := Real.sqrt (x ^ 2 + y ^ 2)
  atan2 y x := Complex.arg ⟨x, y⟩
  isNaN _ := false
  isFinite _ := true
  roundTo places x := round (x * 10 ^ places) / 10 ^ places

/-! ## Numerals -/

-- Definitions over the reals refer to these by name.  Without them, each definition that has such
-- a numeral in it would get a proof of its own that the numeral is at least two.

instance three_atLeastTwo : Nat.AtLeastTwo 3 := ⟨by decide⟩

instance four_atLeastTwo : Nat.AtLeastTwo 4 := ⟨by decide⟩

instance eight_atLeastTwo : Nat.AtLeastTwo 8 := ⟨by decide⟩

/-! ## Single numbers -/

theorem divide_eq_ok (x : ℝ) {y : ℝ} (hy : y ≠ 0) : Scalar.divide x y = .ok (x / y) := by
  have hne : (y == 0.0) = false := by
    rw [beq_eq_false_iff_ne]
    norm_num [hy]
  rw [Scalar.divide, hne]
  rfl

theorem Vec.length_eq (v : Vec ℝ) : v.length = Real.sqrt (v.x ^ 2 + v.y ^ 2) := rfl

/-- It is as far from one point to another as back. -/
theorem Vec.length_between_comm (a b : Point ℝ) :
    (Vec.between b a).length = (Vec.between a b).length := by
  rw [Vec.length_eq, Vec.length_eq, Vec.between, Vec.between]
  congr 1
  ring

theorem Vec.divide_eq_ok (v : Vec ℝ) {d : ℝ} (hd : d ≠ 0) :
    v.divide d = .ok ⟨v.x / d, v.y / d⟩ := by
  rw [Vec.divide, Housewright.divide_eq_ok _ hd, Housewright.divide_eq_ok _ hd]
  rfl

/-! ## Containment -/

theorem exists_distanceToSegment (p a b : Point ℝ) : ∃ d, distanceToSegment p a b = .ok d := by
  unfold distanceToSegment
  simp only
  split_ifs with hshort
  · exact ⟨_, rfl⟩
  · have hpos : (Vec.between a b).x * (Vec.between a b).x +
        (Vec.between a b).y * (Vec.between a b).y ≠ 0 := by
      intro hz
      rw [hz, Tolerance.geometry] at hshort
      norm_num at hshort
    rw [divide_eq_ok _ hpos]
    exact ⟨_, rfl⟩

theorem exists_crossesRay (p a b : Point ℝ) : ∃ c, crossesRay p a b = .ok c := by
  unfold crossesRay
  split_ifs with hcross
  · have hne : b.y - a.y ≠ 0 := by
      intro hz
      rw [sub_eq_zero.1 hz] at hcross
      simp at hcross
    rw [divide_eq_ok _ hne]
    exact ⟨_, rfl⟩
  · exact ⟨_, rfl⟩

theorem exists_containsFrom (eps : ℝ) (p : Point ℝ) (edges : List (Point ℝ × Point ℝ)) :
    ∀ inside, ∃ c, containsFrom eps p inside edges = .ok c := by
  induction edges with
  | nil => exact fun inside => ⟨inside, rfl⟩
  | cons e rest ih =>
    intro inside
    rw [containsFrom]
    refine exists_bind_eq_ok (exists_distanceToSegment p e.2 e.1) fun d => ?_
    split_ifs
    · exact ⟨true, rfl⟩
    · exact exists_bind_eq_ok (exists_crossesRay p e.2 e.1) fun c => ih _

/-- Whether a point lies in a ring is always settled. -/
theorem Ring.exists_contains (r : Ring ℝ) (p : Point ℝ) (eps : ℝ) :
    ∃ c, r.contains p eps = .ok c := by
  unfold Ring.contains
  split_ifs
  · exact ⟨false, rfl⟩
  · exact exists_containsFrom eps p _ _

/-! ## The outside -/

theorem Ring.exists_probesOutside (r : Ring ℝ) (normal : Vec ℝ) (origin : Point ℝ)
    (distance : ℝ) : ∃ c, r.probesOutside normal origin distance = .ok c :=
  exists_bind_eq_ok (r.exists_contains _ _) fun c => ⟨!c, rfl⟩

theorem Ring.exists_countOutside (r : Ring ℝ) (normal : Vec ℝ) (probes : List (Point ℝ × ℝ)) :
    ∃ n, r.countOutside normal probes = .ok n :=
  exists_bind_eq_ok (exists_mapM_eq_ok fun p _ => r.exists_probesOutside normal p.1 p.2)
    fun found => ⟨found.countP id, rfl⟩

/-- **The outside of an edge is always found.** -/
theorem Ring.exists_outwardNormal (r : Ring ℝ) (a : Point ℝ) (tangent : Vec ℝ)
    (uMin uMax distance : ℝ) :
    ∃ v, r.outwardNormal a tangent uMin uMax distance = .ok v := by
  unfold Ring.outwardNormal
  generalize (if r.isCounterClockwise then (tangent.right, tangent.left)
    else (tangent.left, tangent.right)) = sides
  refine exists_bind_eq_ok (r.exists_probesOutside _ _ _) fun preferredOutside => ?_
  refine exists_bind_eq_ok (r.exists_probesOutside _ _ _) fun otherOutside => ?_
  split_ifs
  · exact ⟨_, rfl⟩
  · exact ⟨_, rfl⟩
  · refine exists_bind_eq_ok (r.exists_countOutside _ _) fun votes => ?_
    exact exists_bind_eq_ok (r.exists_countOutside _ _) fun against => ⟨_, rfl⟩

end Housewright
