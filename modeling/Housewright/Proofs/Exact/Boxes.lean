import Housewright.Construction.Facade
import Housewright.Proofs.Exact.Real
import Mathlib.MeasureTheory.Measure.Lebesgue.Basic
import Mathlib.MeasureTheory.Measure.Real

/-!
# Areas of boxes

The points of a box have the area that is computed for it, and some boxes cover as much as their
areas add up to if and only if no two of them share an area.

* `Box.measureReal_region`: the area of a box is that of its points;
* `Box.measureReal_region_eq_zero_iff`: when a box has no area;
* `measureReal_cover_le`, `sum_eq_measureReal_cover_iff`: what some sets cover together.
-/

namespace Housewright

open MeasureTheory

/-! ## Boxes -/

namespace Box

/-- The points of a box. -/
def region (b : Box ℝ) : Set (ℝ × ℝ) := Set.Icc b.minX b.maxX ×ˢ Set.Icc b.minY b.maxY

/-- The box that two boxes have in common. -/
noncomputable def meet (b c : Box ℝ) : Box ℝ :=
  ⟨max b.minX c.minX, max b.minY c.minY, min b.maxX c.maxX, min b.maxY c.maxY⟩

/-- The box is no line, no point and not empty. -/
def HasArea (b : Box ℝ) : Prop := b.minX < b.maxX ∧ b.minY < b.maxY

theorem region_meet (b c : Box ℝ) : (b.meet c).region = b.region ∩ c.region := by
  simp only [region, meet, Set.prod_inter_prod, Set.Icc_inter_Icc]

theorem measurableSet_region (b : Box ℝ) : MeasurableSet b.region :=
  measurableSet_Icc.prod measurableSet_Icc

theorem volume_region (b : Box ℝ) : volume b.region =
    ENNReal.ofReal (b.maxX - b.minX) * ENNReal.ofReal (b.maxY - b.minY) := by
  rw [region, Measure.volume_eq_prod, Measure.prod_prod, Real.volume_Icc, Real.volume_Icc]

theorem volume_region_ne_top (b : Box ℝ) : volume b.region ≠ ⊤ := by
  rw [volume_region]
  exact ENNReal.mul_ne_top ENNReal.ofReal_ne_top ENNReal.ofReal_ne_top

/-- **The area of a box** is that of its points. -/
theorem measureReal_region {b : Box ℝ} (hx : b.minX ≤ b.maxX) (hy : b.minY ≤ b.maxY) :
    volume.real b.region = b.area := by
  rw [Measure.real, volume_region, ENNReal.toReal_mul, ENNReal.toReal_ofReal (sub_nonneg.2 hx),
    ENNReal.toReal_ofReal (sub_nonneg.2 hy), area]

/-- A box that is a line, a point or empty has no area, and no other one. -/
theorem measureReal_region_eq_zero_iff {b : Box ℝ} : volume.real b.region = 0 ↔ ¬ b.HasArea := by
  rw [measureReal_eq_zero_iff b.volume_region_ne_top, volume_region, mul_eq_zero,
    ENNReal.ofReal_eq_zero, ENNReal.ofReal_eq_zero, sub_nonpos, sub_nonpos, HasArea, not_and_or,
    not_lt, not_lt]

end Box

/-! ## What some sets cover -/

section Cover

variable {X ι : Type} {s : ι → Set X} {i : ι} {l : List ι}

theorem cover_cons : (⋃ j ∈ i :: l, s j) = s i ∪ ⋃ j ∈ l, s j := by
  simp only [List.mem_cons, Set.iUnion_iUnion_eq_or_left]

variable [MeasurableSpace X] {μ : Measure X}

theorem measurableSet_cover (hs : ∀ i, MeasurableSet (s i)) (l : List ι) :
    MeasurableSet (⋃ i ∈ l, s i) := by
  induction l with
  | nil => simp
  | cons i l ih =>
    rw [cover_cons]
    exact (hs i).union ih

/-- Sets cover at most what they measure. -/
theorem measureReal_cover_le (s : ι → Set X) (l : List ι) :
    μ.real (⋃ i ∈ l, s i) ≤ (l.map fun i => μ.real (s i)).sum := by
  induction l with
  | nil => simp
  | cons i l ih =>
    rw [cover_cons, List.map_cons, List.sum_cons]
    exact (measureReal_union_le _ _).trans (add_le_add_right ih _)

variable [IsFiniteMeasure μ]

/-- A set shares nothing with what some sets cover if it shares nothing with any of them. -/
theorem measureReal_inter_cover_eq_zero_iff {t : Set X} :
    μ.real (t ∩ ⋃ i ∈ l, s i) = 0 ↔ ∀ i ∈ l, μ.real (t ∩ s i) = 0 := by
  simp only [measureReal_eq_zero_iff (measure_ne_top μ _)]
  induction l with
  | nil => simp
  | cons i l ih =>
    rw [cover_cons, Set.inter_union_distrib_left, measure_union_null_iff, List.forall_mem_cons]
    exact and_congr_right fun _ => ih

/-- **Sets cover as much as they measure** if and only if no two of them share anything. -/
theorem sum_eq_measureReal_cover_iff (hs : ∀ i, MeasurableSet (s i)) (l : List ι) :
    (l.map fun i => μ.real (s i)).sum = μ.real (⋃ i ∈ l, s i) ↔
      l.Pairwise fun i j => μ.real (s i ∩ s j) = 0 := by
  induction l with
  | nil => simp
  | cons i l ih =>
    have hle := measureReal_cover_le (μ := μ) s l
    have hsum := measureReal_union_add_inter (measurableSet_cover hs l) (measure_ne_top μ (s i))
      (measure_ne_top μ _)
    have hshared : 0 ≤ μ.real (s i ∩ ⋃ j ∈ l, s j) := measureReal_nonneg
    rw [cover_cons, List.map_cons, List.sum_cons, List.pairwise_cons, ← ih,
      ← measureReal_inter_cover_eq_zero_iff]
    constructor
    · intro h
      exact ⟨by linarith, by linarith⟩
    · rintro ⟨hzero, hrest⟩
      linarith

end Cover

end Housewright
