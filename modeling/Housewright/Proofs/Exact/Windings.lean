import Mathlib.Analysis.SpecialFunctions.Integrals.Basic
import Housewright.Proofs.Construction.MeshSides
import Housewright.Proofs.Exact.SegmentDistance

/-!
# Windings and areas

A ray from a point to the right meets some edges of a ring upwards and some downwards.  The
difference is how often the ring winds around the point, and the area of the ring is the integral of
that over the plane: along a level over all points of it, and then over the levels.

* `rayTurn`, `Ring.windings`: an edge that a ray meets, and the windings around a point;
* `integral_rise`: what all points of a level add up to, the step from points to levels;
* `integral_levels`: what all levels add up to, the step from levels to the area;
* `sum_signedArea_eq_of_windings`: rings that wind around the same points as other rings, all in
  all, have the same area as these together.
-/

namespace Housewright

open MeasureTheory (volume)
open intervalIntegral

noncomputable section

/-! ## Edges met by a ray -/

/-- How the ray from `p` to the right meets the segment from `a` to `b`: `1` if the segment leads
upwards there, `-1` if it leads downwards, and `0` if they do not meet. -/
def rayTurn (p a b : Point ℝ) : ℤ :=
  if meetsRay p a b then if a.y < b.y then 1 else -1 else 0

/-- A segment that is run back is met the other way. -/
theorem rayTurn_swap (p a b : Point ℝ) : rayTurn p b a = -rayTurn p a b := by
  unfold rayTurn
  rw [meetsRay_comm]
  by_cases hmeets : meetsRay p a b = true
  · have hne := ne_of_passesLevel (Bool.and_eq_true_iff.1 hmeets).1
    rcases lt_or_gt_of_ne (sub_ne_zero.1 hne) with hlt | hgt
    · simp [hmeets, hlt, hlt.not_gt]
    · simp [hmeets, hgt, hgt.not_gt]
  · simp [hmeets]

/-- How often a ring winds around a point: its edges that lead upwards across the ray to the right,
less those that lead downwards. -/
def Ring.windings (r : Ring ℝ) (p : Point ℝ) : ℤ := (r.edges.map fun e => rayTurn p e.1 e.2).sum

theorem Ring.windings_reverse (r : Ring ℝ) (p : Point ℝ) :
    Ring.windings r.reverse p = -r.windings p := by
  unfold windings
  rw [((edges_reverse_perm r).map _).sum_eq, List.map_map, List.sum_neg, List.map_map]
  exact congrArg List.sum (List.map_congr_left fun e _ => rayTurn_swap p e.1 e.2)

/-- Where the line through `a` and `b` is at a level. -/
def levelX (y : ℝ) (a b : Point ℝ) : ℝ := (levelPoint ⟨0, y⟩ a b).x

theorem levelX_eq (y : ℝ) (a b : Point ℝ) :
    levelX y a b = a.x + (b.x - a.x) * ((y - a.y) / (b.y - a.y)) := by
  rw [levelX, levelPoint, Point.along]
  ring

/-- Whether a segment passes a level upwards, as `1`, downwards, as `-1`, or not at all. -/
def rise (y : ℝ) (a b : Point ℝ) : ℝ :=
  Set.indicator (Set.Iic b.y) (fun _ => 1) y - Set.indicator (Set.Iic a.y) (fun _ => 1) y

/-- A segment that passes a level does so between its ends. -/
theorem levelX_mem_of_rise {y L R : ℝ} {a b : Point ℝ} (ha : a.x ∈ Set.Icc L R)
    (hb : b.x ∈ Set.Icc L R) (hrise : rise y a b ≠ 0) : levelX y a b ∈ Set.Icc L R := by
  have hbetween : 0 ≤ (y - a.y) / (b.y - a.y) ∧ (y - a.y) / (b.y - a.y) ≤ 1 := by
    by_cases hya : y ≤ a.y
    · by_cases hyb : y ≤ b.y
      · simp [rise, hya, hyb] at hrise
      · rw [← neg_div_neg_eq]
        exact ⟨div_nonneg (by linarith) (by linarith),
          (div_le_one (by linarith)).2 (by linarith)⟩
    · by_cases hyb : y ≤ b.y
      · exact ⟨div_nonneg (by linarith) (by linarith),
          (div_le_one (by linarith)).2 (by linarith)⟩
      · simp [rise, hya, hyb] at hrise
  obtain ⟨h0, h1⟩ := hbetween
  rw [levelX_eq]
  set t := (y - a.y) / (b.y - a.y)
  constructor
  · nlinarith [ha.1, hb.1]
  · nlinarith [ha.2, hb.2]

/-- Away from the ends and from the segment itself, the ray meets what passes its level further to
the right. -/
theorem rayTurn_eq {x y : ℝ} {a b : Point ℝ} (hya : y ≠ a.y) (hyb : y ≠ b.y)
    (hx : x ≠ levelX y a b) : (rayTurn ⟨x, y⟩ a b : ℝ) =
      rise y a b * Set.indicator (Set.Iic (levelX y a b)) (fun _ => 1) x := by
  have hpoint : (levelPoint ⟨x, y⟩ a b).x = levelX y a b := rfl
  have hside : x < levelX y a b ↔ x ≤ levelX y a b := ⟨le_of_lt, fun h => lt_of_le_of_ne h hx⟩
  unfold rayTurn meetsRay passesLevel rise
  rw [hpoint]
  simp only [hside, Set.indicator_apply, Set.mem_Iic]
  rcases lt_or_gt_of_ne hya with ha | ha <;> rcases lt_or_gt_of_ne hyb with hb | hb
  · simp [ha, hb, ha.le, hb.le]
  · have hdown : ¬ a.y < b.y := by linarith
    simp [ha, ha.le, hb.not_ge, hb.not_gt, hdown]
  · have hup : a.y < b.y := by linarith
    simp [hb, hb.le, ha.not_ge, ha.not_gt, hup]
  · simp [ha.not_ge, hb.not_ge, ha.not_gt, hb.not_gt]

theorem notMem_segment {x y : ℝ} {a b : Point ℝ} (hya : y ≠ a.y) (hx : x ≠ levelX y a b) :
    ⟨x, y⟩ ∉ Point.segment a b := by
  rintro ⟨t, -, -, heq⟩
  simp only [Point.along, Point.mk.injEq] at heq
  obtain ⟨hxt, hyt⟩ := heq
  rcases eq_or_ne a.y b.y with hlevel | hne
  · exact hya (by rw [hyt, hlevel]; ring)
  · have ht : (y - a.y) / (b.y - a.y) = t := by
      rw [div_eq_iff (sub_ne_zero.2 hne.symm), hyt]
      ring
    exact hx (by rw [levelX_eq, ht, hxt]; ring)

/-! ## Integrals of steps -/

/-- What ends at `c` has the integral up to `c`. -/
theorem intervalIntegrable_indicator {g : ℝ → ℝ} (hg : Continuous g) (a b c : ℝ) :
    IntervalIntegrable (Set.indicator (Set.Iic c) g) volume a b :=
  ⟨(hg.intervalIntegrable a b).1.indicator measurableSet_Iic,
    (hg.intervalIntegrable a b).2.indicator measurableSet_Iic⟩

/-- The integral of a sum of functions over a list. -/
theorem integral_list_sum {γ : Type} (f : γ → ℝ → ℝ) {a b : ℝ} {l : List γ}
    (hf : ∀ c ∈ l, IntervalIntegrable (f c) volume a b) :
    IntervalIntegrable (fun x => (l.map fun c => f c x).sum) volume a b ∧
      ∫ x in a..b, (l.map fun c => f c x).sum = (l.map fun c => ∫ x in a..b, f c x).sum := by
  induction l with
  | nil => simp
  | cons c rest ih =>
    obtain ⟨hc, hrest⟩ := List.forall_mem_cons.1 hf
    obtain ⟨hint, hsum⟩ := ih hrest
    simp only [List.map_cons, List.sum_cons]
    exact ⟨hc.add hint, by rw [integral_add hc hint, hsum]⟩

/-- Functions that agree but at finitely many places have one integral. -/
theorem integral_congr_of_finite {f g : ℝ → ℝ} {s : Set ℝ} (hs : s.Finite)
    (h : ∀ x ∉ s, f x = g x) (a b : ℝ) : ∫ x in a..b, f x = ∫ x in a..b, g x := by
  refine integral_congr_ae ?_
  filter_upwards [MeasureTheory.measure_eq_zero_iff_ae_notMem.1 (hs.measure_zero volume)]
    with x hx _
  exact h x hx

/-! ## From points to levels -/

section Levels

variable {es : List (Point ℝ × Point ℝ)} {L R : ℝ}

/-- The ends of all edges are in a box. -/
def InBox (es : List (Point ℝ × Point ℝ)) (L R : ℝ) : Prop :=
  ∀ e ∈ es, (e.1.x ∈ Set.Icc L R ∧ e.1.y ∈ Set.Icc L R) ∧ e.2.x ∈ Set.Icc L R ∧ e.2.y ∈ Set.Icc L R

/-- **The points of a level** add up to the places where the edges pass it. -/
theorem integral_rise (hbox : InBox es L R) (y : ℝ) :
    ∫ x in L..R, (es.map fun e => rise y e.1 e.2 *
        Set.indicator (Set.Iic (levelX y e.1 e.2)) (fun _ => 1) x).sum =
      (es.map fun e => rise y e.1 e.2 * (levelX y e.1 e.2 - L)).sum := by
  have hstep (e : Point ℝ × Point ℝ) := (intervalIntegrable_indicator
    (continuous_const (y := (1 : ℝ))) L R (levelX y e.1 e.2)).const_mul (rise y e.1 e.2)
  rw [(integral_list_sum _ fun e _ => hstep e).2]
  congr 1
  refine List.map_congr_left fun e he => ?_
  obtain ⟨⟨ha, -⟩, hb, -⟩ := hbox e he
  rw [integral_const_mul]
  rcases eq_or_ne (rise y e.1 e.2) 0 with hzero | hrise
  · rw [hzero, zero_mul, zero_mul]
  · have hmem := levelX_mem_of_rise ha hb hrise
    have hinside := integral_indicator (μ := volume) (f := fun _ => (1 : ℝ)) hmem
    rw [show Set.Iic (levelX y e.1 e.2) = {x | x ≤ levelX y e.1 e.2} from rfl, hinside]
    simp

/-! ## From levels to areas -/

/-- What lies to the left of an edge, as far as the vertical line at `L`. -/
def trapezoid (L : ℝ) (e : Point ℝ × Point ℝ) : ℝ :=
  (e.2.y - e.1.y) * ((e.1.x + e.2.x) / 2.0 - L)

theorem trapezoid_eq (L : ℝ) (a b : Point ℝ) :
    trapezoid L (a, b) = (b.y - a.y) * ((a.x + b.x) / 2 - L) := by
  have htwo : (2.0 : ℝ) = 2 := by norm_num
  rw [trapezoid, htwo]

theorem continuous_levelX_sub (a b : Point ℝ) (L : ℝ) : Continuous fun y => levelX y a b - L := by
  simp only [levelX_eq]
  fun_prop

/-- The levels of one edge add up to its trapezoid. -/
theorem integral_levelX (a b : Point ℝ) (L : ℝ) :
    ∫ y in a.y..b.y, (levelX y a b - L) = trapezoid L (a, b) := by
  rcases eq_or_ne a.y b.y with hlevel | hne
  · simp [trapezoid_eq, hlevel]
  · have hlong : b.y - a.y ≠ 0 := sub_ne_zero.2 hne.symm
    have haffine (y : ℝ) : levelX y a b - L =
        (a.x - L - (b.x - a.x) * (a.y / (b.y - a.y))) + (b.x - a.x) / (b.y - a.y) * y := by
      rw [levelX_eq]
      ring
    simp only [haffine]
    have hlinear := (continuous_const_mul ((b.x - a.x) / (b.y - a.y))).intervalIntegrable
      (μ := volume) a.y b.y
    rw [integral_add intervalIntegrable_const hlinear, integral_const_mul, integral_id,
      integral_const, smul_eq_mul, trapezoid_eq]
    field_simp
    ring

/-- **The levels** add up to the trapezoids of the edges. -/
theorem integral_levels (hbox : InBox es L R) :
    ∫ y in L..R, (es.map fun e => rise y e.1 e.2 * (levelX y e.1 e.2 - L)).sum =
      (es.map (trapezoid L)).sum := by
  have hsplit (e : Point ℝ × Point ℝ) (y : ℝ) : rise y e.1 e.2 * (levelX y e.1 e.2 - L) =
      Set.indicator (Set.Iic e.2.y) (fun y => levelX y e.1 e.2 - L) y -
        Set.indicator (Set.Iic e.1.y) (fun y => levelX y e.1 e.2 - L) y := by
    simp only [rise, Set.indicator_apply]
    split_ifs <;> ring
  have hint (e : Point ℝ × Point ℝ) (c : ℝ) := intervalIntegrable_indicator
    (continuous_levelX_sub e.1 e.2 L) L R c
  simp only [hsplit]
  rw [(integral_list_sum _ fun e _ => (hint e e.2.y).sub (hint e e.1.y)).2]
  congr 1
  refine List.map_congr_left fun e he => ?_
  obtain ⟨⟨-, ha⟩, -, hb⟩ := hbox e he
  have hupTo {c : ℝ} (hc : c ∈ Set.Icc L R) :
      ∫ y in L..R, Set.indicator (Set.Iic c) (fun y => levelX y e.1 e.2 - L) y =
        ∫ y in L..c, (levelX y e.1 e.2 - L) := integral_indicator hc
  have hcontinuous := continuous_levelX_sub e.1 e.2 L
  rw [integral_sub (hint e e.2.y) (hint e e.1.y), hupTo ha, hupTo hb,
    integral_interval_sub_left (hcontinuous.intervalIntegrable _ _)
      (hcontinuous.intervalIntegrable _ _), integral_levelX]

end Levels

/-! ## The area from the windings -/

/-- Finitely many edges are in a box. -/
theorem exists_inBox (es : List (Point ℝ × Point ℝ)) : ∃ M, InBox es (-M) M := by
  induction es with
  | nil => exact ⟨0, fun e he => absurd he List.not_mem_nil⟩
  | cons e rest ih =>
    obtain ⟨M, hM⟩ := ih
    refine ⟨max M (max (max |e.1.x| |e.1.y|) (max |e.2.x| |e.2.y|)), fun f hf => ?_⟩
    simp only [Set.mem_Icc, ← abs_le]
    rcases List.mem_cons.1 hf with rfl | hf
    · simp
    · obtain ⟨⟨hax, hay⟩, hbx, hby⟩ := hM f hf
      simp only [Set.mem_Icc, ← abs_le] at hax hay hbx hby
      simp [hax, hay, hbx, hby]

/-- Edges that wind around the same points, all in all, have the same trapezoids, all in all. -/
theorem sum_trapezoid_eq {es fs : List (Point ℝ × Point ℝ)} {M : ℝ} (hes : InBox es (-M) M)
    (hfs : InBox fs (-M) M)
    (h : ∀ p, (∀ e ∈ es ++ fs, p ∉ Point.segment e.1 e.2) →
      (es.map fun e => rayTurn p e.1 e.2).sum = (fs.map fun e => rayTurn p e.1 e.2).sum) :
    (es.map (trapezoid (-M))).sum = (fs.map (trapezoid (-M))).sum := by
  let levels : List ℝ := (es ++ fs).flatMap fun e => [e.1.y, e.2.y]
  let places (y : ℝ) : List ℝ := (es ++ fs).map fun e => levelX y e.1 e.2
  -- on a level without ends of edges, at a place where no edge passes it
  have hpoint {y : ℝ} (hy : y ∉ levels) {x : ℝ} (hx : x ∉ places y) {gs} (hgs : gs ⊆ es ++ fs) :
      (((gs.map fun e => rayTurn ⟨x, y⟩ e.1 e.2).sum : ℤ) : ℝ) = (gs.map fun e =>
        rise y e.1 e.2 * Set.indicator (Set.Iic (levelX y e.1 e.2)) (fun _ => 1) x).sum := by
    rw [Int.cast_list_sum, List.map_map]
    congr 1
    refine List.map_congr_left fun e he => ?_
    have hends : y ≠ e.1.y ∧ y ≠ e.2.y := by
      constructor <;> rintro rfl <;> exact hy (List.mem_flatMap.2 ⟨e, hgs he, by simp⟩)
    have hplace : x ≠ levelX y e.1 e.2 := by
      rintro rfl
      exact hx (List.mem_map.2 ⟨e, hgs he, rfl⟩)
    exact rayTurn_eq hends.1 hends.2 hplace
  have hlevel (y : ℝ) (hy : y ∉ levels) :
      (es.map fun e => rise y e.1 e.2 * (levelX y e.1 e.2 - -M)).sum =
        (fs.map fun e => rise y e.1 e.2 * (levelX y e.1 e.2 - -M)).sum := by
    rw [← integral_rise hes, ← integral_rise hfs]
    refine integral_congr_of_finite (places y).finite_toSet (fun x hx => ?_) (-M) M
    rw [← hpoint hy hx (List.subset_append_left es fs),
      ← hpoint hy hx (List.subset_append_right es fs)]
    refine congrArg Int.cast (h ⟨x, y⟩ fun e he => notMem_segment ?_ ?_)
    · rintro rfl
      exact hy (List.mem_flatMap.2 ⟨e, he, by simp⟩)
    · rintro rfl
      exact hx (List.mem_map.2 ⟨e, he, rfl⟩)
  rw [← integral_levels hes, ← integral_levels hfs]
  exact integral_congr_of_finite levels.finite_toSet hlevel (-M) M

/-- What an edge adds to the shoelace sum is its trapezoid, up to what the next edge takes away. -/
theorem signedArea_eq_sum_trapezoid (r : Ring ℝ) (L : ℝ) :
    r.signedArea = (r.edges.map (trapezoid L)).sum := by
  let corner (v : Point ℝ) : ℝ := (v.x - L) * v.y / 2
  have hedge (i : ℕ) : trapezoid L (r.around i, r.around (i + 1)) =
      Point.spanned ⟨L, 0⟩ (r.around i) (r.around (i + 1)) / 2 +
        (corner (r.around (i + 1)) - corner (r.around i)) := by
    simp only [trapezoid_eq, Point.spanned, corner]
    ring
  have hclosed : r.around r.length = r.around 0 := by
    rw [← r.around_add_length 0, Nat.zero_add]
  rw [Ring.signedArea_eq_sum ⟨L, 0⟩, Ring.edges_eq_map, List.map_map, List.map_map, sum_map_range,
    sum_map_range, Finset.sum_div]
  simp only [Function.comp_apply, hedge]
  rw [Finset.sum_add_distrib, Finset.sum_range_sub fun i => corner (r.around i), hclosed, sub_self,
    add_zero]

/-- **Rings that wind around the same points** as other rings, all in all, have the same area as
these together. -/
theorem sum_signedArea_eq_of_windings (rs qs : List (Ring ℝ))
    (h : ∀ p, (∀ r ∈ rs ++ qs, ∀ e ∈ r.edges, p ∉ Point.segment e.1 e.2) →
      (rs.map fun r => r.windings p).sum = (qs.map fun r => r.windings p).sum) :
    (rs.map Ring.signedArea).sum = (qs.map Ring.signedArea).sum := by
  obtain ⟨M, hM⟩ := exists_inBox (rs.flatMap Ring.edges ++ qs.flatMap Ring.edges)
  obtain ⟨hrs, hqs⟩ := List.forall_mem_append.1 hM
  have hedges (ws : List (Ring ℝ)) :
      ws.map Ring.signedArea = ws.map fun r => (r.edges.map (trapezoid (-M))).sum :=
    List.map_congr_left fun r _ => signedArea_eq_sum_trapezoid r (-M)
  have hsame := sum_trapezoid_eq hrs hqs fun p hp => by
    rw [List.map_flatMap, List.map_flatMap, sum_flatMap, sum_flatMap]
    refine h p fun r hr e he => hp e ?_
    rw [← List.flatMap_append]
    exact List.mem_flatMap.2 ⟨r, hr, he⟩
  rw [List.map_flatMap, List.map_flatMap, sum_flatMap, sum_flatMap] at hsame
  rw [hedges, hedges, hsame]

end

end Housewright
