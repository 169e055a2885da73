import Housewright.Proofs.Exact.Cycles
import Housewright.Geometry.Containment

/-!
# Which points a ring contains

With real coordinates a ring contains the points that are near one of its edges, and those from
which a ray to the right meets an odd number of edges.

* `Ring.contains_eq_true_iff` says so, in terms of `footOnSegment`, the point of an edge that
  distances are measured to, and `Ring.rayHits`;
* `Ring.contains_reverse`: a ring run backwards contains the same points, unless an edge is so
  short that its ends count as one;
* `Ring.even_rayHits_of_right`, `Ring.contains_eq_false_of_right`: from the right of a line a ray
  meets an even number of edges of a ring to the left of it, which contains nothing there.
-/

namespace Housewright

noncomputable section

/-! ## Segments -/

theorem clampUnit_eq (t : ℝ) : Scalar.clampUnit t = max 0 (min 1 t) := by
  have hzero : (0.0 : ℝ) = 0 := by norm_num
  have hone : (1.0 : ℝ) = 1 := by norm_num
  rw [Scalar.clampUnit, Scalar.greatest, Scalar.least, hzero, hone, ← min_def_lt', ← max_def_lt]

/-- Measured from the other end, the parameter of a foot is the rest of the unit interval. -/
theorem clampUnit_one_sub (t : ℝ) : Scalar.clampUnit (1 - t) = 1 - Scalar.clampUnit t := by
  rw [clampUnit_eq, clampUnit_eq]
  grind

theorem clampUnit_mem (t : ℝ) : 0 ≤ Scalar.clampUnit t ∧ Scalar.clampUnit t ≤ 1 := by
  rw [clampUnit_eq]
  exact ⟨le_max_left _ _, max_le zero_le_one (min_le_left _ _)⟩

/-- Going back along a segment. -/
theorem Point.along_one_sub (p q : Point ℝ) (t : ℝ) : p.along q (1 - t) = q.along p t := by
  refine Point.eq_of_coordinates ?_ ?_
  · simp only [along]
    ring
  · simp only [along]
    ring

/-- The point of the segment from `a` to `b` that the distance from `p` is measured to. -/
def footOnSegment (p a b : Point ℝ) : Point ℝ :=
  let ab := Vec.between a b
  let squared := ab.x * ab.x + ab.y * ab.y
  if squared < Tolerance.geometry * Tolerance.geometry then a
  else a.along b (Scalar.clampUnit (((p.x - a.x) * ab.x + (p.y - a.y) * ab.y) / squared))

theorem distanceToSegment_eq_ok (p a b : Point ℝ) :
    distanceToSegment p a b = .ok (p.gap (footOnSegment p a b)) := by
  unfold distanceToSegment footOnSegment
  simp only
  split_ifs with hshort
  · rfl
  · have hsquare := mul_pos HalfPlane.geometry_pos HalfPlane.geometry_pos
    rw [divide_eq_ok _ (hsquare.trans_le (not_lt.1 hshort)).ne']
    show Except.ok (Real.sqrt (_ ^ 2 + _ ^ 2)) = _
    rw [pow_two, pow_two]
    rfl

/-- A foot lies between the ends of the segment. -/
theorem footOnSegment_eq_along (p a b : Point ℝ) :
    ∃ t, 0 ≤ t ∧ t ≤ 1 ∧ footOnSegment p a b = a.along b t := by
  unfold footOnSegment
  simp only
  split_ifs
  · exact ⟨0, le_rfl, zero_le_one, (Point.along_zero a b).symm⟩
  · exact ⟨_, (clampUnit_mem _).1, (clampUnit_mem _).2, rfl⟩

/-- The ends of the segment count as two points, or are one. -/
def EndsClear (a b : Point ℝ) : Prop := a = b ∨ Tolerance.geometry ≤ (Vec.between a b).length

theorem Vec.geometry_le_length_iff {v : Vec ℝ} : Tolerance.geometry ≤ v.length ↔
    Tolerance.geometry * Tolerance.geometry ≤ v.x * v.x + v.y * v.y := by
  rw [length_eq, Real.le_sqrt' HalfPlane.geometry_pos, pow_two, pow_two, pow_two]

/-- The foot on a segment does not depend on the direction of the segment. -/
theorem footOnSegment_comm (p : Point ℝ) {a b : Point ℝ} (hclear : EndsClear a b) :
    footOnSegment p a b = footOnSegment p b a := by
  obtain rfl | hlong := hclear
  · rfl
  have hsame : (Vec.between b a).x * (Vec.between b a).x + (Vec.between b a).y * (Vec.between b a).y
      = (Vec.between a b).x * (Vec.between a b).x +
        (Vec.between a b).y * (Vec.between a b).y := by
    simp only [Vec.between]
    ring
  have hsquare := Vec.geometry_le_length_iff.1 hlong
  unfold footOnSegment
  simp only [hsame, if_neg (not_lt.2 hsquare)]
  rw [← Point.along_one_sub, ← clampUnit_one_sub]
  have hpos := (mul_pos HalfPlane.geometry_pos HalfPlane.geometry_pos).trans_le hsquare
  congr 2
  rw [sub_eq_iff_eq_add, ← add_div, eq_comm, div_eq_one_iff_eq hpos.ne']
  simp only [Vec.between]
  ring

/-! ## Rays -/

/-- Where the line through `a` and `b` is as high as `p`. -/
def levelPoint (p a b : Point ℝ) : Point ℝ := a.along b ((p.y - a.y) / (b.y - a.y))

/-- Whether the height of `p` is between those of the ends of the segment from `a` to `b`. -/
def passesLevel (p a b : Point ℝ) : Bool := decide (p.y < a.y) != decide (p.y < b.y)

/-- Whether the ray from `p` to the right meets the segment from `a` to `b`. -/
def meetsRay (p a b : Point ℝ) : Bool :=
  passesLevel p a b && decide (p.x < (levelPoint p a b).x)

theorem passesLevel_comm (p a b : Point ℝ) : passesLevel p a b = passesLevel p b a :=
  bne_comm

theorem ne_of_passesLevel {p a b : Point ℝ} (h : passesLevel p a b = true) : b.y - a.y ≠ 0 := by
  intro hz
  rw [passesLevel, sub_eq_zero.1 hz] at h
  simp at h

theorem crossesRay_eq_ok (p a b : Point ℝ) : crossesRay p a b = .ok (meetsRay p a b) := by
  unfold crossesRay meetsRay
  by_cases h : passesLevel p a b
  · have hne := ne_of_passesLevel h
    have hx : (b.x - a.x) * (p.y - a.y) / (b.y - a.y) + a.x = (levelPoint p a b).x := by
      rw [levelPoint, Point.along]
      ring
    rw [h, Bool.true_and, ← hx]
    rw [passesLevel] at h
    rw [if_pos h, divide_eq_ok _ hne]
    rfl
  · rw [Bool.not_eq_true] at h
    rw [h, Bool.false_and]
    rw [passesLevel] at h
    rw [h]
    rfl

/-- It does not matter in which direction a segment is run that meets a ray. -/
theorem meetsRay_comm (p a b : Point ℝ) : meetsRay p a b = meetsRay p b a := by
  unfold meetsRay
  rw [passesLevel_comm]
  by_cases h : passesLevel p b a
  · have hne := ne_of_passesLevel h
    have hne' : b.y - a.y ≠ 0 := by rw [← neg_sub]; exact neg_ne_zero.2 hne
    have hsame : levelPoint p a b = levelPoint p b a := by
      rw [levelPoint, levelPoint, ← Point.along_one_sub]
      congr 1
      field_simp
      ring
    rw [hsame]
  · rw [Bool.not_eq_true] at h
    rw [h, Bool.false_and, Bool.false_and]

/-! ## Containment -/

/-- Going through some edges, a point is found inside if it is near one of them, or if the ray was
cut an odd number of times, all in all. -/
theorem containsFrom_eq_true_iff {eps : ℝ} {p : Point ℝ} {inside : Bool}
    {edges : List (Point ℝ × Point ℝ)} :
    containsFrom eps p inside edges = .ok true ↔
      (∃ e ∈ edges, p.gap (footOnSegment p e.2 e.1) ≤ eps) ∨
        (Even (edges.countP fun e => meetsRay p e.2 e.1) ↔ inside = true) := by
  induction edges generalizing inside with
  | nil => simp [containsFrom]
  | cons e rest ih =>
    rw [containsFrom, distanceToSegment_eq_ok, crossesRay_eq_ok]
    show (if p.gap (footOnSegment p e.2 e.1) ≤ eps then .ok true else
      containsFrom eps p (inside != meetsRay p e.2 e.1) rest) = .ok true ↔ _
    by_cases hnear : p.gap (footOnSegment p e.2 e.1) ≤ eps
    · simp [hnear]
    · rw [if_neg hnear, ih, List.countP_cons]
      cases hray : meetsRay p e.2 e.1 <;> cases inside <;>
        simp [hnear, Nat.even_add_one, -Nat.not_even_iff_odd]

namespace Ring

/-- The point is near an edge of the ring. -/
def IsNearEdge (r : Ring ℝ) (p : Point ℝ) (eps : ℝ) : Prop :=
  ∃ e ∈ r.edges, p.gap (footOnSegment p e.2 e.1) ≤ eps

/-- How many edges of a ring meet the ray from a point to the right. -/
def rayHits (r : Ring ℝ) (p : Point ℝ) : ℕ := r.edges.countP fun e => meetsRay p e.2 e.1

/-- **A ring contains** the points near its edges, and those from which a ray meets an odd number
of edges. -/
theorem contains_eq_true_iff {r : Ring ℝ} {p : Point ℝ} {eps : ℝ} :
    r.contains p eps = .ok true ↔ 3 ≤ r.length ∧ (r.IsNearEdge p eps ∨ Odd (r.rayHits p)) := by
  have hedges := r.edgesInto_perm_edges
  unfold contains
  by_cases h3 : r.length < 3
  · simp [h3]
  · rw [if_neg h3, containsFrom_eq_true_iff, hedges.countP_eq, IsNearEdge, rayHits]
    simp only [hedges.mem_iff, Bool.false_eq_true, iff_false, Nat.not_even_iff_odd,
      not_lt.1 h3, true_and]

/-- Two rings contain a point if one does when the other does. -/
theorem contains_congr {r s : Ring ℝ} {p q : Point ℝ} {eps : ℝ}
    (h : r.contains p eps = .ok true ↔ s.contains q eps = .ok true) :
    r.contains p eps = s.contains q eps := by
  obtain ⟨b, hb⟩ := r.exists_contains p eps
  obtain ⟨c, hc⟩ := s.exists_contains q eps
  rw [hb, hc] at h ⊢
  cases b <;> cases c <;> simp_all

/-- **A ring run backwards** contains the same points, if the ends of each of its edges count as
two points or are one. -/
theorem contains_reverse {r : Ring ℝ} (hclear : ∀ e ∈ r.edges, EndsClear e.1 e.2) (p : Point ℝ)
    (eps : ℝ) : Ring.contains r.reverse p eps = r.contains p eps := by
  have hnear : Ring.IsNearEdge r.reverse p eps ↔ r.IsNearEdge p eps := by
    constructor
    · rintro ⟨e, he, hgap⟩
      have he := mem_edges_reverse.1 he
      have hends : EndsClear e.2 e.1 := hclear _ he
      exact ⟨e.swap, he, by rwa [Prod.snd_swap, Prod.fst_swap, ← footOnSegment_comm p hends]⟩
    · rintro ⟨e, he, hgap⟩
      refine ⟨e.swap, mem_edges_reverse.2 (by rwa [e.swap_swap]), ?_⟩
      rwa [Prod.snd_swap, Prod.fst_swap, footOnSegment_comm p (hclear e he)]
  have hhits : Ring.rayHits r.reverse p = r.rayHits p := by
    rw [rayHits, (edges_reverse_perm r).countP_eq, List.countP_map]
    exact List.countP_congr fun e _ => by
      rw [Function.comp_apply, Prod.fst_swap, Prod.snd_swap, meetsRay_comm]
  refine contains_congr ?_
  rw [contains_eq_true_iff, contains_eq_true_iff, List.length_reverse, hnear, hhits]

/-! ## Points beyond a line -/

/-- Going around a ring, its edges pass a height an even number of times. -/
theorem even_countP_passesLevel (r : Ring ℝ) (p : Point ℝ) :
    Even (r.edges.countP fun e => passesLevel p e.2 e.1) := by
  have hpath (s : Point ℝ) (points : List (Point ℝ)) :
      Even (((s :: points).zip points).countP fun e => passesLevel p e.2 e.1) ↔
        (p.y < s.y ↔ p.y < (points.getLastD s).y) := by
    induction points generalizing s with
    | nil => simp
    | cons q rest ih =>
      rw [List.zip_cons_cons, List.countP_cons, List.getLastD_cons, passesLevel]
      by_cases hs : p.y < s.y <;> by_cases hq : p.y < q.y <;> simp [ih, hs, hq, Nat.even_add_one]
  rw [← r.edgesInto_perm_edges.countP_eq, edgesInto]
  cases hlast : r.getLast? with
  | none => exact Even.zero
  | some last => simp [hpath, List.getLastD_eq_getLast?, hlast]

end Ring

/-- Of two points at a distance one is not much farther to the left of a line than the other. -/
theorem Point.spanned_sub_le (a b p v : Point ℝ) :
    a.spanned b v - a.spanned b p ≤ (Vec.between a b).length * p.gap v := by
  rw [Vec.length_eq, Point.gap, ← Real.sqrt_mul (by positivity)]
  refine Real.le_sqrt_of_sq_le ?_
  simp only [spanned, Vec.between]
  nlinarith [sq_nonneg ((b.x - a.x) * (v.x - p.x) + (b.y - a.y) * (v.y - p.y))]

/-- A segment lies to the left of a line if its ends do. -/
theorem Point.spanned_along_nonneg {a b p q : Point ℝ} {t : ℝ} (hp : 0 ≤ a.spanned b p)
    (hq : 0 ≤ a.spanned b q) (h0 : 0 ≤ t) (h1 : t ≤ 1) : 0 ≤ a.spanned b (p.along q t) := by
  rw [spanned_along_right]
  exact add_nonneg (mul_nonneg (sub_nonneg.2 h1) hp) (mul_nonneg h0 hq)

/-- The point of a segment at a height between those of its ends is one of its points. -/
theorem levelPoint_spec {p a b : Point ℝ} (h : passesLevel p a b = true) :
    (levelPoint p a b).y = p.y ∧ 0 ≤ (p.y - a.y) / (b.y - a.y) ∧
      (p.y - a.y) / (b.y - a.y) ≤ 1 := by
  have hne := ne_of_passesLevel h
  refine ⟨?_, ?_⟩
  · rw [levelPoint, Point.along]
    field_simp
    ring
  · rw [passesLevel, bne_iff_ne, ne_eq, decide_eq_decide] at h
    by_cases ha : p.y < a.y
    · have hb : b.y ≤ p.y := by
        by_contra hb
        exact h (iff_of_true ha (not_le.1 hb))
      exact ⟨div_nonneg_of_nonpos (by linarith) (by linarith),
        (div_le_one_of_neg (by linarith)).2 (by linarith)⟩
    · have hb : p.y < b.y := by
        by_contra hb
        exact h (iff_of_false ha hb)
      exact ⟨div_nonneg (by linarith) (by linarith), (div_le_one (by linarith)).2 (by linarith)⟩

namespace Ring

/-- **From a point to the right of a line** a ray meets an even number of edges of a ring to the
left of it. -/
theorem even_rayHits_of_right {r : Ring ℝ} {a b p : Point ℝ} (hring : ∀ v ∈ r, 0 ≤ a.spanned b v)
    (hp : a.spanned b p < 0) : Even (r.rayHits p) := by
  -- all points of the ring as high as `p` are on the same side of it
  have hside {e : Point ℝ × Point ℝ} (he : e ∈ r.edges) :
      meetsRay p e.2 e.1 = (passesLevel p e.2 e.1 && decide (b.y < a.y)) := by
    obtain ⟨h1, h2⟩ := mem_of_mem_edges he
    unfold meetsRay
    by_cases hpass : passesLevel p e.2 e.1
    · obtain ⟨hy, h0, hle⟩ := levelPoint_spec hpass
      have hleft := Point.spanned_along_nonneg (hring _ h2) (hring _ h1) h0 hle
      rw [← levelPoint] at hleft
      have hgain : 0 < ((levelPoint p e.2 e.1).x - p.x) * (a.y - b.y) := by
        rw [Point.spanned] at hleft hp
        rw [hy] at hleft
        linarith
      rw [hpass, Bool.true_and, Bool.true_and, decide_eq_decide]
      constructor
      · intro hx
        exact sub_pos.1 (pos_of_mul_pos_right hgain (sub_nonneg.2 hx.le))
      · intro hb
        exact sub_pos.1 (pos_of_mul_pos_left hgain (sub_nonneg.2 hb.le))
    · rw [Bool.not_eq_true] at hpass
      rw [hpass, Bool.false_and, Bool.false_and]
  rw [rayHits, List.countP_congr fun e he => by rw [hside he]]
  by_cases hb : b.y < a.y
  · simpa [hb] using r.even_countP_passesLevel p
  · simp [hb]

/-- **A ring to the left of a line** contains no point that is to the right of it by more than the
tolerance. -/
theorem contains_eq_false_of_right {r : Ring ℝ} {a b p : Point ℝ} {eps : ℝ}
    (hring : ∀ v ∈ r, 0 ≤ a.spanned b v)
    (hp : a.spanned b p < -((Vec.between a b).length * eps)) (heps : 0 ≤ eps) :
    r.contains p eps = .ok false := by
  have hlength : 0 ≤ (Vec.between a b).length := Real.sqrt_nonneg _
  have hfar : ¬ r.IsNearEdge p eps := by
    rintro ⟨e, he, hgap⟩
    obtain ⟨h1, h2⟩ := mem_of_mem_edges he
    obtain ⟨t, h0, hle, hfoot⟩ := footOnSegment_eq_along p e.2 e.1
    have hfootLeft := Point.spanned_along_nonneg (hring _ h2) (hring _ h1) h0 hle
    rw [← hfoot] at hfootLeft
    have hspan := Point.spanned_sub_le a b p (footOnSegment p e.2 e.1)
    have hmul := mul_le_mul_of_nonneg_left hgap hlength
    linarith
  have hneg : a.spanned b p < 0 := hp.trans_le (neg_nonpos.2 (mul_nonneg hlength heps))
  obtain ⟨inside, hinside⟩ := r.exists_contains p eps
  cases inside with
  | false => exact hinside
  | true =>
    obtain ⟨-, hnear | hodd⟩ := contains_eq_true_iff.1 hinside
    · exact absurd hnear hfar
    · exact absurd (even_rayHits_of_right hring hneg) (Nat.not_even_iff_odd.2 hodd)

end Ring

end

end Housewright
