import Housewright.Proofs.Construction.PlateSides
import Housewright.Proofs.Exact.AreaLaws
import Housewright.Proofs.Exact.Windings

/-!
# Triangles that tile a ring

Triangles tile a ring if every point lies in as many of them as the ring winds around it.  Then
their areas add up to the area of the ring.

* `Triangle.windings_leftward`: a triangle that is run to the left winds once around the points
  inside it, and not around the others;
* `Tiles`, `Tiles.sum_area`: the areas of the triangles add up to the area of the ring;
* `Triangulates.tiles`: triangles tile a ring if its edges are what is left of their sides, run to
  the left, when those that come in both directions are taken away.
-/

namespace Housewright

noncomputable section

/-! ## Points on segments -/

theorem Point.segment_comm (a b : Point ℝ) : Point.segment a b = Point.segment b a := by
  have hback (a b : Point ℝ) : Point.segment a b ⊆ Point.segment b a := by
    rintro q ⟨t, h0, h1, rfl⟩
    exact ⟨1 - t, by linarith, by linarith, (Point.along_one_sub b a t).symm⟩
  exact Set.Subset.antisymm (hback a b) (hback b a)

/-- The point is on an edge of the ring. -/
def Ring.OnEdge (r : Ring ℝ) (p : Point ℝ) : Prop := ∃ e ∈ r.edges, p ∈ Point.segment e.1 e.2

namespace Triangle

/-- The point is on a side of the triangle. -/
def OnSide (t : Triangle ℝ) (p : Point ℝ) : Prop :=
  p ∈ Point.segment t.a t.b ∨ p ∈ Point.segment t.b t.c ∨ p ∈ Point.segment t.c t.a

/-- The point is to the left of all sides of the triangle from `a` to `b` to `c`. -/
def LeftOfAll (p a b c : Point ℝ) : Prop :=
  0 < p.spanned a b ∧ 0 < p.spanned b c ∧ 0 < p.spanned c a

/-- The point is inside the triangle: on the same hand of all its sides. -/
def Encloses (t : Triangle ℝ) (p : Point ℝ) : Prop :=
  LeftOfAll p t.a t.b t.c ∨ LeftOfAll p t.a t.c t.b

instance (p a b c : Point ℝ) : Decidable (LeftOfAll p a b c) := instDecidableAnd

instance (t : Triangle ℝ) (p : Point ℝ) : Decidable (t.Encloses p) := instDecidableOr

/-- The triangle run to the left. -/
def leftward (t : Triangle ℝ) : Ring ℝ :=
  if 0 ≤ t.a.spanned t.b t.c then [t.a, t.b, t.c] else [t.a, t.c, t.b]

end Triangle

/-! ## Windings of a triangle -/

section Rays

variable {p a b c : Point ℝ}

/-- A segment that leads upwards past a point meets the ray if the point is to its left. -/
theorem rayTurn_of_up (ha : ¬ p.y < a.y) (hb : p.y < b.y) :
    rayTurn p a b = if 0 < p.spanned a b then 1 else 0 := by
  have hup : a.y < b.y := by linarith
  have hplace : (levelPoint p a b).x - p.x = p.spanned a b / (b.y - a.y) := by
    have hne : b.y - a.y ≠ 0 := by linarith
    rw [levelPoint, Point.along, Point.spanned]
    field_simp
    ring
  have hside : p.x < (levelPoint p a b).x ↔ 0 < p.spanned a b := by
    rw [← sub_pos, hplace, div_pos_iff_of_pos_right (by linarith)]
  unfold rayTurn meetsRay passesLevel
  simp [ha, hb, hup, hside]

/-- A segment that leads downwards past a point meets the ray if the point is to its right. -/
theorem rayTurn_of_down (ha : p.y < a.y) (hb : ¬ p.y < b.y) :
    rayTurn p a b = if p.spanned a b < 0 then -1 else 0 := by
  rw [rayTurn_swap p b a, rayTurn_of_up hb ha, p.spanned_back a b]
  simp only [neg_pos]
  split_ifs <;> rfl

theorem rayTurn_of_same (h : p.y < a.y ↔ p.y < b.y) : rayTurn p a b = 0 := by
  unfold rayTurn meetsRay passesLevel
  simp [h]

/-- A point that is not on a segment which passes its level is on one hand of it. -/
theorem spanned_ne_zero_of_up (ha : ¬ p.y < a.y) (hb : p.y < b.y) (hoff : p ∉ Point.segment a b) :
    p.spanned a b ≠ 0 := by
  intro hzero
  have hlong : 0 < b.y - a.y := by linarith
  refine hoff ⟨(p.y - a.y) / (b.y - a.y), div_nonneg (by linarith) hlong.le,
    (div_le_one hlong).2 (by linarith), ?_⟩
  rw [Point.spanned] at hzero
  refine Point.eq_of_coordinates ?_ ?_
  · simp only [Point.along]
    field_simp
    linarith
  · simp only [Point.along]
    field_simp
    ring

theorem spanned_ne_zero_of_down (ha : p.y < a.y) (hb : ¬ p.y < b.y)
    (hoff : p ∉ Point.segment a b) : p.spanned a b ≠ 0 := by
  have hback := spanned_ne_zero_of_up hb ha (Point.segment_comm a b ▸ hoff)
  rwa [p.spanned_back a b, neg_ne_zero] at hback

/-- What the sides of a triangle span with a point, weighed with the heights of the corners across,
adds up to nothing. -/
theorem sum_spanned_mul_height (p a b c : Point ℝ) :
    p.spanned a b * (c.y - p.y) + p.spanned b c * (a.y - p.y) + p.spanned c a * (b.y - p.y) =
      0 := by
  simp only [Point.spanned]
  ring

theorem sum_spanned (p a b c : Point ℝ) :
    p.spanned a b + p.spanned b c + p.spanned c a = a.spanned b c := by
  simp only [Point.spanned]
  ring

/-- A point that is below one corner only, and to the left of both sides there, is to the left of
the third side. -/
theorem spanned_pos_of_one (ha : a.y ≤ p.y) (hb : p.y < b.y) (hc : c.y ≤ p.y)
    (hu : 0 < p.spanned a b) (hv : 0 < p.spanned b c) (hca : p ∉ Point.segment c a) :
    0 < p.spanned c a := by
  have hheight := sum_spanned_mul_height p a b c
  by_contra hw
  have hnone : p.spanned c a * (b.y - p.y) ≤ 0 :=
    mul_nonpos_of_nonpos_of_nonneg (not_lt.1 hw) (by linarith)
  have hua : p.spanned a b * (p.y - c.y) = 0 := by nlinarith
  have hvc : p.spanned b c * (p.y - a.y) = 0 := by nlinarith
  have hyc : c.y = p.y := by
    have := (mul_eq_zero.1 hua).resolve_left hu.ne'
    linarith
  have hya : a.y = p.y := by
    have := (mul_eq_zero.1 hvc).resolve_left hv.ne'
    linarith
  -- so the point is between the two lower corners
  have hright : p.x < a.x := by
    rw [Point.spanned, hya] at hu
    nlinarith
  have hleft : c.x < p.x := by
    rw [Point.spanned, hyc] at hv
    nlinarith
  refine hca ⟨(p.x - c.x) / (a.x - c.x), div_nonneg (by linarith) (by linarith),
    (div_le_one (by linarith)).2 (by linarith), Point.eq_of_coordinates ?_ ?_⟩
  · have hne : a.x - c.x ≠ 0 := by linarith
    simp only [Point.along]
    field_simp
    ring
  · simp [Point.along, hya, hyc]

/-- The sides of a triangle that is run to the left wind around a point that is below one corner
only. -/
theorem sum_rayTurn_of_one (hleft : 0 ≤ a.spanned b c) (ha : ¬ p.y < a.y) (hb : p.y < b.y)
    (hc : ¬ p.y < c.y) (hab : p ∉ Point.segment a b) (hbc : p ∉ Point.segment b c)
    (hca : p ∉ Point.segment c a) : rayTurn p a b + rayTurn p b c + rayTurn p c a =
      if Triangle.LeftOfAll p a b c then 1 else 0 := by
  have hsum := sum_spanned p a b c
  have hheight := sum_spanned_mul_height p a b c
  have hu := spanned_ne_zero_of_up ha hb hab
  have hv := spanned_ne_zero_of_down hb hc hbc
  rw [not_lt] at ha hc
  rw [rayTurn_of_up (not_lt.2 ha) hb, rayTurn_of_down hb (not_lt.2 hc),
    rayTurn_of_same (iff_of_false (not_lt.2 hc) (not_lt.2 ha))]
  rcases lt_or_gt_of_ne hu with hu | hu <;> rcases lt_or_gt_of_ne hv with hv | hv
  · -- to the right of both sides would be to the right of the third one
    have hw : p.spanned c a * (b.y - p.y) ≤ 0 := by nlinarith
    have hw := nonpos_of_mul_nonpos_left hw (by linarith)
    linarith
  · simp [Triangle.LeftOfAll, hu.not_gt, hv.not_gt]
  · simp [Triangle.LeftOfAll, hu, hv, hv.not_gt]
  · have hw := spanned_pos_of_one ha hb hc hu hv hca
    simp [Triangle.LeftOfAll, hu, hv, hw, hv.not_gt]

/-- The same below two corners. -/
theorem sum_rayTurn_of_two (hleft : 0 ≤ a.spanned b c) (ha : p.y < a.y) (hb : p.y < b.y)
    (hc : ¬ p.y < c.y) (hbc : p ∉ Point.segment b c) (hca : p ∉ Point.segment c a) :
    rayTurn p a b + rayTurn p b c + rayTurn p c a =
      if Triangle.LeftOfAll p a b c then 1 else 0 := by
  have hsum := sum_spanned p a b c
  have hheight := sum_spanned_mul_height p a b c
  have hw := spanned_ne_zero_of_up hc ha hca
  have hv := spanned_ne_zero_of_down hb hc hbc
  rw [rayTurn_of_same (iff_of_true ha hb), rayTurn_of_down hb hc, rayTurn_of_up hc ha]
  rw [not_lt] at hc
  have hcross : p.spanned a b * (p.y - c.y) =
      p.spanned b c * (a.y - p.y) + p.spanned c a * (b.y - p.y) := by linarith
  rcases lt_or_gt_of_ne hv with hv | hv <;> rcases lt_or_gt_of_ne hw with hw | hw
  · have hu : p.spanned a b * (p.y - c.y) < 0 := by nlinarith
    have hu := neg_of_mul_neg_left hu (by linarith)
    linarith
  · simp [Triangle.LeftOfAll, hv, hw, hv.not_gt]
  · simp [Triangle.LeftOfAll, hw.not_gt, hv.not_gt]
  · have hu : 0 < p.spanned a b * (p.y - c.y) := by nlinarith
    have hu := pos_of_mul_pos_left hu (by linarith)
    simp [Triangle.LeftOfAll, hu, hv, hw, hv.not_gt]

/-- A point that is below all corners or below none is not inside, and not wound around. -/
theorem sum_rayTurn_of_level (hab : p.y < a.y ↔ p.y < b.y) (hbc : p.y < b.y ↔ p.y < c.y) :
    rayTurn p a b + rayTurn p b c + rayTurn p c a =
      if Triangle.LeftOfAll p a b c then 1 else 0 := by
  have hheight := sum_spanned_mul_height p a b c
  have hout : ¬ Triangle.LeftOfAll p a b c := by
    rintro ⟨hu, hv, hw⟩
    by_cases hc : p.y < c.y
    · have hb := hbc.2 hc
      have ha := hab.2 hb
      nlinarith [mul_pos hu (sub_pos.2 hc), mul_pos hv (sub_pos.2 ha), mul_pos hw (sub_pos.2 hb)]
    · have hb := not_lt.1 (mt hbc.1 hc)
      have ha := not_lt.1 (mt hab.1 (not_lt.2 hb))
      rw [not_lt] at hc
      have hwb : p.spanned c a * (b.y - p.y) = 0 := by nlinarith
      have hva : p.spanned b c * (a.y - p.y) = 0 := by nlinarith
      have hyb := (mul_eq_zero.1 hwb).resolve_left hw.ne'
      have hya := (mul_eq_zero.1 hva).resolve_left hv.ne'
      rw [Point.spanned, hyb, hya, mul_zero, mul_zero, sub_zero] at hu
      exact lt_irrefl 0 hu
  rw [if_neg hout, rayTurn_of_same hab, rayTurn_of_same hbc,
    rayTurn_of_same (hab.trans hbc).symm]
  rfl

end Rays

namespace Triangle

variable {p a b c : Point ℝ} {t : Triangle ℝ}

/-- **A triangle that is run to the left** winds once around the points inside it. -/
theorem windings_eq (hleft : 0 ≤ a.spanned b c) (hab : p ∉ Point.segment a b)
    (hbc : p ∉ Point.segment b c) (hca : p ∉ Point.segment c a) :
    Ring.windings [a, b, c] p = if LeftOfAll p a b c then 1 else 0 := by
  have hsum : Ring.windings [a, b, c] p = rayTurn p a b + rayTurn p b c + rayTurn p c a := by
    simp [Ring.windings, Ring.edges, add_assoc]
  have hleft' : 0 ≤ b.spanned c a := a.spanned_rotate b c ▸ hleft
  have hleft'' : 0 ≤ c.spanned a b := b.spanned_rotate c a ▸ hleft'
  have hrotate : LeftOfAll p a b c ↔ LeftOfAll p b c a := by
    unfold LeftOfAll
    tauto
  have hrotate' : LeftOfAll p a b c ↔ LeftOfAll p c a b := by
    unfold LeftOfAll
    tauto
  rw [hsum]
  by_cases ha : p.y < a.y <;> by_cases hb : p.y < b.y <;> by_cases hc : p.y < c.y
  · exact sum_rayTurn_of_level (iff_of_true ha hb) (iff_of_true hb hc)
  · exact sum_rayTurn_of_two hleft ha hb hc hbc hca
  · have htwo := sum_rayTurn_of_two hleft'' hc ha hb hab hbc
    simp only [hrotate']
    rw [← htwo]
    ring
  · have hone := sum_rayTurn_of_one hleft'' hc ha hb hca hab hbc
    simp only [hrotate']
    rw [← hone]
    ring
  · have htwo := sum_rayTurn_of_two hleft' hb hc ha hca hab
    simp only [hrotate]
    rw [← htwo]
    ring
  · exact sum_rayTurn_of_one hleft ha hb hc hab hbc hca
  · have hone := sum_rayTurn_of_one hleft' hb hc ha hbc hca hab
    simp only [hrotate]
    rw [← hone]
    ring
  · exact sum_rayTurn_of_level (iff_of_false ha hb) (iff_of_false hb hc)

/-- No point is to the left of all sides of a triangle that is run to the right. -/
theorem not_leftOfAll (h : a.spanned b c ≤ 0) : ¬ LeftOfAll p a b c := by
  rintro ⟨hab, hbc, hca⟩
  have hsum := sum_spanned p a b c
  linarith

/-- **A triangle run to the left** winds once around the points inside, and not around others. -/
theorem windings_leftward (hoff : ¬ t.OnSide p) :
    t.leftward.windings p = if t.Encloses p then 1 else 0 := by
  simp only [OnSide, not_or] at hoff
  obtain ⟨hab, hbc, hca⟩ := hoff
  have hback := t.a.spanned_back t.b t.c
  unfold leftward
  by_cases hleft : 0 ≤ t.a.spanned t.b t.c
  · have hinside : t.Encloses p ↔ LeftOfAll p t.a t.b t.c :=
      or_iff_left (not_leftOfAll (by linarith))
    rw [if_pos hleft, windings_eq hleft hab hbc hca]
    simp only [hinside]
  · have hinside : t.Encloses p ↔ LeftOfAll p t.a t.c t.b :=
      or_iff_right (not_leftOfAll (by linarith))
    rw [Point.segment_comm] at hab hbc hca
    rw [if_neg hleft, windings_eq (by linarith) hca hbc hab]
    simp only [hinside]

theorem signedArea_leftward (t : Triangle ℝ) : t.leftward.signedArea = t.area := by
  rw [t.area_eq]
  unfold leftward
  split_ifs with hleft
  · rw [Ring.signedArea_triangle, abs_of_nonneg (by linarith)]
  · rw [Ring.signedArea_triangle, Point.spanned_back, abs_of_neg (by linarith), neg_div]

end Triangle

/-! ## Tilings -/

/-- The triangles tile the ring: run one of its two ways, the ring winds around every point off the
edges and sides as many times as there are triangles around it.  A ring that does not cross itself
winds once around what is inside, so that each point there is in one triangle, and none is in a
triangle outside. -/
def Tiles (triangles : List (Triangle ℝ)) (r : Ring ℝ) : Prop :=
  ∃ way : ℤ, (way = 1 ∨ way = -1) ∧ ∀ p, ¬ r.OnEdge p → (∀ t ∈ triangles, ¬ t.OnSide p) →
    (triangles.countP fun t => t.Encloses p : ℤ) = way * r.windings p

section Tilings

variable {r : Ring ℝ} {triangles : List (Triangle ℝ)}

/-- The number of triangles around a point is what they wind around it, run to the left. -/
theorem countP_encloses {p : Point ℝ} (hoff : ∀ t ∈ triangles, ¬ t.OnSide p) :
    (triangles.countP fun t => t.Encloses p : ℤ) =
      (triangles.map fun t => t.leftward.windings p).sum := by
  induction triangles with
  | nil => rfl
  | cons t rest ih =>
    obtain ⟨ht, hrest⟩ := List.forall_mem_cons.1 hoff
    rw [List.map_cons, List.sum_cons, ← ih hrest, Triangle.windings_leftward ht, List.countP_cons]
    by_cases henclosed : t.Encloses p
    · simp [henclosed, add_comm]
    · simp [henclosed]

/-- The sides of a triangle are those of the triangle run to the left. -/
theorem Triangle.onSide_of_leftward {t : Triangle ℝ} {p : Point ℝ} (h : t.OnSide p) :
    t.leftward.OnEdge p := by
  unfold OnSide at h
  unfold leftward
  split_ifs
  · simpa [Ring.OnEdge, Ring.edges] using h
  · have hab := Point.segment_comm t.a t.b
    have hbc := Point.segment_comm t.b t.c
    have hca := Point.segment_comm t.c t.a
    rw [hab, hbc, hca] at h
    simp [Ring.OnEdge, Ring.edges]
    tauto

/-- **The areas of triangles that tile a ring** add up to the area of the ring. -/
theorem Tiles.sum_area (h : Tiles triangles r) :
    (triangles.map Triangle.area).sum = |r.signedArea| := by
  obtain ⟨way, hway, hcount⟩ := h
  have hnonneg : 0 ≤ (triangles.map Triangle.area).sum := by
    refine List.sum_nonneg fun a ha => ?_
    obtain ⟨t, -, rfl⟩ := List.mem_map.1 ha
    exact t.area_eq ▸ abs_nonneg _
  have hrun :
      triangles.map Triangle.area = (triangles.map Triangle.leftward).map Ring.signedArea := by
    rw [List.map_map]
    exact List.map_congr_left fun t _ => t.signedArea_leftward.symm
  -- the ring run the way the triangles turn
  obtain ⟨s, hs, hedge, harea⟩ : ∃ s : Ring ℝ, (∀ p, s.windings p = way * r.windings p) ∧
      (∀ p, r.OnEdge p → s.OnEdge p) ∧ |s.signedArea| = |r.signedArea| := by
    rcases hway with rfl | rfl
    · exact ⟨r, fun p => (one_mul _).symm, fun p hp => hp, rfl⟩
    · refine ⟨r.reverse, fun p => ?_, fun p hp => ?_, ?_⟩
      · rw [Ring.windings_reverse, neg_one_mul]
      · obtain ⟨e, he, hp⟩ := hp
        exact ⟨e.swap, Ring.mem_edges_reverse.2 (e.swap_swap ▸ he), Point.segment_comm e.1 e.2 ▸ hp⟩
      · rw [Ring.signedArea_reverse, abs_neg]
  have hsame := sum_signedArea_eq_of_windings (triangles.map Triangle.leftward) [s] fun p hp => by
    have hoff : ∀ t ∈ triangles, ¬ t.OnSide p := by
      intro t ht hside
      obtain ⟨e, he, hmem⟩ := t.onSide_of_leftward hside
      exact hp _ (List.mem_append_left _ (List.mem_map_of_mem ht)) e he hmem
    have hring : ¬ r.OnEdge p := by
      intro hside
      obtain ⟨e, he, hmem⟩ := hedge p hside
      exact hp s (by simp) e he hmem
    rw [List.map_map, List.map_singleton, List.sum_singleton, hs, ← hcount p hring hoff,
      countP_encloses hoff]
    rfl
  rw [List.map_singleton, List.sum_singleton, ← hrun] at hsame
  rw [hsame, ← harea, abs_of_nonneg (hsame ▸ hnonneg)]

/-- A triangle tiles the ring of its corners, run to the left. -/
theorem Triangle.tiles_leftward (t : Triangle ℝ) : Tiles [t] t.leftward := by
  refine ⟨1, .inl rfl, fun p _ hoff => ?_⟩
  rw [countP_encloses hoff, List.map_singleton, List.sum_singleton, one_mul]

/-- **A ring that falls into triangles** is tiled by the triangles that are these when they are run
to the left. -/
theorem Triangulates.tiles {triples : List IndexTriple} (h : Triangulates r.length triples)
    (hleft : triangles.map Triangle.leftward =
      triples.map fun s => [r.around s.i, r.around s.j, r.around s.k]) : Tiles triangles r := by
  refine ⟨1, .inl rfl, fun p _ hoff => ?_⟩
  have hturns : Alternates fun i j => rayTurn p (r.around i) (r.around j) :=
    fun i j => rayTurn_swap p (r.around i) (r.around j)
  have hsides := h.borders _ hturns
  have hrun : (triangles.map fun t => t.leftward.windings p) = (triples.map fun s =>
      [r.around s.i, r.around s.j, r.around s.k]).map (Ring.windings · p) := by
    rw [← hleft, List.map_map]
    rfl
  rw [countP_encloses hoff, hrun, List.map_map, one_mul, Ring.windings, Ring.edges_eq_map,
    List.map_map]
  simp only [Ring.around_mod] at hsides
  refine Eq.trans (congrArg List.sum (List.map_congr_left fun s _ => ?_)) hsides
  simp [Ring.windings, Ring.edges, IndexTriple.around, add_assoc]

end Tilings

end

end Housewright
