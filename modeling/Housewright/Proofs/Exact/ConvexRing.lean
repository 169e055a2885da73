import Mathlib.Analysis.Convex.Extreme
import Mathlib.Analysis.Normed.Affine.AddTorsorBases
import Mathlib.Data.List.GetD
import Mathlib.Data.List.Triplewise
import Housewright.Proofs.Exact.Clipping

/-!
# Rings that turn left

A ring turns left if any three of its vertices do, in the order in which the ring visits them.
Its vertices are then the corners of a convex set.

* `Ring.lap` numbers the vertices from the last one, which comes before the first, so that the
  edges lead from each number to the next (`Ring.edgesInto_eq_map`);
* `Ring.TurnsLeft.spanned_nonneg` and `Ring.TurnsLeft.spanned_pos` say which way three points of
  this lap turn, and `Ring.TurnsLeft.left_of_edge` that no vertex lies to the right of an edge;
* `Ring.TurnsLeft.extremePoints_hull`: every vertex is a corner of the convex hull;
* `Ring.TurnsLeft.interior_hull_nonempty_iff`: three vertices enclose something.
-/

namespace Housewright

noncomputable section

/-! ## Points and half-planes as sets -/

/-- The coordinates of a point. -/
def Point.coords (p : Point ℝ) : ℝ × ℝ := (p.x, p.y)

theorem Point.coords_along (p q : Point ℝ) (t : ℝ) :
    (p.along q t).coords = AffineMap.lineMap p.coords q.coords t := by
  refine Prod.ext ?_ ?_
  · simp only [coords, along, AffineMap.lineMap_apply, vsub_eq_sub, vadd_eq_add, Prod.fst_add,
      Prod.smul_fst, Prod.fst_sub, smul_eq_mul]
    ring
  · simp only [coords, along, AffineMap.lineMap_apply, vsub_eq_sub, vadd_eq_add, Prod.snd_add,
      Prod.smul_snd, Prod.snd_sub, smul_eq_mul]
    ring

namespace HalfPlane

/-- The depth of a point as an affine function of its coordinates. -/
def depthMap (h : HalfPlane ℝ) : ℝ × ℝ →ᵃ[ℝ] ℝ where
  toFun x := h.depth ⟨x.1, x.2⟩
  linear := match h.keep with
    | .left => (h.b.y - h.a.y) • LinearMap.fst ℝ ℝ ℝ - (h.b.x - h.a.x) • LinearMap.snd ℝ ℝ ℝ
    | .right => (h.b.x - h.a.x) • LinearMap.snd ℝ ℝ ℝ - (h.b.y - h.a.y) • LinearMap.fst ℝ ℝ ℝ
  map_vadd' x v := by
    cases hk : h.keep with
    | left =>
      simp [depth, hk, sideOfLine]
      ring
    | right =>
      simp [depth, hk, sideOfLine]
      ring

@[simp] theorem depthMap_coords (h : HalfPlane ℝ) (p : Point ℝ) :
    h.depthMap p.coords = h.depth p := rfl

/-- The points that a half-plane keeps. -/
def keptSide (h : HalfPlane ℝ) : Set (ℝ × ℝ) := {x | 0 ≤ h.depth ⟨x.1, x.2⟩}

theorem convex_keptSide (h : HalfPlane ℝ) : Convex ℝ h.keptSide :=
  (convex_Ici 0).affine_preimage h.depthMap

/-- A triangle that turns left has its third corner to the left of its first edge, which is the
right side of the line in the sense of half-planes. -/
theorem depth_right (p q v : Point ℝ) : (HalfPlane.mk p q .right).depth v = p.spanned q v := by
  simp only [depth, sideOfLine, Point.spanned]
  ring

end HalfPlane

/-- A point and all that is above it, in the sense of an affine function, are convex together. -/
theorem convex_eq_or_lt (f : ℝ × ℝ →ᵃ[ℝ] ℝ) (v : ℝ × ℝ) :
    Convex ℝ {x | x = v ∨ f v < f x} := by
  intro x hx y hy a b ha hb hab
  have hcombo : f (a • x + b • y) = a * f x + b * f y := Convex.combo_affine_apply hab
  obtain rfl | ha := ha.eq_or_lt
  · rw [zero_add] at hab
    rw [hab, zero_smul, one_smul, zero_add]
    exact hy
  obtain rfl | hb := hb.eq_or_lt
  · rw [add_zero] at hab
    rw [hab, zero_smul, one_smul, add_zero]
    exact hx
  have hsame : a * f v + b * f v = f v := by rw [← add_mul, hab, one_mul]
  obtain rfl | hx := hx
  · obtain rfl | hy := hy
    · exact .inl (Convex.combo_self hab _)
    · have hby := mul_lt_mul_of_pos_left hy hb
      exact .inr (by rw [hcombo]; linarith)
  · have hax := mul_lt_mul_of_pos_left hx ha
    obtain rfl | hy := hy
    · exact .inr (by rw [hcombo]; linarith)
    · have hby := mul_lt_mul_of_pos_left hy hb
      exact .inr (by rw [hcombo]; linarith)

/-- A point at which an affine function is smaller than at all others is a corner of their
convex hull. -/
theorem mem_extremePoints_of_lt {V : Set (ℝ × ℝ)} {v : ℝ × ℝ} (hv : v ∈ V) (f : ℝ × ℝ →ᵃ[ℝ] ℝ)
    (hf : ∀ u ∈ V, u ≠ v → f v < f u) : v ∈ (convexHull ℝ V).extremePoints ℝ := by
  have hhull : convexHull ℝ V ⊆ {x | x = v ∨ f v < f x} := by
    refine convexHull_min (fun u hu => ?_) (convex_eq_or_lt f v)
    obtain rfl | hne := eq_or_ne u v
    · exact .inl rfl
    · exact .inr (hf u hu hne)
  refine (convex_convexHull ℝ V).mem_extremePoints_iff_convex_sdiff.2
    ⟨subset_convexHull ℝ V hv, ?_⟩
  have hrest : convexHull ℝ V \ {v} = convexHull ℝ V ∩ {x | f v < f x} := by
    ext x
    constructor
    · rintro ⟨hx, hne⟩
      exact ⟨hx, (hhull hx).resolve_left hne⟩
    · rintro ⟨hx, hlt⟩
      refine ⟨hx, ?_⟩
      rintro rfl
      exact lt_irrefl (f x) hlt
  rw [hrest]
  exact (convex_convexHull ℝ V).inter ((convex_Ioi (f v)).affine_preimage f)

/-- The corners of a triangle that turns left span the plane. -/
theorem affineSpan_eq_top_of_spanned_pos {p q s : Point ℝ} (hpos : 0 < p.spanned q s) :
    affineSpan ℝ {p.coords, q.coords, s.coords} = ⊤ := by
  have hindependent : AffineIndependent ℝ ![p.coords, q.coords, s.coords] := by
    rw [affineIndependent_iff_not_collinear_set]
    intro hline
    have hp : p.coords ∈ ({p.coords, q.coords, s.coords} : Set (ℝ × ℝ)) := Set.mem_insert _ _
    obtain ⟨d, hd⟩ := (collinear_iff_of_mem hp).1 hline
    obtain ⟨t, hq⟩ := hd q.coords (by simp)
    obtain ⟨u, hs⟩ := hd s.coords (by simp)
    have hqx : q.x = t * d.1 + p.x := congrArg Prod.fst hq
    have hqy : q.y = t * d.2 + p.y := congrArg Prod.snd hq
    have hsx : s.x = u * d.1 + p.x := congrArg Prod.fst hs
    have hsy : s.y = u * d.2 + p.y := congrArg Prod.snd hs
    rw [Point.spanned, hqx, hqy, hsx, hsy] at hpos
    ring_nf at hpos
    exact lt_irrefl 0 hpos
  have hspan := hindependent.affineSpan_eq_top_iff_card_eq_finrank_add_one.2
    (by rw [Module.finrank_prod, Module.finrank_self, Fintype.card_fin])
  rwa [Matrix.range_cons, Matrix.range_cons, Matrix.range_cons, Matrix.range_empty,
    Set.union_empty, Set.singleton_union, Set.singleton_union] at hspan

namespace Ring

/-- The vertices as a set. -/
def vertexSet (r : Ring ℝ) : Set (ℝ × ℝ) := {x | ∃ p ∈ r, p.coords = x}

/-- The convex hull of the vertices. -/
def hull (r : Ring ℝ) : Set (ℝ × ℝ) := convexHull ℝ r.vertexSet

theorem coords_mem_hull {r : Ring ℝ} {p : Point ℝ} (hp : p ∈ r) : p.coords ∈ r.hull :=
  subset_convexHull ℝ _ ⟨p, hp, rfl⟩

/-! ## Once around a ring -/

/-- Any three vertices turn left. -/
def TurnsLeft (r : Ring ℝ) : Prop := r.Triplewise fun p q s => 0 < p.spanned q s

/-- The vertices in order, after the last one. -/
def lap (r : Ring ℝ) : ℕ → Point ℝ
  | 0 => r.getLastD ⟨0, 0⟩
  | i + 1 => r.getD i ⟨0, 0⟩

theorem lap_succ {r : Ring ℝ} {i : ℕ} (hi : i < r.length) : r.lap (i + 1) = r[i] := by
  rw [lap, List.getD_eq_getElem _ _ hi]

/-- A lap ends where it began. -/
theorem lap_length {r : Ring ℝ} (hr : r ≠ []) : r.lap r.length = r.lap 0 := by
  obtain ⟨init, last, rfl⟩ := (r.eq_nil_or_concat').resolve_left hr
  rw [List.length_append, List.length_singleton, lap_succ (by simp), lap, List.getLastD_concat]
  simp

theorem exists_lap {r : Ring ℝ} {p : Point ℝ} (hp : p ∈ r) :
    ∃ i, 0 < i ∧ i ≤ r.length ∧ r.lap i = p := by
  obtain ⟨i, hi, rfl⟩ := List.mem_iff_getElem.1 hp
  exact ⟨i + 1, i.succ_pos, hi, lap_succ hi⟩

/-- **The edges** lead from each point of the lap to the next. -/
theorem edgesInto_eq_map (r : Ring ℝ) :
    r.edgesInto = (List.range r.length).map fun i => (r.lap i, r.lap (i + 1)) := by
  unfold edgesInto
  obtain rfl | ⟨init, last, rfl⟩ := r.eq_nil_or_concat'
  · rfl
  · rw [List.getLast?_concat]
    refine List.ext_getElem (by simp) fun i hi _ => ?_
    have hi : i < (init ++ [last]).length := by
      rw [List.length_zip] at hi
      exact hi.trans_le (min_le_right _ _)
    rw [List.getElem_zip, List.getElem_map, List.getElem_range, lap_succ hi]
    cases i with
    | zero => rw [lap, List.getLastD_concat, List.getElem_cons_zero]
    | succ i => rw [lap_succ (i.lt_succ_self.trans hi), List.getElem_cons_succ]

variable {r : Ring ℝ} {i j k : ℕ}

/-- Three different points of a lap turn left. -/
theorem TurnsLeft.spanned_pos (h : r.TurnsLeft) (hij : i < j) (hjk : j < k) (hk : k ≤ r.length)
    (hlap : k < i + r.length) : 0 < (r.lap i).spanned (r.lap j) (r.lap k) := by
  have hinner (i j k : ℕ) (hij : i < j) (hjk : j < k) (hk : k < r.length) :
      0 < (r.lap (i + 1)).spanned (r.lap (j + 1)) (r.lap (k + 1)) := by
    rw [lap_succ (hij.trans (hjk.trans hk)), lap_succ (hjk.trans hk), lap_succ hk]
    exact List.triplewise_iff_getElem.1 h i j k hij hjk hk
  obtain ⟨j, rfl⟩ := Nat.exists_eq_add_one_of_ne_zero (Nat.ne_zero_of_lt hij)
  obtain ⟨k, rfl⟩ := Nat.exists_eq_add_one_of_ne_zero (Nat.ne_zero_of_lt hjk)
  cases i with
  | zero =>
    -- the first point of the lap is the last vertex
    obtain ⟨n, hn⟩ := Nat.exists_eq_add_one_of_ne_zero (Nat.ne_zero_of_lt hk)
    have hr : r ≠ [] := List.ne_nil_of_length_pos (by omega)
    rw [Point.spanned_rotate, ← lap_length hr, hn]
    exact hinner j k n (by omega) (by omega) (by omega)
  | succ i => exact hinner i j k (by omega) (by omega) (by omega)

/-- Points of a lap, repeated or not, do not turn right. -/
theorem TurnsLeft.spanned_nonneg (h : r.TurnsLeft) (hij : i ≤ j) (hjk : j ≤ k)
    (hk : k ≤ r.length) : 0 ≤ (r.lap i).spanned (r.lap j) (r.lap k) := by
  obtain rfl | hij := hij.eq_or_lt
  · rw [Point.spanned_stay]
  obtain rfl | hjk := hjk.eq_or_lt
  · rw [Point.spanned_self]
  obtain hlap | hlap := lt_or_ge k (i + r.length)
  · exact (h.spanned_pos hij hjk hk hlap).le
  · obtain rfl : i = 0 := by omega
    obtain rfl : k = r.length := by omega
    have hr : r ≠ [] := List.ne_nil_of_length_pos (by omega)
    rw [lap_length hr, Point.spanned_return]

/-- **No vertex lies to the right of an edge.** -/
theorem TurnsLeft.left_of_edge (h : r.TurnsLeft) {e : Point ℝ × Point ℝ} (he : e ∈ r.edgesInto)
    {v : Point ℝ} (hv : v ∈ r) : 0 ≤ e.1.spanned e.2 v := by
  rw [edgesInto_eq_map] at he
  obtain ⟨i, hi, rfl⟩ := List.mem_map.1 he
  have hi := List.mem_range.1 hi
  obtain ⟨k, -, hk, rfl⟩ := exists_lap hv
  obtain hki | hik := le_or_gt k i
  · rw [← Point.spanned_rotate]
    exact h.spanned_nonneg hki i.le_succ hi
  · exact h.spanned_nonneg i.le_succ hik hk

/-! ## Corners -/

/-- A vertex has the chord between its neighbours to its left, and no other vertex has. -/
theorem TurnsLeft.exists_chord (h : r.TurnsLeft) (h3 : 3 ≤ r.length) {v : Point ℝ} (hv : v ∈ r) :
    ∃ p q : Point ℝ, p.spanned q v < 0 ∧ ∀ u ∈ r, u ≠ v → 0 ≤ p.spanned q u := by
  obtain ⟨j, hj0, hj, rfl⟩ := exists_lap hv
  obtain hlast | hj := hj.eq_or_lt
  · refine ⟨r.lap (r.length - 1), r.lap 1, ?_, fun u hu hne => ?_⟩
    · have hpos := h.spanned_pos (i := 1) (j := r.length - 1) (k := r.length) (by omega) (by omega)
        le_rfl (by omega)
      rw [hlast]
      simp only [Point.spanned] at hpos ⊢
      linarith
    · obtain ⟨k, hk0, hk, rfl⟩ := exists_lap hu
      have hkj : k ≠ j := fun heq => hne (heq ▸ rfl)
      rw [Point.spanned_rotate]
      exact h.spanned_nonneg hk0 (by omega) (by omega)
  · refine ⟨r.lap (j - 1), r.lap (j + 1), ?_, fun u hu hne => ?_⟩
    · have hpos := h.spanned_pos (i := j - 1) (j := j) (k := j + 1) (by omega) (by omega) hj
        (by omega)
      simp only [Point.spanned] at hpos ⊢
      linarith
    · obtain ⟨k, hk0, hk, rfl⟩ := exists_lap hu
      have hkj : k ≠ j := fun heq => hne (heq ▸ rfl)
      obtain hlt | hgt := lt_or_gt_of_ne hkj
      · rw [← Point.spanned_rotate]
        exact h.spanned_nonneg (by omega) (by omega) hj
      · exact h.spanned_nonneg (by omega) (by omega) hk

/-- Of two points each is a corner of their hull. -/
theorem mem_extremePoints_hull_of_length_le_two (h2 : r.length ≤ 2) {v : Point ℝ} (hv : v ∈ r) :
    v.coords ∈ r.hull.extremePoints ℝ := by
  have hother : ∃ q : Point ℝ, ∀ u ∈ r, u ≠ v → u = q := by
    match r, h2 with
    | [a], _ => exact ⟨a, by simp⟩
    | [a, b], _ =>
      simp only [List.mem_cons, List.not_mem_nil, or_false] at hv
      obtain rfl | rfl := hv
      · exact ⟨b, by simp⟩
      · exact ⟨a, by simp⟩
  obtain ⟨q, hq⟩ := hother
  refine mem_extremePoints_of_lt ⟨v, hv, rfl⟩
    ((q.x - v.x) • LinearMap.fst ℝ ℝ ℝ + (q.y - v.y) • LinearMap.snd ℝ ℝ ℝ).toAffineMap ?_
  rintro - ⟨u, hu, rfl⟩ hne
  have hne : u ≠ v := fun heq => hne (heq ▸ rfl)
  obtain rfl := hq u hu hne
  have hfar : 0 < (u.x - v.x) * (u.x - v.x) + (u.y - v.y) * (u.y - v.y) :=
    Real.sqrt_pos.1 (Point.gap_pos_iff.2 hne)
  simp only [LinearMap.coe_toAffineMap, LinearMap.add_apply, LinearMap.smul_apply,
    LinearMap.fst_apply, LinearMap.snd_apply, smul_eq_mul, Point.coords]
  linarith

/-- **Every vertex is a corner** of the convex hull. -/
theorem TurnsLeft.extremePoints_hull (h : r.TurnsLeft) :
    r.hull.extremePoints ℝ = r.vertexSet := by
  refine Set.Subset.antisymm extremePoints_convexHull_subset ?_
  rintro - ⟨v, hv, rfl⟩
  obtain h2 | h3 := lt_or_ge r.length 3
  · exact mem_extremePoints_hull_of_length_le_two (by omega) hv
  · obtain ⟨p, q, hneg, hnonneg⟩ := h.exists_chord h3 hv
    refine mem_extremePoints_of_lt ⟨v, hv, rfl⟩ (HalfPlane.mk p q .right).depthMap ?_
    rintro - ⟨u, hu, rfl⟩ hne
    have hne : u ≠ v := fun heq => hne (heq ▸ rfl)
    rw [HalfPlane.depthMap_coords, HalfPlane.depthMap_coords, HalfPlane.depth_right,
      HalfPlane.depth_right]
    exact hneg.trans_le (hnonneg u hu hne)

/-- **Three vertices** enclose something, and two do not. -/
theorem TurnsLeft.interior_hull_nonempty_iff (h : r.TurnsLeft) :
    (interior r.hull).Nonempty ↔ 3 ≤ r.length := by
  rw [hull, interior_convexHull_nonempty_iff_affineSpan_eq_top]
  constructor
  · intro htop
    by_contra hshort
    have hcollinear : Collinear ℝ r.vertexSet := by
      obtain ⟨p, q, hpq⟩ : ∃ p q : Point ℝ, ∀ v ∈ r, v = p ∨ v = q := by
        rcases r with _ | ⟨a, _ | ⟨b, _ | ⟨c, rest⟩⟩⟩
        · exact ⟨⟨0, 0⟩, ⟨0, 0⟩, by simp⟩
        · exact ⟨a, a, by simp⟩
        · exact ⟨a, b, by simp⟩
        · simp at hshort
      refine (collinear_pair ℝ p.coords q.coords).subset ?_
      rintro - ⟨v, hv, rfl⟩
      obtain rfl | rfl := hpq v hv
      · exact .inl rfl
      · exact .inr rfl
    have hrank := collinear_iff_finrank_le_one.1 hcollinear
    rw [AffineSubspace.vectorSpan_eq_top_of_affineSpan_eq_top ℝ (ℝ × ℝ) (ℝ × ℝ) htop,
      finrank_top, Module.finrank_prod, Module.finrank_self] at hrank
    omega
  · intro h3
    have hpos := h.spanned_pos (i := 1) (j := 2) (k := 3) (by omega) (by omega) h3 (by omega)
    have hmem (i : ℕ) (hi : i < 3) : r.lap (i + 1) ∈ r := by
      rw [lap_succ (hi.trans_le h3)]
      exact List.getElem_mem _
    have hspan := affineSpan_eq_top_of_spanned_pos hpos
    refine top_unique (hspan ▸ affineSpan_mono ℝ ?_)
    rintro - (rfl | rfl | rfl)
    · exact ⟨_, hmem 0 (by omega), rfl⟩
    · exact ⟨_, hmem 1 (by omega), rfl⟩
    · exact ⟨_, hmem 2 (by omega), rfl⟩

end Ring

end

end Housewright
