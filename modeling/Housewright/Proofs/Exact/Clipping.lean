import Housewright.Proofs.Exact.Pruning

/-!
# Clipping in exact arithmetic

With real coordinates nothing can go wrong when a ring is clipped: where an edge changes sides it
meets the line.  This file says what the result is.

* `HalfPlane.depth` measures how far inside a point is, and `HalfPlane.hit` is the point where an
  edge meets the line;
* `HalfPlane.cutRing` are the points that the cut edges of a ring add up to;
* `HalfPlane.Sharp` says that a point is inside, or outside by more than the tolerance;
* `Ring.clip_eq_ok`: a ring of such points is cut edge by edge, and then points are dropped that
  are too close;
* `HalfPlane.CutsCleanly.clip_eq_ok`: at a clean cut only repeated points are dropped.
-/

namespace Housewright

noncomputable section

theorem referenceExtent_eq : (Tolerance.referenceExtent : ℝ) = 1000 := by
  norm_num [Tolerance.referenceExtent]

/-! ## Where edges are cut -/

/-- The point at a parameter between two points. -/
def Point.along (p q : Point ℝ) (t : ℝ) : Point ℝ :=
  ⟨p.x + t * (q.x - p.x), p.y + t * (q.y - p.y)⟩

@[simp] theorem Point.along_self (p : Point ℝ) (t : ℝ) : p.along p t = p := by
  simp [along]

@[simp] theorem Point.along_zero (p q : Point ℝ) : p.along q 0 = p := by
  simp [along]

@[simp] theorem Point.along_one (p q : Point ℝ) : p.along q 1 = q := by
  simp [along]

/-- Twice the oriented area of a triangle, positive if the way around it turns left. -/
def Point.spanned (o p q : Point ℝ) : ℝ := (p.x - o.x) * (q.y - o.y) - (q.x - o.x) * (p.y - o.y)

@[simp] theorem Point.spanned_self (o p : Point ℝ) : o.spanned p p = 0 := by
  rw [spanned]
  ring

@[simp] theorem Point.spanned_return (o p : Point ℝ) : o.spanned p o = 0 := by
  rw [spanned]
  ring

@[simp] theorem Point.spanned_stay (o p : Point ℝ) : o.spanned o p = 0 := by
  rw [spanned]
  ring

/-- It does not matter where a triangle begins. -/
theorem Point.spanned_rotate (o p q : Point ℝ) : o.spanned p q = p.spanned q o := by
  rw [spanned, spanned]
  ring

theorem Point.spanned_along (o p a b : Point ℝ) (t : ℝ) :
    (a.along b t).spanned o p = (1 - t) * a.spanned o p + t * b.spanned o p := by
  simp only [spanned, along]
  ring

theorem Point.spanned_along_right (o p a b : Point ℝ) (t : ℝ) :
    o.spanned p (a.along b t) = (1 - t) * o.spanned p a + t * o.spanned p b := by
  simp only [spanned, along]
  ring

theorem Point.spanned_along_left (o p a b : Point ℝ) (t : ℝ) :
    o.spanned (a.along b t) p = (1 - t) * o.spanned a p + t * o.spanned b p := by
  simp only [spanned, along]
  ring

namespace HalfPlane

/-- How far inside a half-plane a point is, in units of the distance of the two points that
define it; below zero outside. -/
def depth (h : HalfPlane ℝ) (p : Point ℝ) : ℝ :=
  match h.keep with
  | .left => sideOfLine p h.a h.b
  | .right => -sideOfLine p h.a h.b

theorem depth_along (h : HalfPlane ℝ) (p q : Point ℝ) (t : ℝ) :
    h.depth (p.along q t) = (1 - t) * h.depth p + t * h.depth q := by
  cases hk : h.keep with
  | left =>
    simp only [depth, hk, sideOfLine, Point.along]
    ring
  | right =>
    simp only [depth, hk, sideOfLine, Point.along]
    ring

/-- The point where the line from `p` to `q` meets the line of the half-plane. -/
def hit (h : HalfPlane ℝ) (p q : Point ℝ) : Point ℝ :=
  p.along q (h.depth p / (h.depth p - h.depth q))

theorem depth_hit (h : HalfPlane ℝ) {p q : Point ℝ} (hne : h.depth p ≠ h.depth q) :
    h.depth (h.hit p q) = 0 := by
  have hsub : h.depth p - h.depth q ≠ 0 := sub_ne_zero.2 hne
  rw [hit, depth_along]
  field_simp
  ring

/-- What an edge adds to the clipped ring. -/
def cut (h : HalfPlane ℝ) (p q : Point ℝ) : List (Point ℝ) :=
  if 0 ≤ h.depth p then if 0 ≤ h.depth q then [q] else [h.hit p q]
  else if 0 ≤ h.depth q then [h.hit p q, q] else []

/-- The points that the edges of a ring add to the clipped ring, in order. -/
def cutRing (h : HalfPlane ℝ) (r : Ring ℝ) : Ring ℝ :=
  r.edgesInto.flatMap fun e => h.cut e.1 e.2

/-- When the ring is clipped, a tolerance drops no more points than would be dropped without
one, which are repeated points.  Of fewer than three points none are dropped. -/
def DropsOnlyRepeats (h : HalfPlane ℝ) (eps : ℝ) (r : Ring ℝ) : Prop :=
  3 ≤ (h.cutRing r).length →
    (h.cutRing r).withoutRepeats eps = (h.cutRing r).withoutRepeats 0

/-- A half-plane cuts a ring cleanly if each vertex lies on the line or is farther from it than
the tolerance of the geometry, and no points are dropped but repeated ones. -/
structure CutsCleanly (h : HalfPlane ℝ) (eps : ℝ) (r : Ring ℝ) : Prop where
  offLine : ∀ v ∈ r, sideOfLine v h.a h.b = 0 ∨ Tolerance.geometry < |sideOfLine v h.a h.b|
  repeats : h.DropsOnlyRepeats eps r

/-- The point is inside, or outside by more than the tolerance. -/
def Sharp (h : HalfPlane ℝ) (p : Point ℝ) : Prop :=
  0 ≤ h.depth p ∨ h.depth p < -Tolerance.geometry

variable {h : HalfPlane ℝ} {eps : ℝ} {p q : Point ℝ}

theorem geometry_pos : (0 : ℝ) < Tolerance.geometry := by
  rw [Tolerance.geometry]
  norm_num

/-- Points on the line are inside, and points off it are not near it. -/
theorem sharp_of_offLine (hoff : sideOfLine p h.a h.b = 0 ∨
    Tolerance.geometry < |sideOfLine p h.a h.b|) : h.Sharp p := by
  unfold Sharp depth
  obtain hzero | hfar := hoff
  · cases hk : h.keep <;> simp [hzero]
  · cases hk : h.keep <;> grind [lt_abs]

/-- A half-plane keeps the points that are not outside by more than the tolerance. -/
theorem keeps_iff : h.keeps eps p = true ↔ -eps ≤ h.depth p := by
  cases hk : h.keep with
  | left => simp only [keeps, depth, hk, decide_eq_true_eq]
  | right => simp only [keeps, depth, hk, decide_eq_true_eq, neg_le_neg_iff]

/-- A tolerance does not matter to such a point. -/
theorem Sharp.keeps_iff (hp : h.Sharp p) (h0 : 0 ≤ eps) (h1 : eps ≤ Tolerance.geometry) :
    h.keeps eps p = true ↔ 0 ≤ h.depth p := by
  rw [HalfPlane.keeps_iff]
  constructor
  · intro hle
    obtain hin | hout := hp
    · exact hin
    · linarith
  · intro hle
    linarith

/-- Such points on different sides are farther apart than the tolerance. -/
theorem Sharp.geometry_lt (hp : h.Sharp p) (hq : h.Sharp q)
    (hcross : 0 ≤ h.depth p ↔ h.depth q < 0) : Tolerance.geometry < |h.depth q - h.depth p| := by
  obtain hin | hout := hp
  · have hq : h.depth q < -Tolerance.geometry := hq.resolve_left (not_le.2 (hcross.1 hin))
    rw [abs_of_neg (by linarith [geometry_pos])]
    linarith
  · have hin : 0 ≤ h.depth q := by
      by_contra hneg
      have := hcross.2 (not_le.1 hneg)
      linarith [geometry_pos]
    rw [abs_of_pos (by linarith [geometry_pos])]
    linarith

/-- The parameter of a point between two others, on different sides. -/
theorem parameter_mem (hcross : 0 ≤ h.depth p ↔ h.depth q < 0) :
    0 ≤ h.depth p / (h.depth p - h.depth q) ∧ h.depth p / (h.depth p - h.depth q) ≤ 1 := by
  by_cases hp : 0 ≤ h.depth p
  · have hq := hcross.1 hp
    have hpos : 0 < h.depth p - h.depth q := by linarith
    exact ⟨div_nonneg hp hpos.le, (div_le_one hpos).2 (by linarith)⟩
  · have hq : 0 ≤ h.depth q := not_lt.1 (mt hcross.2 hp)
    have hneg : h.depth p - h.depth q < 0 := by linarith
    exact ⟨div_nonneg_of_nonpos (not_le.1 hp).le hneg.le, (div_le_one_of_neg hneg).2 (by linarith)⟩

/-- The depth is the side of the line, up to the sign. -/
theorem sideOfLine_cases (h : HalfPlane ℝ) :
    (∀ v, sideOfLine v h.a h.b = h.depth v) ∨ ∀ v, sideOfLine v h.a h.b = -h.depth v := by
  cases hk : h.keep with
  | left => exact .inl fun v => by simp only [depth, hk]
  | right => exact .inr fun v => by simp only [depth, hk, neg_neg]

theorem abs_sideOfLine_sub (h : HalfPlane ℝ) (p q : Point ℝ) :
    |sideOfLine q h.a h.b - sideOfLine p h.a h.b| = |h.depth q - h.depth p| := by
  obtain hs | hs := h.sideOfLine_cases
  · rw [hs, hs]
  · rw [hs, hs, ← abs_neg]
    ring_nf

/-- Where a segment meets the line can be told from the depths of its ends, whichever side is
kept. -/
theorem sideOfLine_parameter (h : HalfPlane ℝ) (p q : Point ℝ) :
    -sideOfLine p h.a h.b / (sideOfLine q h.a h.b - sideOfLine p h.a h.b) =
      h.depth p / (h.depth p - h.depth q) := by
  obtain hs | hs := h.sideOfLine_cases
  · rw [hs, hs, ← neg_sub, neg_div_neg_eq]
  · rw [hs, hs, neg_neg]
    ring_nf

/-- **An edge that changes sides** meets the line. -/
theorem segmentMeetsLine?_eq_ok (hp : h.Sharp p) (hq : h.Sharp q)
    (hcross : 0 ≤ h.depth p ↔ h.depth q < 0) :
    segmentMeetsLine? p q h.a h.b = .ok (some (h.hit p q)) := by
  have hfar := hp.geometry_lt hq hcross
  obtain ⟨hzero, hone⟩ := parameter_mem hcross
  have hdet : (Vec.between p q).x * (Vec.between h.a h.b).y -
      (Vec.between p q).y * (Vec.between h.a h.b).x =
        sideOfLine q h.a h.b - sideOfLine p h.a h.b := by
    simp only [Vec.between, sideOfLine]
    ring
  have hside : (Vec.between p h.a).x * (Vec.between h.a h.b).y -
      (Vec.between p h.a).y * (Vec.between h.a h.b).x = -sideOfLine p h.a h.b := by
    simp only [Vec.between, sideOfLine]
    ring
  have hsize := h.abs_sideOfLine_sub p q
  have hne : sideOfLine q h.a h.b - sideOfLine p h.a h.b ≠ 0 := by
    rw [← abs_pos, hsize]
    exact geometry_pos.trans hfar
  have hsteep : ¬ Scalar.abs ((Vec.between p q).x * (Vec.between h.a h.b).y -
      (Vec.between p q).y * (Vec.between h.a h.b).x) < Tolerance.geometry := by
    rw [hdet]
    exact not_lt.2 (hfar.le.trans_eq hsize.symm)
  unfold segmentMeetsLine?
  simp only
  rw [if_neg hsteep, hdet, hside, divide_eq_ok _ hne, sideOfLine_parameter]
  show (if _ then _ else _) = _
  rw [if_neg]
  · rfl
  · rintro (hlow | hhigh)
    · linarith [geometry_pos]
    · have honeLit : (1.0 : ℝ) = 1 := by norm_num
      rw [honeLit] at hhigh
      linarith [geometry_pos]

/-- **What an edge adds** to the clipped ring. -/
theorem clipEdge_eq_ok (hp : h.Sharp p) (hq : h.Sharp q) (h0 : 0 ≤ eps)
    (h1 : eps ≤ Tolerance.geometry) : Ring.clipEdge h eps p q = .ok (h.cut p q) := by
  have hpk := hp.keeps_iff h0 h1
  have hqk := hq.keeps_iff h0 h1
  unfold Ring.clipEdge cut
  by_cases hpin : 0 ≤ h.depth p
  · by_cases hqin : 0 ≤ h.depth q
    · rw [hpk.2 hpin, hqk.2 hqin, if_pos hpin, if_pos hqin]
      rfl
    · have hqout : h.keeps eps q = false := Bool.eq_false_iff.2 (mt hqk.1 hqin)
      rw [hpk.2 hpin, hqout, if_pos hpin, if_neg hqin]
      simp only [segmentMeetsLine?_eq_ok hp hq (iff_of_true hpin (not_le.1 hqin))]
      rfl
  · have hpout : h.keeps eps p = false := Bool.eq_false_iff.2 (mt hpk.1 hpin)
    by_cases hqin : 0 ≤ h.depth q
    · rw [hpout, hqk.2 hqin, if_neg hpin, if_pos hqin]
      simp only [segmentMeetsLine?_eq_ok hp hq (iff_of_false hpin (not_lt.2 hqin))]
      rfl
    · have hqout : h.keeps eps q = false := Bool.eq_false_iff.2 (mt hqk.1 hqin)
      rw [hpout, hqout, if_neg hpin, if_neg hqin]
      rfl

end HalfPlane

/-- **Clipping always gives a result.** -/
theorem Ring.exists_clip (r : Ring ℝ) (h : HalfPlane ℝ) (eps : ℝ) : ∃ s, r.clip h eps = .ok s := by
  have hmeets (p q : Point ℝ) : ∃ hit, segmentMeetsLine? p q h.a h.b = .ok hit := by
    unfold segmentMeetsLine?
    simp only
    split_ifs with hflat
    · exact ⟨none, rfl⟩
    · refine exists_bind_eq_ok ⟨_, divide_eq_ok _ fun hzero => hflat ?_⟩ fun t => ?_
      · rw [hzero]
        exact abs_zero.trans_lt HalfPlane.geometry_pos
      · split_ifs
        · exact ⟨none, rfl⟩
        · exact ⟨_, rfl⟩
  have hedge (e : Point ℝ × Point ℝ) : ∃ points, clipEdge h eps e.1 e.2 = .ok points := by
    unfold clipEdge
    split
    · exact ⟨_, rfl⟩
    · exact exists_bind_eq_ok (hmeets _ _) fun hit => ⟨_, rfl⟩
    · exact exists_bind_eq_ok (hmeets _ _) fun hit => ⟨_, rfl⟩
    · exact ⟨_, rfl⟩
  unfold clip
  refine exists_bind_eq_ok (exists_mapM_eq_ok fun e _ => hedge e) fun cuts => ?_
  simp only
  split_ifs
  · exact ⟨_, rfl⟩
  · exact ⟨_, withoutRepeats_eq_ok eps _⟩

/-- A ring is clipped edge by edge, and then points are dropped that are too close, if three or
more are left. -/
theorem Ring.clip_eq_ok_of_edges {h : HalfPlane ℝ} {eps : ℝ} {r : Ring ℝ}
    {cuts : Point ℝ × Point ℝ → List (Point ℝ)}
    (hcuts : ∀ e ∈ r.edgesInto, clipEdge h eps e.1 e.2 = .ok (cuts e)) :
    r.clip h eps = .ok (if (r.edgesInto.flatMap cuts).length < 3 then r.edgesInto.flatMap cuts
      else pruned eps (r.edgesInto.flatMap cuts)) := by
  rw [clip_of_edges hcuts, withoutRepeats_eq_ok]
  split <;> rfl

/-- **A ring is clipped** by cutting its edges where they change sides. -/
theorem Ring.clip_eq_ok {h : HalfPlane ℝ} {eps : ℝ} {r : Ring ℝ} (hr : ∀ v ∈ r, h.Sharp v)
    (h0 : 0 ≤ eps) (h1 : eps ≤ Tolerance.geometry) :
    r.clip h eps = .ok (if (h.cutRing r).length < 3 then h.cutRing r
      else (h.cutRing r).pruned eps) := by
  refine clip_eq_ok_of_edges fun e he => ?_
  obtain ⟨hp, hq⟩ := mem_of_mem_edgesInto he
  exact HalfPlane.clipEdge_eq_ok (hr _ hp) (hr _ hq) h0 h1

/-- A half-plane that keeps all vertices cuts no edge. -/
theorem Ring.clip_eq_ok_of_keeps {h : HalfPlane ℝ} {eps : ℝ} {r : Ring ℝ}
    (hr : ∀ v ∈ r, h.keeps eps v = true) :
    r.clip h eps = .ok (if r.length < 3 then r else r.pruned eps) := by
  rw [clip_of_keeps hr, withoutRepeats_eq_ok]
  split <;> rfl

namespace HalfPlane

/-- **A clean cut** leaves the cut edges without their repeated points. -/
theorem CutsCleanly.clip_eq_ok {h : HalfPlane ℝ} {eps : ℝ} {r : Ring ℝ}
    (hclean : h.CutsCleanly eps r) (h0 : 0 ≤ eps) (h1 : eps ≤ Tolerance.geometry) :
    r.clip h eps = .ok (if (h.cutRing r).length < 3 then h.cutRing r
      else (h.cutRing r).pruned 0) := by
  rw [Ring.clip_eq_ok (fun v hv => sharp_of_offLine (hclean.offLine v hv)) h0 h1]
  split
  · rfl
  · rename_i hlong
    have hsame := hclean.repeats (not_lt.1 hlong)
    rw [Ring.withoutRepeats_eq_ok, Ring.withoutRepeats_eq_ok] at hsame
    exact hsame

/-- A cut is clean if the cut edges have whole coordinates. -/
theorem cutsCleanly_of_ints {h : HalfPlane ℝ} {r : Ring ℝ} {cs : List (ℤ × ℤ)}
    (hoff : ∀ v ∈ r, sideOfLine v h.a h.b = 0 ∨ Tolerance.geometry < |sideOfLine v h.a h.b|)
    (hcut : h.cutRing r = cs.map Point.ofInts) : h.CutsCleanly Tolerance.geometry r := by
  refine ⟨hoff, fun _ => ?_⟩
  rw [Ring.withoutRepeats_eq_ok, Ring.withoutRepeats_eq_ok, hcut,
    Ring.pruned_map_ofInts geometry_pos.le (by norm_num [Tolerance.geometry])]

end HalfPlane

/-- A ring is clipped to whole coordinates without a tolerance. -/
theorem Ring.clip_eq_ok_of_ints {h : HalfPlane ℝ} {r : Ring ℝ} {cs : List (ℤ × ℤ)}
    (hsharp : ∀ v ∈ r, h.Sharp v) (hcut : h.cutRing r = cs.map Point.ofInts) (h3 : 3 ≤ cs.length) :
    r.clip h Tolerance.geometry = .ok (pruned 0 (cs.map Point.ofInts)) := by
  have hpos := HalfPlane.geometry_pos
  rw [clip_eq_ok hsharp hpos.le le_rfl, hcut, if_neg (by rw [List.length_map]; omega),
    pruned_map_ofInts hpos.le (by norm_num [Tolerance.geometry])]

end

end Housewright
