import Mathlib.Analysis.Convex.Join
import Housewright.Proofs.Exact.Stops

/-!
# Clipping a ring that turns left

What a half-plane leaves of a ring that turns left is compared with what it keeps of the hull.

* `HalfPlane.hull_cutRing_subset`: a clipped ring lies in the part of the hull that is kept;
* `HalfPlane.exists_along_hits`: the points of the line that are to the left of two edges that
  cross it lie between the crossings;
* `Ring.TurnsLeft.hull_cutRing`: the hull of a clipped ring is the part of the hull that is kept;
* `Ring.TurnsLeft.exists_clip` puts together what one cut does.
-/

namespace Housewright

noncomputable section

/-! ## What is left of the hull -/

namespace HalfPlane

variable {h : HalfPlane ℝ} {r : Ring ℝ} {p q s t x v : Point ℝ}

/-- Depth grows across a direction along the line. -/
theorem exists_direction (h : HalfPlane ℝ) :
    ∃ dx dy : ℝ, ∀ v w : Point ℝ, h.depth v - h.depth w = (v.x - w.x) * dy - (v.y - w.y) * dx := by
  cases hk : h.keep with
  | left =>
    refine ⟨h.b.x - h.a.x, h.b.y - h.a.y, fun v w => ?_⟩
    simp only [depth, hk, sideOfLine]
    ring
  | right =>
    refine ⟨h.a.x - h.b.x, h.a.y - h.b.y, fun v w => ?_⟩
    simp only [depth, hk, sideOfLine]
    ring

/-- What is parallel to a direction is a multiple of it. -/
theorem exists_multiple {dx dy : ℝ} (hne : dx ^ 2 + dy ^ 2 ≠ 0) {v w : Point ℝ}
    (hpar : (v.x - w.x) * dy - (v.y - w.y) * dx = 0) :
    ∃ l, v.x = w.x + l * dx ∧ v.y = w.y + l * dy := by
  refine ⟨((v.x - w.x) * dx + (v.y - w.y) * dy) / (dx ^ 2 + dy ^ 2), ?_, ?_⟩
  · field_simp
    linear_combination dy * hpar
  · field_simp
    linear_combination -dx * hpar

/-- An edge meets the line on itself. -/
@[simp] theorem spanned_hit (h : HalfPlane ℝ) (p q : Point ℝ) : p.spanned q (h.hit p q) = 0 := by
  rw [hit, Point.spanned_along_right, Point.spanned_return, Point.spanned_self]
  ring

/-- What an edge spans with a point of the line depends on how far the point is from the hit. -/
theorem spanned_of_step {dx dy l : ℝ}
    (hdepth : ∀ v w : Point ℝ, h.depth v - h.depth w = (v.x - w.x) * dy - (v.y - w.y) * dx)
    (hx : x.x = (h.hit p q).x + l * dx) (hy : x.y = (h.hit p q).y + l * dy) :
    p.spanned q x = l * (h.depth q - h.depth p) := by
  have hspan : p.spanned q x = p.spanned q (h.hit p q) + l * (h.depth q - h.depth p) := by
    rw [hdepth, Point.spanned, Point.spanned, hx, hy]
    ring
  rwa [spanned_hit, zero_add] at hspan

/-- **Between the hits** of an edge that leaves a half-plane and one that enters it lies every
point of the line that is to the left of both. -/
theorem exists_along_hits (hp : 0 ≤ h.depth p) (hq : h.depth q < 0) (hs : h.depth s < 0)
    (ht : 0 ≤ h.depth t) (hx : h.depth x = 0) (hleave : 0 ≤ p.spanned q x)
    (henter : 0 ≤ s.spanned t x) :
    ∃ u, 0 ≤ u ∧ u ≤ 1 ∧ x = (h.hit p q).along (h.hit s t) u := by
  obtain ⟨dx, dy, hdepth⟩ := h.exists_direction
  have hlength : dx ^ 2 + dy ^ 2 ≠ 0 := by
    intro hzero
    have hdx : dx = 0 := by nlinarith
    have hdy : dy = 0 := by nlinarith
    have hsame := hdepth p q
    rw [hdx, hdy] at hsame
    linarith
  -- a point of the line, as seen from another one
  have hline (v w : Point ℝ) (hv : h.depth v = 0) (hw : h.depth w = 0) :
      ∃ l, v.x = w.x + l * dx ∧ v.y = w.y + l * dy := by
    refine exists_multiple hlength ?_
    rw [← hdepth, hv, hw, sub_zero]
  have he : h.depth (h.hit p q) = 0 := h.depth_hit (by linarith)
  have hf : h.depth (h.hit s t) = 0 := h.depth_hit (by linarith)
  obtain ⟨l, hlx, hly⟩ := hline x (h.hit p q) hx he
  obtain ⟨m, hmx, hmy⟩ := hline (h.hit s t) (h.hit p q) hf he
  have hl : l ≤ 0 := by
    rw [spanned_of_step hdepth hlx hly] at hleave
    by_contra hpos
    nlinarith
  have hml : m ≤ l := by
    have hstep : s.spanned t x = (l - m) * (h.depth t - h.depth s) :=
      spanned_of_step hdepth (by linarith) (by linarith)
    rw [hstep] at henter
    by_contra hneg
    nlinarith
  obtain hm | hm := (hml.trans hl).eq_or_lt
  · obtain rfl : l = 0 := le_antisymm hl (hm ▸ hml)
    refine ⟨0, le_rfl, zero_le_one, ?_⟩
    rw [Point.along_zero]
    exact Point.eq_of_coordinates (by linarith) (by linarith)
  · have hne : m ≠ 0 := hm.ne
    refine ⟨l / m, div_nonneg_of_nonpos hl hm.le, (div_le_one_of_neg hm).2 hml, ?_⟩
    refine Point.eq_of_coordinates ?_ ?_
    · rw [Point.along, hmx, hlx]
      field_simp
      ring
    · rw [Point.along, hmy, hly]
      field_simp
      ring

/-- A segment that leaves a half-plane crosses the line, after every point that is inside. -/
theorem exists_crossing {x y z : ℝ × ℝ} (hy : 0 ≤ h.depthMap y) (hz : h.depthMap z < 0)
    (hxyz : x ∈ segment ℝ y z) (hx : 0 ≤ h.depthMap x) :
    ∃ c ∈ segment ℝ y z, h.depthMap c = 0 ∧ x ∈ segment ℝ y c := by
  rw [segment_eq_image_lineMap] at hxyz
  obtain ⟨t, ⟨ht0, ht1⟩, rfl⟩ := hxyz
  have hpos : 0 < h.depthMap y - h.depthMap z := by linarith
  have hdepth (u : ℝ) : h.depthMap (AffineMap.lineMap y z u) =
      h.depthMap y - u * (h.depthMap y - h.depthMap z) := by
    rw [AffineMap.apply_lineMap, AffineMap.lineMap_apply_ring]
    ring
  rw [hdepth] at hx
  let s := h.depthMap y / (h.depthMap y - h.depthMap z)
  have hts : t ≤ s := (le_div_iff₀ hpos).2 (by linarith)
  have hs1 : s ≤ 1 := (div_le_one hpos).2 (by linarith)
  refine ⟨AffineMap.lineMap y z s, ?_, ?_, ?_⟩
  · exact lineMap_mem_segment ℝ y z ⟨ht0.trans hts, hs1⟩
  · rw [hdepth, div_mul_cancel₀ _ hpos.ne', sub_self]
  · obtain hs0 | hs0 := (ht0.trans hts).eq_or_lt
    · obtain rfl : t = 0 := le_antisymm (hs0 ▸ hts) ht0
      rw [AffineMap.lineMap_apply_zero]
      exact left_mem_segment ℝ _ _
    · have hback := AffineMap.lineMap_lineMap_right y z s (t / s)
      rw [div_mul_cancel₀ _ hs0.ne'] at hback
      rw [← hback]
      exact lineMap_mem_segment ℝ _ _ ⟨div_nonneg ht0 hs0.le, (div_le_one hs0).2 hts⟩

/-- The vertices of a ring that are inside. -/
def inside (h : HalfPlane ℝ) (r : Ring ℝ) : Ring ℝ := r.filter fun p => 0 ≤ h.depth p

/-- The vertices of a ring that are outside. -/
def outside (h : HalfPlane ℝ) (r : Ring ℝ) : Ring ℝ := r.filter fun p => h.depth p < 0

theorem mem_inside : v ∈ h.inside r ↔ v ∈ r ∧ 0 ≤ h.depth v := by
  rw [inside, List.mem_filter, decide_eq_true_eq]

theorem mem_outside : v ∈ h.outside r ↔ v ∈ r ∧ h.depth v < 0 := by
  rw [outside, List.mem_filter, decide_eq_true_eq]

theorem vertexSet_eq_union (h : HalfPlane ℝ) (r : Ring ℝ) :
    r.vertexSet = (h.inside r).vertexSet ∪ (h.outside r).vertexSet := by
  ext x
  constructor
  · rintro ⟨p, hp, rfl⟩
    exact (le_or_gt 0 (h.depth p)).imp (fun hin => ⟨p, mem_inside.2 ⟨hp, hin⟩, rfl⟩)
      (fun hout => ⟨p, mem_outside.2 ⟨hp, hout⟩, rfl⟩)
  · rintro (⟨p, hp, rfl⟩ | ⟨p, hp, rfl⟩)
    · exact ⟨p, (mem_inside.1 hp).1, rfl⟩
    · exact ⟨p, (mem_outside.1 hp).1, rfl⟩

/-- A vertex that is inside stays. -/
theorem mem_cutRing (hv : v ∈ r) (hin : 0 ≤ h.depth v) : v ∈ h.cutRing r := by
  obtain ⟨i, hi0, hi, rfl⟩ := Ring.exists_lap hv
  obtain ⟨i, rfl⟩ := Nat.exists_eq_add_one_of_ne_zero hi0.ne'
  rw [cutRing, Ring.edgesInto_eq_map, List.flatMap_map]
  refine List.mem_flatMap.2 ⟨i, List.mem_range.2 hi, ?_⟩
  unfold cut
  simp only [hin, if_true]
  split_ifs
  · exact List.mem_cons_self
  · exact List.mem_cons_of_mem _ List.mem_cons_self

/-- Where an edge changes sides the clipped ring has a vertex on the line. -/
theorem hit_mem_cutRing {e : Point ℝ × Point ℝ} (he : e ∈ r.edgesInto)
    (hcross : 0 ≤ h.depth e.1 ↔ h.depth e.2 < 0) : h.hit e.1 e.2 ∈ h.cutRing r := by
  refine List.mem_flatMap.2 ⟨e, he, ?_⟩
  unfold cut
  by_cases hp : 0 ≤ h.depth e.1
  · have hq : ¬ 0 ≤ h.depth e.2 := not_le.2 (hcross.1 hp)
    simp [hp, hq]
  · have hq : 0 ≤ h.depth e.2 := not_lt.1 (mt hcross.2 hp)
    simp [hp, hq]

/-- **Clipping adds nothing**: the clipped ring lies in the hull, and on the side that is kept. -/
theorem hull_cutRing_subset (h : HalfPlane ℝ) (r : Ring ℝ) :
    (h.cutRing r).hull ⊆ r.hull ∩ h.keptSide := by
  refine convexHull_min ?_ ((convex_convexHull ℝ _).inter h.convex_keptSide)
  rintro - ⟨v, hv, rfl⟩
  obtain ⟨e, he, hv⟩ := List.mem_flatMap.1 hv
  obtain ⟨hp, hq⟩ := Ring.mem_of_mem_edgesInto he
  have hhit (hcross : 0 ≤ h.depth e.1 ↔ h.depth e.2 < 0) :
      (h.hit e.1 e.2).coords ∈ r.hull ∩ h.keptSide := by
    have hne : h.depth e.1 ≠ h.depth e.2 := by
      intro heq
      rw [heq] at hcross
      exact (not_iff_self (not_le.trans hcross.symm)).elim
    refine ⟨?_, (h.depth_hit hne).ge⟩
    rw [hit, Point.coords_along]
    exact (convex_convexHull ℝ _).lineMap_mem (Ring.coords_mem_hull hp) (Ring.coords_mem_hull hq)
      (parameter_mem hcross)
  unfold cut at hv
  split_ifs at hv with hin hin' hin'
  · obtain rfl := List.mem_singleton.1 hv
    exact ⟨Ring.coords_mem_hull hq, hin'⟩
  · obtain rfl := List.mem_singleton.1 hv
    exact hhit (iff_of_true hin (not_le.1 hin'))
  · obtain rfl | hv := List.mem_cons.1 hv
    · exact hhit (iff_of_false hin (not_lt.2 hin'))
    · obtain rfl := List.mem_singleton.1 hv
      exact ⟨Ring.coords_mem_hull hq, hin'⟩
  · cases hv

end HalfPlane

/-- A property that holds at first and not for all points is lost somewhere. -/
theorem exists_lost {P : Point ℝ → Prop} {x y : Point ℝ} {points : List (Point ℝ)} (hx : P x)
    (hy : y ∈ points) (hnot : ¬ P y) : ∃ e ∈ (x :: points).zip points, P e.1 ∧ ¬ P e.2 := by
  induction points generalizing x with
  | nil => cases hy
  | cons p rest ih =>
    by_cases hp : P p
    · obtain rfl | hy := List.mem_cons.1 hy
      · exact absurd hp hnot
      · obtain ⟨e, he, hlost⟩ := ih hp hy
        exact ⟨e, List.mem_cons_of_mem _ he, hlost⟩
    · exact ⟨(x, p), List.mem_cons_self, hx, hp⟩

/-- A property that holds at last and not for all points is gained somewhere. -/
theorem exists_gained {P : Point ℝ → Prop} {x y : Point ℝ} {points : List (Point ℝ)}
    (hy : y ∈ x :: points) (hnot : ¬ P y) (hlast : P (points.getLastD x)) :
    ∃ e ∈ (x :: points).zip points, ¬ P e.1 ∧ P e.2 := by
  induction points generalizing x y with
  | nil =>
    obtain rfl := List.mem_singleton.1 hy
    exact absurd hlast hnot
  | cons p rest ih =>
    rw [List.getLastD_cons] at hlast
    obtain rfl | hy := List.mem_cons.1 hy
    · by_cases hp : P p
      · exact ⟨(y, p), List.mem_cons_self, hnot, hp⟩
      · obtain ⟨e, he, hgained⟩ := ih List.mem_cons_self hp hlast
        exact ⟨e, List.mem_cons_of_mem _ he, hgained⟩
    · obtain ⟨e, he, hgained⟩ := ih hy hnot hlast
      exact ⟨e, List.mem_cons_of_mem _ he, hgained⟩

namespace Ring

variable {h : HalfPlane ℝ} {r : Ring ℝ}

/-- A ring with vertices on both sides leaves a half-plane and enters it. -/
theorem exists_crossings {v w : Point ℝ} (hv : v ∈ r) (hin : 0 ≤ h.depth v) (hw : w ∈ r)
    (hout : h.depth w < 0) :
    (∃ e ∈ r.edgesInto, 0 ≤ h.depth e.1 ∧ h.depth e.2 < 0) ∧
      ∃ e ∈ r.edgesInto, h.depth e.1 < 0 ∧ 0 ≤ h.depth e.2 := by
  obtain ⟨last, hlast⟩ := Option.isSome_iff_exists.1
    (List.getLast?_isSome.2 (List.ne_nil_of_mem hv))
  have hend : r.getLastD last = last := by rw [List.getLastD_eq_getLast?, hlast, Option.getD_some]
  have hedges : r.edgesInto = (last :: r).zip r := by rw [edgesInto, hlast]
  rw [hedges]
  by_cases hlastIn : 0 ≤ h.depth last
  · have hlost := exists_lost (P := fun p => 0 ≤ h.depth p) hlastIn hw (not_le.2 hout)
    have hgained := exists_gained (P := fun p => 0 ≤ h.depth p) (List.mem_cons_of_mem last hw)
      (not_le.2 hout) (hend.symm ▸ hlastIn)
    simp only [not_le] at hlost hgained
    exact ⟨hlost, hgained⟩
  · have hlost := exists_lost (P := fun p => h.depth p < 0) (not_le.1 hlastIn) hv (not_lt.2 hin)
    have hgained := exists_gained (P := fun p => h.depth p < 0) (List.mem_cons_of_mem last hv)
      (not_lt.2 hin) (hend.symm ▸ not_le.1 hlastIn)
    simp only [not_lt] at hlost hgained
    exact ⟨hgained, hlost⟩

/-- The points of the hull on the line lie between two vertices of the clipped ring. -/
theorem TurnsLeft.mem_hull_cutRing_of_depth_eq_zero (hr : r.TurnsLeft) {v w x : Point ℝ}
    (hv : v ∈ r) (hin : 0 ≤ h.depth v) (hw : w ∈ r) (hout : h.depth w < 0)
    (hx : x.coords ∈ r.hull) (hline : h.depth x = 0) : x.coords ∈ (h.cutRing r).hull := by
  obtain ⟨⟨e, he, hleave⟩, f, hf, henter⟩ := exists_crossings hv hin hw hout
  -- the hull lies to the left of every edge
  have hleft (e : Point ℝ × Point ℝ) (he : e ∈ r.edgesInto) : 0 ≤ e.1.spanned e.2 x := by
    have hside : r.hull ⊆ (HalfPlane.mk e.1 e.2 .right).keptSide := by
      refine convexHull_min ?_ (HalfPlane.convex_keptSide _)
      rintro - ⟨u, hu, rfl⟩
      exact (hr.left_of_edge he hu).trans_eq (HalfPlane.depth_right _ _ _).symm
    exact (hside hx).trans_eq (HalfPlane.depth_right _ _ _)
  obtain ⟨u, hu0, hu1, rfl⟩ := HalfPlane.exists_along_hits hleave.1 hleave.2 henter.1 henter.2
    hline (hleft e he) (hleft f hf)
  rw [Point.coords_along]
  exact (convex_convexHull ℝ _).lineMap_mem
    (coords_mem_hull (HalfPlane.hit_mem_cutRing he (iff_of_true hleave.1 hleave.2)))
    (coords_mem_hull (HalfPlane.hit_mem_cutRing hf
      (iff_of_false (not_le.2 henter.1) (not_lt.2 henter.2)))) ⟨hu0, hu1⟩

/-- **The hull of a clipped ring** is the part of the hull that the half-plane keeps. -/
theorem TurnsLeft.hull_cutRing (hr : r.TurnsLeft) : (h.cutRing r).hull = r.hull ∩ h.keptSide := by
  refine (h.hull_cutRing_subset r).antisymm ?_
  rintro x ⟨hx, hkept⟩
  have hinside : (h.inside r).hull ⊆ (h.cutRing r).hull := by
    refine convexHull_mono ?_
    rintro - ⟨p, hp, rfl⟩
    obtain ⟨hp, hin⟩ := HalfPlane.mem_inside.1 hp
    exact ⟨p, HalfPlane.mem_cutRing hp hin, rfl⟩
  have houtside : (h.outside r).hull ⊆ {x | h.depthMap x < 0} := by
    refine convexHull_min ?_ ((convex_Iio 0).affine_preimage h.depthMap)
    rintro - ⟨p, hp, rfl⟩
    exact (HalfPlane.mem_outside.1 hp).2
  have hsplit := h.vertexSet_eq_union r
  rw [hull, hsplit] at hx
  obtain hnone | hinsideNe := (h.inside r).vertexSet.eq_empty_or_nonempty
  · rw [hnone, Set.empty_union] at hx
    exact absurd (show 0 ≤ h.depthMap x from hkept) (not_le.2 (houtside hx))
  obtain hnone | houtsideNe := (h.outside r).vertexSet.eq_empty_or_nonempty
  · rw [hnone, Set.union_empty] at hx
    exact hinside hx
  rw [convexHull_union hinsideNe houtsideNe] at hx
  obtain ⟨y, hy, z, hz, hxyz⟩ := mem_convexJoin.1 hx
  have hyIn : y ∈ (h.cutRing r).hull := hinside hy
  -- the way from inside to outside crosses the line, after the point that is kept
  obtain ⟨c, hc, hline, hxc⟩ :=
    HalfPlane.exists_crossing (h.hull_cutRing_subset r hyIn).2 (houtside hz) hxyz hkept
  have hcHull : c ∈ r.hull := by
    refine (convex_convexHull ℝ _).segment_subset ?_ ?_ hc
    · exact convexHull_mono (hsplit ▸ Set.subset_union_left) hy
    · exact convexHull_mono (hsplit ▸ Set.subset_union_right) hz
  obtain ⟨-, v, hv, -⟩ := hinsideNe
  obtain ⟨-, w, hw, -⟩ := houtsideNe
  obtain ⟨hv, hin⟩ := HalfPlane.mem_inside.1 hv
  obtain ⟨hw, hout⟩ := HalfPlane.mem_outside.1 hw
  have hcCut : c ∈ (h.cutRing r).hull :=
    hr.mem_hull_cutRing_of_depth_eq_zero (x := ⟨c.1, c.2⟩) hv hin hw hout hcHull hline
  exact (convex_convexHull ℝ _).segment_subset hyIn hcCut hxc

/-- Fewer than three points turn left. -/
theorem turnsLeft_of_length_lt (h3 : r.length < 3) : r.TurnsLeft :=
  List.triplewise_iff_getElem.2 fun i j k hij hjk hk => by omega

theorem vertexSet_pruned_zero (r : Ring ℝ) : vertexSet (r.pruned 0) = r.vertexSet := by
  ext x
  simp only [vertexSet, Set.mem_ofPred_eq, mem_pruned_zero]

/-- **One cut** of a ring that turns left, when no vertex is kept that is outside: the ring turns
left again and lies in what the half-plane keeps of the hull.  It has all of that as its hull when
no points are dropped but repeated ones. -/
theorem TurnsLeft.exists_clip (hr : r.TurnsLeft) (h3 : 3 ≤ r.length) (hsharp : ∀ v ∈ r, h.Sharp v) :
    ∃ s, r.clip h Tolerance.geometry = .ok s ∧ s.TurnsLeft ∧ s.hull ⊆ r.hull ∩ h.keptSide ∧
      (h.DropsOnlyRepeats Tolerance.geometry r → s.hull = r.hull ∩ h.keptSide) := by
  have hpos := HalfPlane.geometry_pos.le
  refine ⟨_, clip_eq_ok hsharp hpos le_rfl, ?_⟩
  split
  · rename_i hshort
    exact ⟨turnsLeft_of_length_lt hshort, hr.hull_cutRing.subset, fun _ => hr.hull_cutRing⟩
  · rename_i hlong
    refine ⟨hr.pruned_cutRing h3 hpos, ?_, fun hdrops => ?_⟩
    · rw [← hr.hull_cutRing]
      refine convexHull_mono ?_
      rintro - ⟨v, hv, rfl⟩
      exact ⟨v, (pruned_sublist _ _).subset hv, rfl⟩
    · have hsame := hdrops (not_lt.1 hlong)
      rw [withoutRepeats_eq_ok, withoutRepeats_eq_ok, Except.ok.injEq] at hsame
      rw [hsame, hull, vertexSet_pruned_zero]
      exact hr.hull_cutRing

end Ring

end

end Housewright
