import Housewright.Proofs.Exact.Clipping

/-!
# The vertices of a clipped ring

Whatever the ring is and however the half-plane lies, a clipped ring has no vertex outside: its
vertices are vertices of the ring that the half-plane keeps, and points exactly on the line.

* `isOnLine_of_segmentMeetsLine?`: where a segment meets a line is a point of the line, also if it
  is a little beyond the end of the segment;
* `HalfPlane.Leaves` says what clipping may leave, and `Ring.leaves_of_mem_clipEdge`,
  `Ring.leaves_of_mem_clip` that an edge, and the ring as a whole, leave nothing else;
* `Ring.sublist_of_clip`: a ring that is kept as a whole only loses vertices;
* `Ring.clip_leaves`: so clipping once more brings no new vertex.
-/

namespace Housewright

noncomputable section

/-- The point lies on the line through two different points. -/
structure Point.IsOnLine (v a b : Point ℝ) : Prop where
  ends_ne : a ≠ b
  side : sideOfLine v a b = 0

/-- **Where a segment meets a line** is a point of the line. -/
theorem isOnLine_of_segmentMeetsLine? {p q a b v : Point ℝ}
    (h : segmentMeetsLine? p q a b = .ok (some v)) : v.IsOnLine a b := by
  unfold segmentMeetsLine? at h
  simp only at h
  split_ifs at h with hflat
  · cases h
  · have hsteep : (Vec.between p q).x * (Vec.between a b).y -
        (Vec.between p q).y * (Vec.between a b).x ≠ 0 := by
      intro hzero
      rw [hzero] at hflat
      exact hflat (abs_zero.trans_lt HalfPlane.geometry_pos)
    rw [divide_eq_ok _ hsteep] at h
    obtain ⟨t, ht, h⟩ := bind_eq_ok.1 h
    -- the parameter of the meeting point takes away the side of `p`
    have hparameter : t * ((Vec.between p q).x * (Vec.between a b).y -
        (Vec.between p q).y * (Vec.between a b).x) =
        (Vec.between p a).x * (Vec.between a b).y - (Vec.between p a).y * (Vec.between a b).x := by
      rw [← Except.ok.inj ht, div_mul_cancel₀ _ hsteep]
    split_ifs at h
    · cases pure_eq_ok.1 h
    · obtain rfl := Option.some_inj.1 (pure_eq_ok.1 h)
      constructor
      · rintro rfl
        simp [Vec.between] at hsteep
      · simp only [sideOfLine, Vec.between] at hparameter ⊢
        linear_combination hparameter

namespace HalfPlane

variable {h : HalfPlane ℝ} {eps : ℝ}

/-- What clipping may leave of some points: those that the half-plane keeps, and points on its
line. -/
structure Leaves (h : HalfPlane ℝ) (eps : ℝ) (points : List (Point ℝ)) (v : Point ℝ) : Prop where
  kept : h.keeps eps v = true
  old_or_on_line : v ∈ points ∨ v.IsOnLine h.a h.b

theorem depth_eq_zero_of_isOnLine {v : Point ℝ} (hv : v.IsOnLine h.a h.b) : h.depth v = 0 := by
  rcases h.sideOfLine_cases with hside | hside
  · rw [← hside, hv.side]
  · rw [← neg_eq_zero, ← hside, hv.side]

/-- Points on the line are kept. -/
theorem keeps_of_isOnLine (heps : 0 ≤ eps) {v : Point ℝ} (hv : v.IsOnLine h.a h.b) :
    h.keeps eps v = true := by
  rw [keeps_iff, depth_eq_zero_of_isOnLine hv]
  exact neg_nonpos.2 heps

end HalfPlane

namespace Ring

variable {h : HalfPlane ℝ} {eps : ℝ} {r s : Ring ℝ} {v : Point ℝ}

/-- What an edge adds to the clipped ring is its end, if that is kept, or a point on the line. -/
theorem leaves_of_mem_clipEdge (heps : 0 ≤ eps) {p q : Point ℝ} {points : List (Point ℝ)}
    (hcut : clipEdge h eps p q = .ok points) (hv : v ∈ points) : h.Leaves eps [q] v := by
  have hend (hq : h.keeps eps q = true) : h.Leaves eps [q] q :=
    ⟨hq, .inl (List.mem_singleton_self q)⟩
  have hhit {hit : Option (Point ℝ)} (hmeets : segmentMeetsLine? p q h.a h.b = .ok hit)
      (hv : v ∈ hit.toList) : h.Leaves eps [q] v := by
    obtain rfl := Option.mem_toList.1 hv
    have hline := isOnLine_of_segmentMeetsLine? hmeets
    exact ⟨HalfPlane.keeps_of_isOnLine heps hline, .inr hline⟩
  unfold clipEdge at hcut
  split at hcut
  case h_1 hp hq =>
    obtain rfl := pure_eq_ok.1 hcut
    obtain rfl := List.mem_singleton.1 hv
    exact hend hq
  case h_2 =>
    obtain ⟨hit, hmeets, hcut⟩ := bind_eq_ok.1 hcut
    obtain rfl := pure_eq_ok.1 hcut
    exact hhit hmeets hv
  case h_3 hp hq =>
    obtain ⟨hit, hmeets, hcut⟩ := bind_eq_ok.1 hcut
    obtain rfl := pure_eq_ok.1 hcut
    rcases List.mem_append.1 hv with hv | hv
    · exact hhit hmeets hv
    · obtain rfl := List.mem_singleton.1 hv
      exact hend hq
  case h_4 =>
    obtain rfl := pure_eq_ok.1 hcut
    cases hv

/-- **A clipped ring** has no vertices but those of the ring that are kept and points on the
line. -/
theorem leaves_of_mem_clip (heps : 0 ≤ eps) (hclip : r.clip h eps = .ok s) (hv : v ∈ s) :
    h.Leaves eps r v := by
  obtain ⟨cuts, hcuts, hs⟩ := bind_eq_ok.1 hclip
  simp only at hs
  have hmem : v ∈ cuts.flatten := by
    split_ifs at hs
    · obtain rfl := pure_eq_ok.1 hs
      exact hv
    · rw [withoutRepeats_eq_ok] at hs
      obtain rfl := Except.ok.inj hs
      exact (pruned_sublist eps _).subset hv
  obtain ⟨points, hpoints, hvp⟩ := List.mem_flatten.1 hmem
  obtain ⟨e, he, hcut⟩ := exists_of_forall₂_right (mapM_eq_ok.1 hcuts) hpoints
  obtain ⟨hkept, hold⟩ := leaves_of_mem_clipEdge heps hcut hvp
  refine ⟨hkept, hold.imp_left fun hq => ?_⟩
  rw [List.mem_singleton.1 hq]
  exact (mem_of_mem_edgesInto he).2

/-- A ring that is kept as a whole only loses vertices. -/
theorem sublist_of_clip (hr : ∀ v ∈ r, h.keeps eps v = true) (hclip : r.clip h eps = .ok s) :
    s.Sublist r := by
  rw [clip_eq_ok_of_keeps hr] at hclip
  obtain rfl := Except.ok.inj hclip
  split
  · exact List.Sublist.refl r
  · exact pruned_sublist eps r

/-- **Clipping leaves no vertex outside.**  Every vertex that is left passes the test of the
half-plane, and is a vertex of the ring or lies exactly on the line; so clipping the result by the
same half-plane leaves vertices that it already has, in the same order.  The ring may cross itself,
and the line may be given by one point twice, which leaves only vertices of the ring. -/
theorem clip_leaves (r : Ring ℝ) (h : HalfPlane ℝ) {eps : ℝ} (heps : 0 ≤ eps) :
    ∃ s, r.clip h eps = .ok s ∧
      (∀ v ∈ s, h.Leaves eps r v) ∧ ∃ s', s.clip h eps = .ok s' ∧ s'.Sublist s := by
  obtain ⟨s, hs⟩ := r.exists_clip h eps
  have hleaves (v : Point ℝ) (hv : v ∈ s) : h.Leaves eps r v := leaves_of_mem_clip heps hs hv
  obtain ⟨s', hs'⟩ := s.exists_clip h eps
  exact ⟨s, hs, hleaves, s', hs', sublist_of_clip (fun v hv => (hleaves v hv).kept) hs'⟩

/-- A ring that crosses itself. -/
def bowTie : Ring ℝ := [⟨0, 0⟩, ⟨4, 4⟩, ⟨4, 0⟩, ⟨0, 4⟩]

/-- Of the bow tie an upright line leaves two vertices and two points on the line. -/
theorem bowTie_clip_leaves : (0 : ℝ) ≤ Tolerance.geometry ∧
    ∃ s, bowTie.clip ⟨⟨1, 0⟩, ⟨1, 2⟩, .left⟩ Tolerance.geometry = .ok s ∧
    s = [⟨1, 1⟩, ⟨4, 4⟩, ⟨4, 0⟩, ⟨1, 3⟩] ∧
    (∀ v ∈ s, HalfPlane.Leaves ⟨⟨1, 0⟩, ⟨1, 2⟩, .left⟩ Tolerance.geometry bowTie v) ∧
    ∃ s', s.clip ⟨⟨1, 0⟩, ⟨1, 2⟩, .left⟩ Tolerance.geometry = .ok s' ∧ s'.Sublist s := by
  have hsharp : ∀ v ∈ bowTie, (HalfPlane.mk ⟨1, 0⟩ ⟨1, 2⟩ .left).Sharp v := by
    norm_num [bowTie, HalfPlane.Sharp, HalfPlane.depth, sideOfLine, Tolerance.geometry]
  have hcut : (HalfPlane.mk ⟨1, 0⟩ ⟨1, 2⟩ .left).cutRing bowTie =
      [(1, 1), (4, 4), (4, 0), (1, 3)].map Point.ofInts := by
    norm_num [HalfPlane.cutRing, bowTie, edgesInto, HalfPlane.cut, HalfPlane.depth, sideOfLine,
      HalfPlane.hit, Point.along, Point.ofInts]
  have hleft := clip_eq_ok_of_ints hsharp hcut (by norm_num)
  obtain ⟨s, hs, hleaves, hagain⟩ :=
    clip_leaves bowTie ⟨⟨1, 0⟩, ⟨1, 2⟩, .left⟩ HalfPlane.geometry_pos.le
  refine ⟨HalfPlane.geometry_pos.le, s, hs, ?_, hleaves, hagain⟩
  have hkept : pruned 0 ([(1, 1), (4, 4), (4, 0), (1, 3)].map Point.ofInts) =
      [(1, 1), (4, 4), (4, 0), (1, 3)].map Point.ofInts := by
    norm_num [pruned, distant, unclosed, Point.gap_ofInts_pos_iff, Point.gap_ofInts_le_zero_iff]
  rw [← Except.ok.inj (hleft.symm.trans hs), hkept]
  norm_num [Point.ofInts]

end Ring

end

end Housewright
