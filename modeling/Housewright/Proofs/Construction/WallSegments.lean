import Housewright.Proofs.Construction.Outside

/-!
# Wall segments

`Level.exists_buildSegments`: a level whose edges all have some length gets one wall segment on each
of them, as long as the edge, as thick as the walls are, and with the normal that the direction of
the footprint suggests.
-/

namespace Housewright

noncomputable section

/-- A wall segment on the edge from `a` to `b` of a level. -/
structure WallSegment.IsOn (s : WallSegment ℝ) (l : Level ℝ) (thickness : ℝ) (edgeIndex : ℕ)
    (a b : Point ℝ) : Prop where
  levelId : s.levelId = l.id
  edgeIndex : s.edgeIndex = edgeIndex
  start : s.start = ⟨a.x, a.y, l.elevation⟩
  finish : s.finish = ⟨b.x, b.y, l.elevation⟩
  thickness : s.thickness = thickness
  outward : s.outward = l.footprint.outer.windingNormal a b

theorem Level.exists_buildSegment (thickness : ℝ) (l : Level ℝ) (edgeIndex : ℕ) {a b : Point ℝ}
    (hlong : 0 < (Vec.between a b).length) :
    ∃ s, l.buildSegment thickness edgeIndex a b = .ok (some s) ∧
      s.IsOn l thickness edgeIndex a b := by
  have hne : ((Vec.between a b).length == 0.0) = false := by
    rw [beq_eq_false_iff_ne]
    norm_num [hlong.ne']
  have hone : (1.0 : ℝ) = 1 := by norm_num
  unfold buildSegment
  simp only [hne, Vec.divide_eq_ok _ hlong.ne']
  refine ⟨_, rfl, rfl, rfl, rfl, rfl, rfl, ?_⟩
  unfold Ring.windingNormal
  split_ifs
  · rw [hone, one_mul, neg_one_mul]
    simp only [Vec.direction, Vec.right, neg_div]
  · rw [hone, neg_neg, one_mul, neg_one_mul]
    simp only [Vec.direction, Vec.left, neg_div]

/-- **The wall segments of a level** stand on its edges, one on each. -/
theorem Level.exists_buildSegments (thickness : ℝ) {l : Level ℝ}
    (htwo : 2 ≤ l.footprint.outer.length)
    (hlong : ∀ e ∈ l.footprint.outer.edges, 0 < (Vec.between e.1 e.2).length) :
    ∃ segments, l.buildSegments thickness = .ok segments ∧
      List.Forall₂ (fun x s => WallSegment.IsOn s l thickness x.2 x.1.1 x.1.2)
        l.footprint.outer.edges.zipIdx segments := by
  have hbuild : ∀ x ∈ l.footprint.outer.edges.zipIdx, ∃ r,
      l.buildSegment thickness x.2 x.1.1 x.1.2 = .ok r ∧
        ∃ s, r = some s ∧ s.IsOn l thickness x.2 x.1.1 x.1.2 := by
    intro x hx
    obtain ⟨s, hs, hon⟩ := exists_buildSegment thickness l x.2
      (hlong x.1 (List.mem_of_getElem? (List.mem_zipIdx_iff_getElem?.1 hx)))
    exact ⟨some s, hs, s, rfl, hon⟩
  obtain ⟨found, hfound, hall⟩ := exists_mapM_eq_ok_forall₂ hbuild
  refine ⟨found.filterMap fun built => built, ?_,
    (forall₂_filterMap_id_iff hall.length_eq).2 hall⟩
  unfold buildSegments
  rw [if_neg (by omega)]
  exact bind_eq_ok.2 ⟨found, hfound, rfl⟩

end

end Housewright
