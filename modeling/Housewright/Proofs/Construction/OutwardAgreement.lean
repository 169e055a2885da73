import Housewright.Proofs.Construction.WallSegments

/-!
# Openings, panels and wall segments agree on the outside

The normals of openings and panels are probed for, those of wall segments are told from the
direction of the ring.

* `House.exists_placeOpenings_outward` and `House.outwardAt_of_mem_panels` say what openings and
  panels find: the normal that the direction of the ring suggests;
* `House.outward_agrees`: on strictly convex footprints this is the one that points away from the
  interior.
-/

namespace Housewright

noncomputable section

/-- Every edge of a footprint has some length, and the footprint lies on the side of it that its
direction suggests. -/
def House.SidesSettled (h : House ℝ) : Prop :=
  ∀ l ∈ h.levels, ∀ e ∈ l.footprint.outer.edges,
    l.footprint.outer.LiesInside e.1 e.2 ∧ 0 < (Vec.between e.1 e.2).length

/-- The normal that the direction of the footprint suggests for the edge with an index of the level
with an index. -/
def House.OutwardAt (h : House ℝ) (levelIndex edgeIndex : ℕ) (n : Vec ℝ) : Prop :=
  ∃ l a b, h.levels[levelIndex]? = some l ∧ l.footprint.outer.edges[edgeIndex]? = some (a, b) ∧
    n = l.footprint.outer.windingNormal a b

section Openings

variable {h : House ℝ} {o : Opening ℝ}

/-- An opening that does not say which side of its edge is outside is placed with the normal that
the direction of the footprint suggests. -/
theorem House.exists_placeOpening_outward (hsides : h.SidesSettled)
    (hopen : o.edge.outwardSide = none) :
    ∃ r, h.placeOpening o = .ok r ∧
      ∀ p, r = some p → h.OutwardAt p.levelIndex p.edgeIndex p.outward := by
  obtain hnone | ⟨i, e, l, -, hl, -, hlt, hplace⟩ := h.placeOpening_cases o
  · exact ⟨none, hnone, fun p hp => by cases hp⟩
  · have hedge := Footprint.edge_eq_ok hlt
    have hmem := Ring.getElem?_edges_eq_some.2 ⟨hlt, rfl⟩
    obtain ⟨hside, hlong⟩ := hsides l (List.mem_of_getElem? hl) _ (List.mem_of_getElem? hmem)
    generalize l.footprint.outer.around e = a at *
    generalize l.footprint.outer.around (e + 1) = b at *
    rw [hplace]
    by_cases hshort : (Vec.between a b).length ≤ Tolerance.geometry
    · exact ⟨none, Opening.placeOn_eq_none hedge hshort, fun p hp => by cases hp⟩
    · rw [Opening.placeOn_eq_map hedge (not_le.1 hshort), Opening.outward, hopen]
      simp only [Ring.outwardNormal_eq_ok hside hlong]
      refine ⟨_, rfl, fun p hp => ?_⟩
      obtain rfl := Option.some_inj.1 hp
      exact ⟨l, a, b, hl, hmem, rfl⟩

/-- **Openings** that do not say which side is outside have the normals that the directions of the
footprints suggest. -/
theorem House.exists_placeOpenings_outward (hsides : h.SidesSettled)
    (hopen : ∀ o ∈ h.openings, o.edge.outwardSide = none) :
    ∃ placed, h.placeOpenings = .ok placed ∧
      ∀ p ∈ placed, h.OutwardAt p.levelIndex p.edgeIndex p.outward := by
  obtain ⟨found, hfound, hall⟩ := exists_mapM_eq_ok_forall₂ fun o ho =>
    exists_placeOpening_outward hsides (hopen o ho)
  refine ⟨found.filterMap id, bind_eq_ok.2 ⟨found, hfound, rfl⟩, fun p hp => ?_⟩
  obtain ⟨r, hr, rfl⟩ := List.mem_filterMap.1 hp
  obtain ⟨o, -, ho⟩ := exists_of_forall₂_right hall hr
  exact ho p rfl

end Openings

/-! ## Panels -/

/-- Every panel was built on one of the edges, with the openings placed there. -/
theorem House.exists_buildPanel_of_mem {α : Type} [Scalar α] {h : House α} {thickness : α}
    {placed : List (PlacedOpening α)} {panels : List (FacadePanel α)}
    (hb : h.buildPanels placed thickness = .ok panels) {p : FacadePanel α} (hp : p ∈ panels) :
    ∃ (i e : ℕ) (l : Level α) (a b : Point α), h.levels[i]? = some l ∧
      (Ring.edges l.footprint.outer)[e]? = some (a, b) ∧
      l.buildPanel thickness i e a b (openingsOn placed i e) = .ok (some p) := by
  simp only [buildPanels, bind_eq_ok, pure_eq_ok] at hb
  obtain ⟨found, hfound, rfl⟩ := hb
  obtain ⟨ofLevel, hmem, hp⟩ := List.mem_flatten.1 hp
  obtain ⟨⟨l, i⟩, hl, hlevel⟩ := exists_of_forall₂_right (mapM_eq_ok.1 hfound) hmem
  unfold Level.buildPanels at hlevel
  split_ifs at hlevel with hfew
  · obtain rfl := pure_eq_ok.1 hlevel
    cases hp
  · simp only [bind_eq_ok, pure_eq_ok] at hlevel
    obtain ⟨ofEdges, hofEdges, rfl⟩ := hlevel
    obtain ⟨r, hr, rfl⟩ := List.mem_filterMap.1 hp
    obtain ⟨⟨⟨a, b⟩, e⟩, he, hpanel⟩ := exists_of_forall₂_right (mapM_eq_ok.1 hofEdges) hr
    exact ⟨i, e, l, a, b, List.mem_zipIdx_iff_getElem?.1 hl, List.mem_zipIdx_iff_getElem?.1 he,
      hpanel⟩

/-- **A panel** has the normal that the direction of its footprint suggests, if the openings on its
edge have. -/
theorem House.outwardAt_of_mem_panels {h : House ℝ} {thickness : ℝ}
    {placed : List (PlacedOpening ℝ)} {panels : List (FacadePanel ℝ)} (hsides : h.SidesSettled)
    (hplaced : ∀ p ∈ placed, h.OutwardAt p.levelIndex p.edgeIndex p.outward)
    (hb : h.buildPanels placed thickness = .ok panels) :
    ∀ p ∈ panels, h.OutwardAt p.levelIndex p.edgeIndex p.outward := by
  intro p hp
  obtain ⟨i, e, l, a, b, hl, he, hpanel⟩ := exists_buildPanel_of_mem hb hp
  obtain ⟨hside, hlong⟩ := hsides l (List.mem_of_getElem? hl) _ (List.mem_of_getElem? he)
  unfold Level.buildPanel at hpanel
  simp only [Vec.divide_length_eq_ok hlong.ne'] at hpanel
  split_ifs at hpanel with hshort
  · cases hpanel
  obtain ⟨tangent, htangent, hpanel⟩ := bind_eq_ok.1 hpanel
  obtain rfl := Except.ok.inj htangent
  split at hpanel
  · rename_i first rest hopenings
    simp only [bind_eq_ok, pure_eq_ok] at hpanel
    obtain ⟨outward, rfl, hp⟩ := hpanel
    obtain rfl := Option.some_inj.1 hp
    have hfirst : first ∈ openingsOn placed i e := by
      rw [hopenings]
      exact List.mem_cons_self
    obtain ⟨hmem, rfl, rfl⟩ := mem_openingsOn_iff.1 hfirst
    exact hplaced first hmem
  · simp only [Ring.outwardNormal_eq_ok hside hlong, bind_eq_ok, pure_eq_ok] at hpanel
    obtain ⟨outward, houtward, hp⟩ := hpanel
    obtain rfl := Except.ok.inj houtward
    obtain rfl := Option.some_inj.1 hp
    exact ⟨l, a, b, hl, he, rfl⟩

/-! ## Agreement -/

/-- **Openings, panels and wall segments agree on where outside is.**  If the footprints of a house
are strictly convex, in either direction, none of their edges is shorter than a millionth, and no
opening says which side is outside, then openings, panels and segments are all built, and for
every edge there is one normal that points away from the interior of the footprint: the openings
placed on the edge have it, its panel has it, and so has its wall segment. -/
theorem House.outward_agrees (h : House ℝ) (thickness : ℝ)
    (hconvex : ∀ l ∈ h.levels, l.footprint.outer.StrictlyConvex)
    (hlong : ∀ l ∈ h.levels, ∀ e ∈ l.footprint.outer.edges,
      Tolerance.geometry ≤ (Vec.between e.1 e.2).length)
    (hopen : ∀ o ∈ h.openings, o.edge.outwardSide = none) :
    ∃ (placed : List (PlacedOpening ℝ)) (panels : List (FacadePanel ℝ))
      (segments : List (List (WallSegment ℝ))), h.placeOpenings = .ok placed ∧
      h.buildPanels placed thickness = .ok panels ∧
      h.buildSegments = .ok segments.flatten ∧ segments.length = h.levels.length ∧
      ∀ (i e : ℕ) (l : Level ℝ) (a b : Point ℝ), h.levels[i]? = some l →
        l.footprint.outer.edges[e]? = some (a, b) →
        ∃ n, (∀ m, l.footprint.outer.PointsOutward a b m ↔ m = n) ∧
          (∀ p ∈ placed, p.key = (i, e) → p.outward = n) ∧
          (∀ p ∈ panels, p.key = (i, e) → p.outward = n) ∧
          ∃ (ofLevel : List (WallSegment ℝ)) (s : WallSegment ℝ),
            segments[i]? = some ofLevel ∧ ofLevel[e]? = some s ∧ s.levelId = l.id ∧
              s.edgeIndex = e ∧ s.outward = n := by
  have hpos : ∀ l ∈ h.levels, ∀ e ∈ l.footprint.outer.edges, 0 < (Vec.between e.1 e.2).length :=
    fun l hl e he => HalfPlane.geometry_pos.trans_le (hlong l hl e he)
  have hsides : h.SidesSettled := fun l hl e he => ⟨(hconvex l hl).liesInside he, hpos l hl e he⟩
  obtain ⟨placed, hplaced, houtward⟩ := exists_placeOpenings_outward hsides hopen
  obtain ⟨panels, hpanels⟩ := h.exists_buildPanels placed thickness
  have hpanelsOutward := outwardAt_of_mem_panels hsides houtward hpanels
  have hlevel (l : Level ℝ) (hl : l ∈ h.levels) := Level.exists_buildSegments h.wallThickness
    ((hconvex l hl).three_le.trans' (by omega)) (hpos l hl)
  obtain ⟨segments, hsegments, hall⟩ := exists_mapM_eq_ok_forall₂ hlevel
  refine ⟨placed, panels, segments, hplaced, hpanels, bind_eq_ok.2 ⟨segments, hsegments, rfl⟩,
    hall.length_eq.symm, fun i e l a b hl he => ?_⟩
  have hmem := List.mem_of_getElem? hl
  have hedge := List.mem_of_getElem? he
  -- what is told about an edge by its indices is told about this one
  have hsame {n : Vec ℝ} (hn : h.OutwardAt i e n) : n = l.footprint.outer.windingNormal a b := by
    obtain ⟨l', a', b', hl', he', rfl⟩ := hn
    obtain rfl : l' = l := Option.some_inj.1 (hl'.symm.trans hl)
    obtain ⟨rfl, rfl⟩ := Prod.mk.inj (Option.some_inj.1 (he'.symm.trans he))
    rfl
  refine ⟨l.footprint.outer.windingNormal a b,
    fun m => (hconvex l hmem).pointsOutward_iff hedge (hpos l hmem _ hedge), ?_, ?_, ?_⟩
  · intro p hp hkey
    obtain ⟨rfl, rfl⟩ := Prod.mk.inj hkey
    exact hsame (houtward p hp)
  · intro p hp hkey
    obtain ⟨rfl, rfl⟩ := Prod.mk.inj hkey
    exact hsame (hpanelsOutward p hp)
  · obtain ⟨ofLevel, hofLevel, hon⟩ := exists_of_forall₂ hall hl
    obtain ⟨s, hs, hons⟩ := exists_of_forall₂ hon (i := e) (x := ((a, b), e))
      (by simp [List.getElem?_zipIdx, he])
    exact ⟨ofLevel, s, hofLevel, hs, hons.levelId, hons.edgeIndex, hons.outward⟩

/-- A shed on a triangle that runs clockwise, with a door in its longest wall. -/
def House.shed : House ℝ where
  name := "Shed"
  wallThickness := 0.2
  elevationConvention := .topOfSlab
  allowGroundSupport := true
  supportGapLevelIds := []
  levels := [⟨"L0", 0, 2.5, ⟨[⟨0, 0⟩, ⟨0, 4⟩, ⟨3, 0⟩], []⟩, none⟩]
  roofs := []
  openings := [⟨"door", .door, "L0", ⟨1, false, none⟩, 1, 1, 2, 0, none⟩]

theorem Ring.strictlyConvex_shed : StrictlyConvex [⟨0, 0⟩, ⟨0, 4⟩, ⟨3, 0⟩] := by
  refine ⟨by simp, .inr ?_⟩
  simp [TurnsLeft, Point.spanned]

/-- Door, panel and wall segment of the shed's longest wall have one normal, which points away
from the interior. -/
theorem House.shed_outward :
    ∃ (placed : List (PlacedOpening ℝ)) (panels : List (FacadePanel ℝ))
      (segments : List (List (WallSegment ℝ))) (n : Vec ℝ),
      shed.placeOpenings = .ok placed ∧
      shed.buildPanels placed Tolerance.panelThickness = .ok panels ∧
      shed.buildSegments = .ok segments.flatten ∧
      Ring.PointsOutward [⟨0, 0⟩, ⟨0, 4⟩, ⟨3, 0⟩] ⟨0, 4⟩ ⟨3, 0⟩ n ∧
      (∀ p ∈ placed, p.key = (0, 1) → p.outward = n) ∧
      (∀ p ∈ panels, p.key = (0, 1) → p.outward = n) ∧
      ∃ s ∈ segments.flatten, s.edgeIndex = 1 ∧ s.outward = n := by
  have hlong : ∀ l ∈ shed.levels, ∀ e ∈ l.footprint.outer.edges,
      Tolerance.geometry ≤ (Vec.between e.1 e.2).length := by
    intro l hl e he
    obtain rfl := List.mem_singleton.1 hl
    rw [Vec.length_eq, Real.le_sqrt' HalfPlane.geometry_pos]
    simp only [Ring.edges, List.cons_append, List.nil_append, List.zip_cons_cons,
      List.zip_nil_right, List.mem_cons, List.not_mem_nil, or_false] at he
    rcases he with rfl | rfl | rfl <;> norm_num [Vec.between, Tolerance.geometry]
  obtain ⟨placed, panels, segments, hplaced, hpanels, hsegments, -, hagree⟩ :=
    outward_agrees shed Tolerance.panelThickness
      (fun l hl => List.mem_singleton.1 hl ▸ Ring.strictlyConvex_shed) hlong
      (fun o ho => List.mem_singleton.1 ho ▸ rfl)
  obtain ⟨n, houtward, hopenings, hpanel, ofLevel, s, hofLevel, hs, -, hindex, hn⟩ :=
    hagree 0 1 _ ⟨0, 4⟩ ⟨3, 0⟩ rfl rfl
  exact ⟨placed, panels, segments, n, hplaced, hpanels, hsegments, (houtward n).2 rfl, hopenings,
    hpanel, s, List.mem_flatten.2 ⟨ofLevel, List.mem_of_getElem? hofLevel,
      List.mem_of_getElem? hs⟩, hindex, hn⟩

end

end Housewright
