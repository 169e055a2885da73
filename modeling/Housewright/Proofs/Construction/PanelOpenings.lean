import Housewright.Proofs.Exact.Real
import Housewright.Proofs.Construction.Panels
import Housewright.Proofs.Construction.Placement
import Mathlib.Tactic.Linarith

/-!
# Openings in panels

In exact arithmetic no accepted opening is lost on its way into a panel.  An accepted
opening is placed, because its edge is longer than the opening is wide; the panel of that
edge is built for the same reason; and the opening is too large for its hole to be left
out.  `House.openings_in_panels` puts this together, and says where the holes lie.
-/

namespace Housewright

/-! ## Everything is built -/

theorem Opening.exists_placeOn (o : Opening ℝ) (levelIndex : ℕ) {edgeIndex : ℕ} {level : Level ℝ}
    {a b : Point ℝ} (he : level.footprint.edge edgeIndex = .ok (a, b)) :
    ∃ r, o.placeOn levelIndex level edgeIndex = .ok r := by
  unfold Opening.placeOn
  rw [he]
  refine exists_bind_eq_ok ⟨_, rfl⟩ fun e => ?_
  simp only
  split_ifs with hshort
  · exact ⟨none, rfl⟩
  · have hne : (Vec.between e.1 e.2).length ≠ 0 := by
      intro hz
      rw [hz, Tolerance.geometry] at hshort
      norm_num at hshort
    rw [Vec.divide_eq_ok _ hne]
    refine exists_bind_eq_ok ⟨_, rfl⟩ fun tangent => exists_bind_eq_ok ?_ fun v => ⟨_, rfl⟩
    unfold Opening.outward
    split
    · exact ⟨_, rfl⟩
    · exact ⟨_, rfl⟩
    · exact Ring.exists_outwardNormal _ _ _ _ _ _

theorem Level.exists_buildPanel (thickness : ℝ) (levelIndex : ℕ) (l : Level ℝ) (edgeIndex : ℕ)
    (a b : Point ℝ) (placed : List (PlacedOpening ℝ)) :
    ∃ r, l.buildPanel thickness levelIndex edgeIndex a b placed = .ok r := by
  unfold Level.buildPanel
  simp only
  split_ifs with hshort
  · exact ⟨none, rfl⟩
  · have hne : (Vec.between a b).length ≠ 0 := by
      intro hz
      rw [hz, Tolerance.holeSize] at hshort
      norm_num at hshort
    rw [Vec.divide_eq_ok _ hne]
    refine exists_bind_eq_ok ⟨_, rfl⟩ fun tangent => ?_
    split
    · exact ⟨_, rfl⟩
    · exact exists_bind_eq_ok (Ring.exists_outwardNormal _ _ _ _ _ _) fun v => ⟨_, rfl⟩

theorem Level.exists_buildPanels (thickness : ℝ) (placed : List (PlacedOpening ℝ))
    (levelIndex : ℕ) (l : Level ℝ) :
    ∃ panels, l.buildPanels thickness placed levelIndex = .ok panels := by
  unfold Level.buildPanels
  split_ifs
  · exact ⟨[], rfl⟩
  · exact exists_bind_eq_ok (exists_mapM_eq_ok fun e _ => Level.exists_buildPanel _ _ _ _ _ _ _)
      fun _ => ⟨_, rfl⟩

/-- The panels of a house are always built. -/
theorem House.exists_buildPanels (h : House ℝ) (placed : List (PlacedOpening ℝ)) (thickness : ℝ) :
    ∃ panels, h.buildPanels placed thickness = .ok panels :=
  exists_bind_eq_ok (exists_mapM_eq_ok fun x _ => Level.exists_buildPanels thickness placed x.2 x.1)
    fun _ => ⟨_, rfl⟩

/-! ## What fits is large enough -/

/-- An opening that fits is at least five centimetres wide and high, and does not overrun
its wall by more than a millionth. -/
theorem Opening.Fits.bounds {o : Opening ℝ} {level : Level ℝ} {a b : Point ℝ}
    (f : o.Fits Tolerance.openingFit level a b) :
    1 / 20 ≤ o.width ∧ 1 / 20 ≤ o.height ∧ -(1 / 10 ^ 6) ≤ o.offset ∧
      o.offset + o.width ≤ (Vec.between a b).length + 1 / 10 ^ 6 ∧
      -(1 / 10 ^ 6) ≤ o.sillHeight ∧ o.sillHeight + o.height ≤ level.height + 1 / 10 ^ 6 := by
  obtain ⟨-, -, -, -, -, hw, hh, hs, ht, -, hoff, hend⟩ := f
  unfold Tolerance.openingSize at hw hh
  unfold Tolerance.openingFit at hs ht hoff hend
  norm_num at hw hh hs ht hoff hend ⊢
  exact ⟨hw, hh, hoff, hend, hs, ht⟩

/-- The edge of an opening that fits gets a panel. -/
theorem Opening.Fits.lt_length {o : Opening ℝ} {level : Level ℝ} {a b : Point ℝ}
    (f : o.Fits Tolerance.openingFit level a b) : 1 / 10 ^ 4 < (Vec.between a b).length := by
  obtain ⟨hw, -, hoff, hend, -, -⟩ := f.bounds
  norm_num at hw hoff hend ⊢
  linarith

/-- An opening fits only on a level with at least two edges. -/
theorem Opening.Fits.two_le_length {o : Opening ℝ} {level : Level ℝ} {a b : Point ℝ}
    (f : o.Fits Tolerance.openingFit level a b) : 2 ≤ level.footprint.outer.length := by
  have hlong := f.lt_length
  have h0 := f.edge_nonneg
  have h1 := f.edge_lt
  have he := Footprint.edge_eq_ok_iff.1 f.edge_toNat
  by_contra hfew
  obtain ⟨p, hp⟩ : ∃ p, level.footprint.outer = [p] := List.length_eq_one_iff.1 (by omega)
  -- the only edge of a single vertex goes from it to itself
  obtain rfl : a = b := by
    rw [hp, show o.edge.edgeIndex.toNat = 0 by omega] at he
    simp only [Ring.edges, List.nil_append, List.zip_cons_cons, List.zip_nil_right,
      List.getElem?_cons_zero, Option.some.injEq, Prod.mk.injEq] at he
    exact he.1.symm.trans he.2
  rw [Vec.length_eq, Vec.between] at hlong
  norm_num at hlong

/-! ## Holes -/

/-- What a placed opening cuts out of a panel of the given size. -/
noncomputable def PlacedOpening.cut (p : PlacedOpening ℝ) (width height : ℝ) : Box ℝ :=
  ⟨p.uMin - width / 2.0, p.vMin - height / 2.0, p.uMax - width / 2.0, p.vMax - height / 2.0⟩

/-- A box that is nowhere more than `margin` outside of another one. -/
structure Box.Within (margin : ℝ) (outer b : Box ℝ) : Prop where
  minX : outer.minX - margin ≤ b.minX
  minY : outer.minY - margin ≤ b.minY
  maxX : b.maxX ≤ outer.maxX + margin
  maxY : b.maxY ≤ outer.maxY + margin

/-- An opening that fits is large enough for a hole. -/
theorem Opening.Fits.hole?_eq {o : Opening ℝ} {level : Level ℝ} {a b : Point ℝ}
    {p : PlacedOpening ℝ} {i e : ℕ} {length : ℝ} (f : o.Fits Tolerance.openingFit level a b)
    (hp : o.PlacedAs i e length p) (width height : ℝ) :
    p.hole? width height = some (p.cut width height) := by
  obtain ⟨hw, hh, -, -, -, -⟩ := f.bounds
  refine if_neg ?_
  rw [hp.uMax, hp.uMin, hp.vMax, hp.vMin, Tolerance.holeSize]
  norm_num at hw hh ⊢
  constructor <;> linarith

/-- The hole of an opening that fits lies in the panel of its edge, up to a millionth, from
whichever end its offset is measured. -/
theorem Opening.Fits.cut_within {o : Opening ℝ} {level : Level ℝ} {a b : Point ℝ}
    {p : PlacedOpening ℝ} {i e : ℕ} (f : o.Fits Tolerance.openingFit level a b)
    (hp : o.PlacedAs i e (Vec.between a b).length p) :
    Box.Within (1 / 10 ^ 6)
      ⟨-((Vec.between a b).length / 2.0), -(level.height / 2.0), (Vec.between a b).length / 2.0,
        level.height / 2.0⟩
      (p.cut (Vec.between a b).length level.height) := by
  obtain ⟨-, -, hoff, hend, hsill, htop⟩ := f.bounds
  have hu : p.uMin = o.offset ∨ p.uMin = (Vec.between a b).length - (o.offset + o.width) := by
    rw [hp.uMin, Opening.uMin]
    split_ifs
    · exact .inr rfl
    · exact .inl rfl
  have humax : p.uMax = p.uMin + o.width := by rw [hp.uMax, hp.uMin]
  have hvmin := hp.vMin
  have hvmax := hp.vMax
  constructor <;> simp only [PlacedOpening.cut] <;> rcases hu with hu | hu <;>
    norm_num at hoff hend hsill htop ⊢ <;> linarith

/-! ## Openings and panels -/

/-- The opening was placed on the level of its id and on its own edge. -/
def House.PlacedOnHost (h : House ℝ) (o : Opening ℝ) (p : PlacedOpening ℝ) : Prop :=
  ∃ level a b, h.levels[p.levelIndex]? = some level ∧ level.id = o.levelId ∧
    o.Fits Tolerance.openingFit level a b ∧
    o.PlacedAs p.levelIndex o.edge.edgeIndex.toNat (Vec.between a b).length p

/-- **Every accepted opening is placed.** -/
theorem House.exists_placeOpenings {h : House ℝ} (hids : (h.levels.map (·.id)).Nodup)
    (hok : h.refusedOpening? Tolerance.openingFit = .ok none) :
    ∃ placed, h.placeOpenings = .ok placed ∧
      List.Forall₂ h.PlacedOnHost h.openings placed := by
  have hplaced : ∀ o ∈ h.openings, ∃ r, h.placeOpening o = .ok r ∧
      ∃ p, r = some p ∧ h.PlacedOnHost o p := by
    intro o ho
    obtain ⟨level, a, b, hl, f⟩ := House.refusedOpening?_eq_none_iff.1 hok o ho
    have hone := House.namesOneLevel_of_nodup hids o.levelId
    have hid : level.id = o.levelId := by simpa using List.find?_some hl
    obtain ⟨i, hi, hlevel⟩ := Option.bind_eq_some_iff.1 ((House.lastLevel?_eq h _).symm.trans hl)
    obtain ⟨r, hr⟩ := o.exists_placeOn i f.edge_toNat
    rw [← House.placeOpening_of_fits
      ((House.levelIndex?_eq_lastLevelIndex?_iff.2 hone).trans hi) hlevel f] at hr
    obtain ⟨j, -, hj, ⟨hshort, -⟩ | ⟨-, p, rfl, hp⟩⟩ :=
      House.placeOpening_of_namesOneLevel hl f hone hr
    · have hlong := f.lt_length
      unfold Tolerance.geometry at hshort
      norm_num at hshort hlong
      linarith
    · obtain rfl := hp.levelIndex
      exact ⟨_, hr, p, rfl, level, a, b, hj, hid, f, hp⟩
  obtain ⟨found, hfound⟩ := exists_mapM_eq_ok fun o ho => (hplaced o ho).imp fun _ h => h.1
  refine ⟨found.filterMap id, House.placeOpenings_eq_ok_iff.2 ⟨found, mapM_eq_ok.1 hfound, rfl⟩,
    ?_⟩
  rw [forall₂_filterMap_id_iff (mapM_eq_ok.1 hfound).length_eq]
  refine ((List.forall₂_and_left _ _).2 ⟨hplaced, mapM_eq_ok.1 hfound⟩).imp ?_
  rintro o r ⟨⟨r', hr', hp⟩, hr⟩
  obtain rfl : r' = r := Except.ok.inj (hr'.symm.trans hr)
  exact hp

/-- What is placed on hosts is one of the openings. -/
theorem House.exists_placedOnHost {h : House ℝ} {placed : List (PlacedOpening ℝ)}
    (hhosts : List.Forall₂ h.PlacedOnHost h.openings placed) {p : PlacedOpening ℝ}
    (hp : p ∈ placed) : ∃ o, h.PlacedOnHost o p :=
  (exists_of_forall₂_right hhosts hp).imp fun _ ho => ho.2

/-- The level and the edge that an opening is placed on. -/
def PlacedOpening.key {α : Type} (p : PlacedOpening α) : ℕ × ℕ := (p.levelIndex, p.edgeIndex)

theorem sum_indicator (k : ℕ × ℕ) (keys : List (ℕ × ℕ)) :
    (keys.map fun k' => if k' = k then 1 else 0).sum = keys.count k := by
  induction keys with
  | nil => rfl
  | cons k' keys ih =>
    rw [List.map_cons, List.sum_cons, ih, List.count_cons, Nat.add_comm]
    simp

/-- If every opening is on one of some edges, the numbers of openings on them add up to the
number of openings. -/
theorem sum_length_openingsOn {keys : List (ℕ × ℕ)} (hkeys : keys.Nodup)
    {placed : List (PlacedOpening ℝ)} (hmem : ∀ p ∈ placed, p.key ∈ keys) :
    (keys.map fun k => (openingsOn placed k.1 k.2).length).sum = placed.length := by
  induction placed with
  | nil => simp [openingsOn]
  | cons p placed ih =>
    have hstep : ∀ k : ℕ × ℕ, (openingsOn (p :: placed) k.1 k.2).length =
        (openingsOn placed k.1 k.2).length + if k = p.key then 1 else 0 := by
      intro k
      by_cases hk : k = p.key
      · subst hk
        simp [openingsOn, PlacedOpening.key]
      · have hne : ¬ (p.levelIndex = k.1 ∧ p.edgeIndex = k.2) := fun h =>
          hk (Prod.ext h.1.symm h.2.symm)
        simp [openingsOn, hk, hne]
    have hone : (keys.map fun k => if k = p.key then 1 else 0).sum = 1 := by
      rw [sum_indicator, List.count_eq_one_of_mem hkeys (hmem p List.mem_cons_self)]
    rw [List.map_congr_left fun k _ => hstep k, List.sum_map_add, hone,
      ih fun q hq => hmem q (List.mem_cons_of_mem _ hq), List.length_cons]

section Panels

variable {h : House ℝ} {placed : List (PlacedOpening ℝ)} {thickness : ℝ}
  {panels : List (FacadePanel ℝ)} {o : Opening ℝ} {p : PlacedOpening ℝ}

/-- The edge of an opening that was placed on its host has a panel. -/
theorem House.exists_panel_of_placedOnHost (hpanels : h.buildPanels placed thickness = .ok panels)
    (hhost : h.PlacedOnHost o p) : ∃ panel ∈ panels, panel.key = p.key := by
  obtain ⟨-, -, hexists⟩ := House.buildPanels_eq_ok hpanels
  obtain ⟨level, a, b, hl, -, f, hat⟩ := hhost
  have h0 := f.edge_nonneg
  have h1 := f.edge_lt
  have he := Footprint.edge_eq_ok_iff.1 f.edge_toNat
  have hlong := f.lt_length
  obtain ⟨panel, hmem, hkey⟩ := hexists p.levelIndex o.edge.edgeIndex.toNat level a b hl
    f.two_le_length he (by
      unfold Tolerance.holeSize
      norm_num at hlong ⊢
      linarith)
  exact ⟨panel, hmem, hkey.trans (by rw [PlacedOpening.key, hat.edgeIndex])⟩

/-- An opening that was placed on its host has a hole in the panel of its edge, and the hole lies
in the panel, up to a millionth. -/
theorem House.hole_of_placedOnHost (hpanels : h.buildPanels placed thickness = .ok panels)
    {panel : FacadePanel ℝ} (hmem : panel ∈ panels) (hhost : h.PlacedOnHost o p)
    (hkey : panel.key = p.key) :
    p.hole? panel.width panel.height = some (p.cut panel.width panel.height) ∧
      Box.Within (1 / 10 ^ 6) panel.outline (p.cut panel.width panel.height) := by
  obtain ⟨hlevel, hedge⟩ := Prod.mk.inj hkey
  obtain ⟨-, hof, -⟩ := House.buildPanels_eq_ok hpanels
  obtain ⟨level, a, b, hl, -, f, hat⟩ := hhost
  obtain ⟨l, hl', hpanel⟩ := hof panel hmem
  obtain rfl : level = l := Option.some_inj.1 (hl.symm.trans (hlevel ▸ hl'))
  have h0 := f.edge_nonneg
  have h1 := f.edge_lt
  have he := Footprint.edge_eq_ok_iff.1 f.edge_toNat
  rw [← hat.edgeIndex, ← hedge] at he
  refine ⟨f.hole?_eq hat _ _, ?_⟩
  rw [hpanel.outline, hpanel.width_eq he, hpanel.height]
  exact f.cut_within hat

theorem mem_openingsOn_iff {i e : ℕ} :
    p ∈ openingsOn placed i e ↔ p ∈ placed ∧ p.levelIndex = i ∧ p.edgeIndex = e := by
  simp [openingsOn, List.mem_filter]

/-- A panel has the holes of the openings on its edge, if all were placed on their hosts. -/
theorem House.holes_eq (hpanels : h.buildPanels placed thickness = .ok panels)
    (hhost : ∀ p ∈ placed, ∃ o, h.PlacedOnHost o p) {panel : FacadePanel ℝ}
    (hmem : panel ∈ panels) :
    panel.holes = (openingsOn placed panel.levelIndex panel.edgeIndex).map
      (·.cut panel.width panel.height) := by
  obtain ⟨-, hof, -⟩ := House.buildPanels_eq_ok hpanels
  obtain ⟨l, -, hl⟩ := hof panel hmem
  rw [hl.holes, ← List.filterMap_eq_map]
  refine List.filterMap_congr fun p hp => ?_
  obtain ⟨hp, hlevel, hedge⟩ := mem_openingsOn_iff.1 hp
  obtain ⟨o, ho⟩ := hhost p hp
  exact (House.hole_of_placedOnHost hpanels hmem ho (Prod.ext hlevel.symm hedge.symm)).1

/-- The holes of a panel lie in it, up to a millionth, if all openings were placed on their
hosts. -/
theorem House.within_of_mem_holes (hpanels : h.buildPanels placed thickness = .ok panels)
    (hhost : ∀ p ∈ placed, ∃ o, h.PlacedOnHost o p) {panel : FacadePanel ℝ}
    (hmem : panel ∈ panels) {hole : Box ℝ} (hhole : hole ∈ panel.holes) :
    Box.Within (1 / 10 ^ 6) panel.outline hole := by
  rw [House.holes_eq hpanels hhost hmem] at hhole
  obtain ⟨p, hp, rfl⟩ := List.mem_map.1 hhole
  obtain ⟨hp, hlevel, hedge⟩ := mem_openingsOn_iff.1 hp
  obtain ⟨o, ho⟩ := hhost p hp
  exact (House.hole_of_placedOnHost hpanels hmem ho (Prod.ext hlevel.symm hedge.symm)).2

end Panels

/-- **No accepted opening is lost or cut in the wrong place.**  In a house whose level ids are
not repeated and whose openings are accepted, every opening is placed on its own edge, and
the panels are built.  No two panels are on one edge; every opening is on the edge of one
of them; each panel names the openings on its edge and has one hole for each of them, so
that there are as many holes as openings; and the holes lie in their panels, up to a
millionth on each side. -/
theorem House.openings_in_panels (h : House ℝ) (thickness : ℝ)
    (hids : (h.levels.map (·.id)).Nodup)
    (hok : h.refusedOpening? Tolerance.openingFit = .ok none) :
    ∃ placed panels, h.placeOpenings = .ok placed ∧ h.buildPanels placed thickness = .ok panels ∧
      List.Forall₂ h.PlacedOnHost h.openings placed ∧
      (panels.map FacadePanel.key).Nodup ∧
      (∀ p ∈ placed, ∃! panel, panel ∈ panels ∧ panel.key = p.key) ∧
      (∀ panel ∈ panels,
        panel.openingIds = (openingsOn placed panel.levelIndex panel.edgeIndex).map (·.id) ∧
        panel.holes = (openingsOn placed panel.levelIndex panel.edgeIndex).map
          (·.cut panel.width panel.height)) ∧
      (panels.map (·.holes.length)).sum = h.openings.length ∧
      ∀ panel ∈ panels, ∀ hole ∈ panel.holes, Box.Within (1 / 10 ^ 6) panel.outline hole := by
  obtain ⟨placed, hplaced, hhosts⟩ := House.exists_placeOpenings hids hok
  obtain ⟨panels, hpanels⟩ := h.exists_buildPanels placed thickness
  obtain ⟨hkeys, hof, -⟩ := House.buildPanels_eq_ok hpanels
  have hhost := fun p hp => House.exists_placedOnHost (p := p) hhosts hp
  have hpanel : ∀ p ∈ placed, ∃ panel ∈ panels, panel.key = p.key := fun p hp =>
    (hhost p hp).elim fun o ho => House.exists_panel_of_placedOnHost hpanels ho
  have hholes := fun panel => @House.holes_eq h placed thickness panels hpanels hhost panel
  refine ⟨placed, panels, hplaced, hpanels, hhosts, hkeys, fun p hp => ?_, fun panel hmem =>
    ⟨(hof panel hmem).elim fun l hl => hl.2.openingIds, hholes panel hmem⟩, ?_, ?_⟩
  · obtain ⟨panel, hmem, hkey⟩ := hpanel p hp
    refine ⟨panel, ⟨hmem, hkey⟩, fun panel' ⟨hmem', hkey'⟩ => ?_⟩
    exact List.inj_on_of_nodup_map hkeys hmem' hmem (hkey'.trans hkey.symm)
  · have hsum := sum_length_openingsOn hkeys fun p hp => by
      obtain ⟨panel, hmem, hkey⟩ := hpanel p hp
      exact List.mem_map.2 ⟨panel, hmem, hkey⟩
    rw [hhosts.length_eq, ← hsum, List.map_map]
    refine congrArg List.sum (List.map_congr_left fun panel hmem => ?_)
    rw [hholes panel hmem, List.length_map]
    rfl
  · exact fun panel hmem hole hhole => House.within_of_mem_holes hpanels hhost hmem hhole

/-- A room of four metres by four with a window in its third wall, measured from the far end. -/
noncomputable def House.roomWithWindow : House ℝ where
  name := "Room"
  wallThickness := 0.3
  elevationConvention := .topOfSlab
  allowGroundSupport := true
  supportGapLevelIds := []
  levels := [⟨"L0", 0, 3, ⟨[⟨0, 0⟩, ⟨4, 0⟩, ⟨4, 4⟩, ⟨0, 4⟩], []⟩, none⟩]
  roofs := []
  openings := [⟨"window", .window, "L0", ⟨2, true, none⟩, 1, 1.5, 1, 1, none⟩]

/-- The window fits. -/
theorem House.accepts_roomWithWindow :
    House.roomWithWindow.refusedOpening? Tolerance.openingFit = .ok none := by
  refine House.refusedOpening?_eq_none_iff.2 fun o ho => ?_
  obtain rfl := List.mem_singleton.1 ho
  have hlength : (Vec.between (⟨4, 4⟩ : Point ℝ) ⟨0, 4⟩).length = 4 := by
    rw [Vec.length_eq, Vec.between, Real.sqrt_eq_iff_mul_self_eq_of_pos (by norm_num)]
    norm_num
  refine ⟨_, ⟨4, 4⟩, ⟨0, 4⟩, rfl, ?_⟩
  refine ⟨by decide, by decide, rfl, ?_, ?_, ?_, ?_, ?_, ?_, ?_, ?_, ?_⟩ <;>
    norm_num [hlength, Tolerance.openingSize, Tolerance.openingFit]

/-- The room has one hole in its panels. -/
theorem House.roomWithWindow_one_hole :
    ∃ placed panels, House.roomWithWindow.placeOpenings = .ok placed ∧
      House.roomWithWindow.buildPanels placed Tolerance.panelThickness = .ok panels ∧
      (panels.map (·.holes.length)).sum = 1 := by
  obtain ⟨placed, panels, hplaced, hpanels, -, -, -, -, hsum, -⟩ :=
    House.openings_in_panels House.roomWithWindow Tolerance.panelThickness (by decide)
      House.accepts_roomWithWindow
  exact ⟨placed, panels, hplaced, hpanels, hsum⟩

end Housewright
