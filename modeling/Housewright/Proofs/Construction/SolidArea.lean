import Housewright.Proofs.Construction.PanelOpenings
import Housewright.Proofs.Exact.Boxes

/-!
# The solid area of a panel

The solid area of a panel is its area without those of its holes.  Accepted openings may overlap,
since each is compared with its wall alone, and an area that two holes share is taken away twice.

* `FacadePanel.uncovered`, `FacadePanel.overhang`: the area of a panel without its holes, and what
  the holes have outside of it;
* `FacadePanel.solidArea_add_overhang_eq_iff`: what holes that lie apart leave of a panel;
* `House.solidArea_of_panels`: the solid areas of the panels of an accepted house;
* `House.exist_negativePanels`: walls of less than nothing.
-/

namespace Housewright

open MeasureTheory

/-! ## What lies past a box -/

/-- A box with a margin on every side. -/
noncomputable def Box.grow (margin : ℝ) (b : Box ℝ) : Box ℝ :=
  ⟨b.minX - margin, b.minY - margin, b.maxX + margin, b.maxY + margin⟩

theorem Box.region_subset_grow (b : Box ℝ) {margin : ℝ} (h : 0 ≤ margin) :
    b.region ⊆ (b.grow margin).region :=
  Set.prod_mono (Set.Icc_subset_Icc (sub_le_self _ h) (le_add_of_nonneg_right h))
    (Set.Icc_subset_Icc (sub_le_self _ h) (le_add_of_nonneg_right h))

theorem Box.Within.region_subset {margin : ℝ} {outer b : Box ℝ} (w : Box.Within margin outer b) :
    b.region ⊆ (outer.grow margin).region :=
  Set.prod_mono (Set.Icc_subset_Icc w.minX w.maxX) (Set.Icc_subset_Icc w.minY w.maxY)

/-- Past a box there is no more of another one than the margin that it keeps. -/
theorem Box.Within.measureReal_past_le {margin : ℝ} {outer b : Box ℝ}
    (w : Box.Within margin outer b) (hmargin : 0 ≤ margin) (hx : outer.minX ≤ outer.maxX)
    (hy : outer.minY ≤ outer.maxY) : volume.real (b.region \ outer.region) ≤
      2 * margin * ((outer.maxX - outer.minX) + (outer.maxY - outer.minY)) + 4 * margin ^ 2 := by
  have hgrown := (outer.grow margin).volume_region_ne_top
  calc volume.real (b.region \ outer.region)
      ≤ volume.real ((outer.grow margin).region \ outer.region) :=
        measureReal_mono (Set.sdiff_subset_sdiff_left w.region_subset)
          (measure_ne_top_of_subset Set.sdiff_subset hgrown)
    _ = (outer.grow margin).area - outer.area := by
        rw [measureReal_sdiff (outer.region_subset_grow hmargin) outer.measurableSet_region,
          Box.measureReal_region hx hy, Box.measureReal_region]
        · dsimp only [Box.grow]
          linarith
        · dsimp only [Box.grow]
          linarith
    _ = 2 * margin * ((outer.maxX - outer.minX) + (outer.maxY - outer.minY)) + 4 * margin ^ 2 := by
        rw [Box.area, Box.area, Box.grow]
        ring

/-! ## What is left of a panel -/

namespace FacadePanel

/-- The area of the outline that no hole covers. -/
noncomputable def uncovered (p : FacadePanel ℝ) : ℝ :=
  volume.real (p.outline.region \ ⋃ b ∈ p.holes, b.region)

/-- What the holes have past the outline, hole by hole. -/
noncomputable def overhang (p : FacadePanel ℝ) : ℝ :=
  (p.holes.map fun b => volume.real (b.region \ p.outline.region)).sum

/-- No two holes share an area of the outline. -/
def HolesApart (p : FacadePanel ℝ) : Prop :=
  p.holes.Pairwise fun b c => ¬ ((b.meet c).meet p.outline).HasArea

/-- The outline is of the size of the panel, and no hole is turned over. -/
structure Framed (p : FacadePanel ℝ) : Prop where
  outline : p.outline = ⟨-(p.width / 2), -(p.height / 2), p.width / 2, p.height / 2⟩
  width : 0 ≤ p.width
  holes : ∀ b ∈ p.holes, b.minX ≤ b.maxX ∧ b.minY ≤ b.maxY

section Areas

variable {p : FacadePanel ℝ}

theorem solidArea_eq (p : FacadePanel ℝ) :
    p.solidArea = p.width * p.height - (p.holes.map Box.area).sum := by
  have hfold : ∀ (holes : List (Box ℝ)) (area : ℝ),
      holes.foldl (fun area b => area + b.area) area = area + (holes.map Box.area).sum := by
    intro holes
    induction holes with
    | nil => simp
    | cons b rest ih =>
      intro area
      rw [List.foldl_cons, ih, List.map_cons, List.sum_cons, add_assoc]
  rw [solidArea, hfold]
  norm_num

/-- The holes have their areas inside of the outline and past it. -/
theorem Framed.sum_area (f : p.Framed) : (p.holes.map Box.area).sum =
    (p.holes.map fun b => (volume.restrict p.outline.region).real b.region).sum + p.overhang := by
  rw [overhang, ← List.sum_map_add]
  refine congrArg List.sum (List.map_congr_left fun b hb => ?_)
  obtain ⟨hx, hy⟩ := f.holes b hb
  rw [measureReal_restrict_apply b.measurableSet_region,
    measureReal_inter_add_sdiff p.outline.measurableSet_region b.volume_region_ne_top,
    Box.measureReal_region hx hy]

theorem Framed.outline_le (f : p.Framed) (hheight : 0 ≤ p.height) :
    p.outline.minX ≤ p.outline.maxX ∧ p.outline.minY ≤ p.outline.maxY := by
  have hwidth := f.width
  rw [f.outline]
  constructor <;> dsimp only <;> linarith

theorem Framed.measureReal_outline (f : p.Framed) (hheight : 0 ≤ p.height) :
    volume.real p.outline.region = p.width * p.height := by
  obtain ⟨hx, hy⟩ := f.outline_le hheight
  rw [Box.measureReal_region hx hy, f.outline, Box.area]
  ring

/-- What is covered of the outline is not uncovered. -/
theorem uncovered_add_covered (p : FacadePanel ℝ) : p.uncovered +
    (volume.restrict p.outline.region).real (⋃ b ∈ p.holes, b.region) =
      volume.real p.outline.region := by
  have hcover := measurableSet_cover Box.measurableSet_region p.holes
  rw [measureReal_restrict_apply hcover, Set.inter_comm, add_comm]
  exact measureReal_inter_add_sdiff hcover p.outline.volume_region_ne_top

/-- Holes that lie apart share nothing of the outline. -/
theorem holesApart_iff : p.HolesApart ↔ p.holes.Pairwise fun b c =>
    (volume.restrict p.outline.region).real (b.region ∩ c.region) = 0 := by
  have hshare (b c : Box ℝ) : ¬ ((b.meet c).meet p.outline).HasArea ↔
      (volume.restrict p.outline.region).real (b.region ∩ c.region) = 0 := by
    rw [measureReal_restrict_apply (b.measurableSet_region.inter c.measurableSet_region),
      ← Box.region_meet, ← Box.region_meet, Box.measureReal_region_eq_zero_iff]
  simp only [HolesApart, hshare]

/-- The solid area is what is left of the outline when every hole is taken away, the parts that
several holes share as often as there are holes. -/
theorem Framed.solidArea_add_overhang (f : p.Framed) (hheight : 0 ≤ p.height) :
    p.solidArea + p.overhang = volume.real p.outline.region -
      (p.holes.map fun b => (volume.restrict p.outline.region).real b.region).sum := by
  rw [solidArea_eq, f.sum_area, f.measureReal_outline hheight]
  ring

/-- What is left of a panel is at least its solid area. -/
theorem Framed.solidArea_add_overhang_le (f : p.Framed) (hheight : 0 ≤ p.height) :
    p.solidArea + p.overhang ≤ p.uncovered := by
  have := isFiniteMeasure_restrict.2 p.outline.volume_region_ne_top
  have hcovered := p.uncovered_add_covered
  have hle := measureReal_cover_le (μ := volume.restrict p.outline.region) Box.region p.holes
  rw [f.solidArea_add_overhang hheight]
  linarith

/-- **The solid area is what the holes leave of a panel**, up to what they have past it, if and
only if they lie apart. -/
theorem Framed.solidArea_add_overhang_eq_iff (f : p.Framed) (hheight : 0 ≤ p.height) :
    p.solidArea + p.overhang = p.uncovered ↔ p.HolesApart := by
  have := isFiniteMeasure_restrict.2 p.outline.volume_region_ne_top
  have hcovered := p.uncovered_add_covered
  rw [holesApart_iff, ← sum_eq_measureReal_cover_iff Box.measurableSet_region,
    f.solidArea_add_overhang hheight]
  constructor <;> intro h <;> linarith

theorem uncovered_nonneg (p : FacadePanel ℝ) : 0 ≤ p.uncovered := measureReal_nonneg

theorem overhang_nonneg (p : FacadePanel ℝ) : 0 ≤ p.overhang := by
  refine List.sum_nonneg fun x hx => ?_
  obtain ⟨b, -, rfl⟩ := List.mem_map.1 hx
  exact measureReal_nonneg

/-- Holes that are nowhere more than `margin` past the outline have little past it. -/
theorem Framed.overhang_le (f : p.Framed) (hheight : 0 ≤ p.height) {margin : ℝ}
    (hmargin : 0 ≤ margin) (hwithin : ∀ b ∈ p.holes, Box.Within margin p.outline b) :
    p.overhang ≤
      p.holes.length * (2 * margin * (p.width + p.height) + 4 * margin ^ 2) := by
  obtain ⟨hx, hy⟩ := f.outline_le hheight
  have hspan : (p.outline.maxX - p.outline.minX) + (p.outline.maxY - p.outline.minY) =
      p.width + p.height := by
    rw [f.outline]
    ring
  have hpast : ∀ x ∈ p.holes.map fun b => volume.real (b.region \ p.outline.region),
      x ≤ 2 * margin * (p.width + p.height) + 4 * margin ^ 2 := by
    intro x hx'
    obtain ⟨b, hb, rfl⟩ := List.mem_map.1 hx'
    rw [← hspan]
    exact (hwithin b hb).measureReal_past_le hmargin hx hy
  calc p.overhang
      ≤ (p.holes.map fun b => volume.real (b.region \ p.outline.region)).length •
          (2 * margin * (p.width + p.height) + 4 * margin ^ 2) := List.sum_le_card_nsmul _ _ hpast
    _ = p.holes.length * (2 * margin * (p.width + p.height) + 4 * margin ^ 2) := by
        rw [List.length_map, nsmul_eq_mul]

end Areas

end FacadePanel

/-! ## The panels of a house -/

/-- A hole is wider and higher than what is left out. -/
theorem PlacedOpening.size_of_hole? {o : PlacedOpening ℝ} {width height : ℝ} {b : Box ℝ}
    (hb : o.hole? width height = some b) :
    1 / 10 ^ 4 < b.maxX - b.minX ∧ 1 / 10 ^ 4 < b.maxY - b.minY := by
  have hsize : (Tolerance.holeSize : ℝ) = 1 / 10 ^ 4 := by norm_num [Tolerance.holeSize]
  unfold PlacedOpening.hole? at hb
  obtain ⟨hlarge, hb⟩ := Option.ite_none_left_eq_some.1 hb
  obtain rfl := Option.some_inj.1 hb
  rw [not_or, not_le, not_le, hsize] at hlarge
  exact hlarge

section Panels

variable {l : Level ℝ} {i : ℕ} {placed : List (PlacedOpening ℝ)} {p : FacadePanel ℝ}

theorem FacadePanel.IsPanelOf.size_of_mem (hp : p.IsPanelOf l i placed) {b : Box ℝ}
    (hb : b ∈ p.holes) : 1 / 10 ^ 4 < b.maxX - b.minX ∧ 1 / 10 ^ 4 < b.maxY - b.minY := by
  rw [hp.holes] at hb
  obtain ⟨o, -, ho⟩ := List.mem_filterMap.1 hb
  exact PlacedOpening.size_of_hole? ho

theorem FacadePanel.IsPanelOf.framed (hp : p.IsPanelOf l i placed) : p.Framed where
  outline := by
    rw [hp.outline, show (2.0 : ℝ) = 2 by norm_num]
  width := by
    obtain ⟨a, b, -, hwidth⟩ := hp.edge
    rw [hwidth, Vec.length_eq]
    exact Real.sqrt_nonneg _
  holes b hb := by
    obtain ⟨hx, hy⟩ := hp.size_of_mem hb
    constructor <;> linarith

/-- A panel with a hole that lies in it has a height. -/
theorem FacadePanel.IsPanelOf.height_pos (hp : p.IsPanelOf l i placed) {b : Box ℝ}
    (hb : b ∈ p.holes) (hwithin : Box.Within (1 / 10 ^ 6) p.outline b) : 0 < p.height := by
  obtain ⟨-, hy⟩ := hp.size_of_mem hb
  have hlow := hwithin.minY
  have hhigh := hwithin.maxY
  rw [hp.framed.outline] at hlow hhigh
  dsimp only at hlow hhigh
  norm_num at hlow hhigh hy
  linarith

end Panels

/-- **The solid area of a panel is what its holes leave of it, if they lie apart.**  In a house
whose level ids are not repeated and whose openings are accepted, every panel with a hole has a
height above zero.  The solid area of a panel whose height is not below zero, with what the holes
have past the outline, is at most the area that no hole covers, and is this area if and only if
no two holes share an area of the outline; then it is at least zero.  What the holes have past
the outline is no more than a frame of a millionth for each of them. -/
theorem House.solidArea_of_panels (h : House ℝ) (thickness : ℝ)
    (hids : (h.levels.map (·.id)).Nodup)
    (hok : h.refusedOpening? Tolerance.openingFit = .ok none) :
    ∃ placed panels, h.placeOpenings = .ok placed ∧ h.buildPanels placed thickness = .ok panels ∧
      ∀ panel ∈ panels, (panel.holes ≠ [] → 0 < panel.height) ∧
        (0 ≤ panel.height →
          panel.solidArea + panel.overhang ≤ panel.uncovered ∧
          (panel.solidArea + panel.overhang = panel.uncovered ↔ panel.HolesApart) ∧
          (panel.HolesApart → -panel.overhang ≤ panel.solidArea) ∧
          0 ≤ panel.overhang ∧ panel.overhang ≤ panel.holes.length *
            (2 * (1 / 10 ^ 6) * (panel.width + panel.height) + 4 * (1 / 10 ^ 6) ^ 2)) := by
  obtain ⟨placed, hplaced, hhosts⟩ := House.exists_placeOpenings hids hok
  obtain ⟨panels, hpanels⟩ := h.exists_buildPanels placed thickness
  obtain ⟨-, hof, -⟩ := House.buildPanels_eq_ok hpanels
  have hhost := fun p hp => House.exists_placedOnHost (p := p) hhosts hp
  refine ⟨placed, panels, hplaced, hpanels, fun panel hmem => ?_⟩
  obtain ⟨l, -, hpanel⟩ := hof panel hmem
  have hwithin : ∀ b ∈ panel.holes, Box.Within (1 / 10 ^ 6) panel.outline b := fun b hb =>
    House.within_of_mem_holes hpanels hhost hmem hb
  have f := hpanel.framed
  refine ⟨fun hholes => ?_, fun hheight => ?_⟩
  · obtain ⟨b, hb⟩ := List.exists_mem_of_ne_nil _ hholes
    exact hpanel.height_pos hb (hwithin b hb)
  · have heq := f.solidArea_add_overhang_eq_iff hheight
    refine ⟨f.solidArea_add_overhang_le hheight, heq, fun hapart => ?_, panel.overhang_nonneg,
      f.overhang_le hheight (by norm_num) hwithin⟩
    have huncovered := panel.uncovered_nonneg
    have := heq.2 hapart
    linarith

/-- The window leaves of its wall what the solid area says. -/
theorem House.roomWithWindow_solidArea :
    ∃ placed panels, House.roomWithWindow.placeOpenings = .ok placed ∧
      House.roomWithWindow.buildPanels placed Tolerance.panelThickness = .ok panels ∧
      ∀ panel ∈ panels, panel.solidArea + panel.overhang = panel.uncovered := by
  obtain ⟨placed, panels, hplaced, hpanels, hareas⟩ := House.solidArea_of_panels
    House.roomWithWindow Tolerance.panelThickness (by decide) House.accepts_roomWithWindow
  obtain ⟨-, hof, -⟩ := House.buildPanels_eq_ok hpanels
  refine ⟨placed, panels, hplaced, hpanels, fun panel hmem => ?_⟩
  obtain ⟨l, hl, hpanel⟩ := hof panel hmem
  obtain rfl := List.mem_singleton.1 (List.mem_of_getElem? hl)
  have hheight : 0 ≤ panel.height := by
    rw [hpanel.height]
    norm_num
  have hfew : panel.holes.length ≤ 1 := by
    obtain ⟨placed', hplaced', hhosts⟩ :=
      House.exists_placeOpenings (by decide) House.accepts_roomWithWindow
    obtain rfl := Except.ok.inj (hplaced'.symm.trans hplaced)
    rw [hpanel.holes]
    exact (List.length_filterMap_le _ _).trans
      ((List.length_filter_le _ _).trans_eq hhosts.length_eq.symm)
  refine ((hareas panel hmem).2 hheight).2.1.2 (List.pairwise_iff_getElem.2 fun i j hi hj hij => ?_)
  omega

/-! ## Walls of less than nothing -/

/-- The openings of a house are accepted, and a panel has a solid area below zero, even with what
its holes have past the outline; so it is not what is left of the panel. -/
def House.HasNegativePanel (h : House ℝ) : Prop :=
  (h.levels.map (·.id)).Nodup ∧ h.refusedOpening? Tolerance.openingFit = .ok none ∧
    ∃ placed panels, h.placeOpenings = .ok placed ∧
      h.buildPanels placed Tolerance.panelThickness = .ok panels ∧
      ∃ panel ∈ panels, panel.solidArea + panel.overhang ≠ panel.uncovered ∧
        panel.solidArea < -panel.overhang

/-- A solid area below zero is not what is left of a panel whose holes stay in it. -/
theorem FacadePanel.negative_of_holes {p : FacadePanel ℝ} (hsolid : p.solidArea < 0)
    (hholes : ∀ b ∈ p.holes, b = p.outline) :
    p.solidArea + p.overhang ≠ p.uncovered ∧ p.solidArea < -p.overhang := by
  have hover : p.overhang = 0 := by
    refine List.sum_eq_zero fun x hx => ?_
    obtain ⟨b, hb, rfl⟩ := List.mem_map.1 hx
    rw [hholes b hb, Set.sdiff_self, measureReal_empty]
  have huncovered := p.uncovered_nonneg
  rw [hover, add_zero, neg_zero]
  exact ⟨(hsolid.trans_le huncovered).ne, hsolid⟩

/-- A gate as large as the first wall of the room. -/
noncomputable def Opening.gate (id : String) : Opening ℝ :=
  ⟨id, .door, "L0", ⟨0, false, none⟩, 0, 4, 3, 0, none⟩

/-- The room with the gate, described twice. -/
noncomputable def House.doubleGate : House ℝ :=
  { House.roomWithWindow with openings := [.gate "gate", .gate "again"] }

theorem House.length_gateWall : (Vec.between (⟨0, 0⟩ : Point ℝ) ⟨4, 0⟩).length = 4 := by
  rw [Vec.length_eq, Vec.between, Real.sqrt_eq_iff_mul_self_eq_of_pos (by norm_num)]
  norm_num

/-- A panel on the first wall of the room is as wide as the wall. -/
theorem FacadePanel.IsPanelOf.width_gateWall {l : Level ℝ} {i : ℕ}
    {placed : List (PlacedOpening ℝ)} {p : FacadePanel ℝ} (hp : p.IsPanelOf l i placed)
    (hring : l.footprint.outer = [⟨0, 0⟩, ⟨4, 0⟩, ⟨4, 4⟩, ⟨0, 4⟩]) (hedge : p.edgeIndex = 0) :
    p.width = 4 := by
  refine (hp.width_eq (a := ⟨0, 0⟩) (b := ⟨4, 0⟩) ?_).trans House.length_gateWall
  rw [hring, hedge]
  rfl

/-- Both gates fit. -/
theorem House.accepts_doubleGate :
    House.doubleGate.refusedOpening? Tolerance.openingFit = .ok none := by
  refine House.refusedOpening?_eq_none_iff.2 fun o ho => ?_
  obtain ⟨id, rfl⟩ : ∃ id, o = .gate id := by
    obtain rfl | ho := List.mem_cons.1 ho
    · exact ⟨_, rfl⟩
    · exact ⟨_, List.mem_singleton.1 ho⟩
  refine ⟨_, ⟨0, 0⟩, ⟨4, 0⟩, rfl, ?_⟩
  refine ⟨le_refl (0 : Int), (by decide : (0 : Int) < 4), rfl, ?_, ?_, ?_, ?_, ?_, ?_, ?_, ?_, ?_⟩
  all_goals
    norm_num [Opening.gate, House.length_gateWall, Tolerance.openingSize, Tolerance.openingFit]

/-- A gate that is placed takes up its whole wall. -/
theorem House.gate_placed {id : String} {p : PlacedOpening ℝ}
    (hhost : House.doubleGate.PlacedOnHost (.gate id) p) :
    p.key = (0, 0) ∧ p.cut 4 3 = ⟨-(4 / 2.0), -(3 / 2.0), 4 / 2.0, 3 / 2.0⟩ := by
  obtain ⟨level, a, b, hl, -, f, hat⟩ := hhost
  obtain ⟨hindex, hl⟩ := List.getElem?_eq_some_iff.1 hl
  have hindex : p.levelIndex = 0 := Nat.lt_one_iff.1 hindex
  refine ⟨Prod.ext hindex hat.edgeIndex, ?_⟩
  have hu : p.uMin = 0 := hat.uMin
  have hu' : p.uMax = 0 + 4 := hat.uMax
  have hv : p.vMin = 0 := hat.vMin
  have hv' : p.vMax = 0 + 3 := hat.vMax
  rw [PlacedOpening.cut, hu, hu', hv, hv']
  norm_num

theorem House.doubleGate_hasNegativePanel : House.doubleGate.HasNegativePanel := by
  have hids : (House.doubleGate.levels.map (·.id)).Nodup := List.nodup_singleton _
  obtain ⟨placed, hplaced, hhosts⟩ := House.exists_placeOpenings hids House.accepts_doubleGate
  obtain ⟨panels, hpanels⟩ :=
    House.doubleGate.exists_buildPanels placed Tolerance.panelThickness
  refine ⟨hids, House.accepts_doubleGate, placed, panels, hplaced, hpanels, ?_⟩
  have hhost := fun p hp => House.exists_placedOnHost (p := p) hhosts hp
  -- both gates are on the panel of the first wall
  obtain ⟨p, others, hp, hothers, rfl⟩ := List.forall₂_cons_left_iff.1 hhosts
  obtain ⟨q, rest, hq, hrest, rfl⟩ := List.forall₂_cons_left_iff.1 hothers
  obtain rfl := List.forall₂_nil_left_iff.1 hrest
  obtain ⟨hpkey, hpcut⟩ := House.gate_placed hp
  obtain ⟨hqkey, hqcut⟩ := House.gate_placed hq
  obtain ⟨panel, hmem, hkey⟩ := House.exists_panel_of_placedOnHost hpanels hp
  rw [hpkey] at hkey
  obtain ⟨hlevel, hedge⟩ := Prod.mk.inj hkey
  obtain ⟨-, hof, -⟩ := House.buildPanels_eq_ok hpanels
  obtain ⟨l, hl, hpanel⟩ := hof panel hmem
  obtain rfl := List.mem_singleton.1 (List.mem_of_getElem? hl)
  have hheight : panel.height = 3 := hpanel.height
  have hwidth : panel.width = 4 := hpanel.width_gateWall rfl hedge
  have hon : openingsOn [p, q] panel.levelIndex panel.edgeIndex = [p, q] := by
    obtain ⟨hplevel, hpedge⟩ := Prod.mk.inj hpkey
    obtain ⟨hqlevel, hqedge⟩ := Prod.mk.inj hqkey
    simp [openingsOn, hlevel, hedge, hplevel, hpedge, hqlevel, hqedge]
  have hholes := House.holes_eq hpanels hhost hmem
  rw [hon, hwidth, hheight, List.map_cons, List.map_cons, List.map_nil, hpcut, hqcut] at hholes
  refine ⟨panel, hmem, FacadePanel.negative_of_holes ?_ fun b hb => ?_⟩
  · rw [FacadePanel.solidArea_eq, hholes, hwidth, hheight]
    norm_num [Box.area]
  · rw [hpanel.outline, hwidth, hheight]
    rw [hholes] at hb
    simpa using hb

/-- The room without its window, and with its ceiling below its floor. -/
noncomputable def House.sunkRoom : House ℝ :=
  { House.roomWithWindow with
    levels := [⟨"L0", 0, -3, ⟨[⟨0, 0⟩, ⟨4, 0⟩, ⟨4, 4⟩, ⟨0, 4⟩], []⟩, none⟩]
    openings := [] }

theorem House.sunkRoom_hasNegativePanel : House.sunkRoom.HasNegativePanel := by
  have hids : (House.sunkRoom.levels.map (·.id)).Nodup := List.nodup_singleton _
  have hok : House.sunkRoom.refusedOpening? Tolerance.openingFit = .ok none := rfl
  obtain ⟨placed, hplaced, hhosts⟩ := House.exists_placeOpenings hids hok
  obtain ⟨panels, hpanels⟩ := House.sunkRoom.exists_buildPanels placed Tolerance.panelThickness
  refine ⟨hids, hok, placed, panels, hplaced, hpanels, ?_⟩
  obtain rfl := List.forall₂_nil_left_iff.1 hhosts
  obtain ⟨-, hof, hexists⟩ := House.buildPanels_eq_ok hpanels
  obtain ⟨panel, hmem, hkey⟩ := hexists 0 0 _ ⟨0, 0⟩ ⟨4, 0⟩ rfl (by decide) rfl (by
    rw [House.length_gateWall, Tolerance.holeSize]
    norm_num)
  obtain ⟨l, hl, hpanel⟩ := hof panel hmem
  obtain rfl := List.mem_singleton.1 (List.mem_of_getElem? hl)
  have hheight : panel.height = -3 := hpanel.height
  have hwidth : panel.width = 4 := hpanel.width_gateWall rfl (Prod.mk.inj hkey).2
  have hholes : panel.holes = [] := hpanel.holes
  refine ⟨panel, hmem, FacadePanel.negative_of_holes ?_ ?_⟩
  · rw [FacadePanel.solidArea_eq, hholes, hwidth, hheight]
    norm_num
  · rw [hholes]
    intro b hb
    cases hb

/-- **Solid areas below zero**: of a wall that is taken away twice, and of a wall whose height is
below zero. -/
theorem House.exist_negativePanels :
    House.doubleGate.HasNegativePanel ∧ House.sunkRoom.HasNegativePanel :=
  ⟨House.doubleGate_hasNegativePanel, House.sunkRoom_hasNegativePanel⟩

end Housewright
