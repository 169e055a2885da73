import Housewright.Proofs.Construction.Panels
import Housewright.Proofs.Construction.Placement
import Housewright.Proofs.Construction.RoofsApart
import Housewright.Proofs.Geometry.Probing

/-!
# What can stop the building of a house

A house whose structure is accepted and whose openings fit is built part by part: openings,
roofs, slabs, shells, segments and panels.  Every index is in range and every divisor is guarded,
so that a part is stopped by a square that is too large or not at all.

* `House.exists_segments`: wall segments are always built;
* `House.Overflows`: a square is too large in the making of some part of the house;
* `House.exists_build_iff`: such a house is built unless it overflows;
* `House.build_stopsOnly`, `House.build_failsOnly`: what stops the building of any house, and of
  such a one.
-/

namespace Housewright

open Binary64

/-! ## Openings -/

/-- A ring has an edge at each of its indices. -/
theorem Footprint.exists_edge {f : Footprint Float} {i : Int} (h0 : 0 ≤ i)
    (hlt : i < f.outer.length) : ∃ e, f.edge i = .ok e := by
  obtain ⟨n, rfl⟩ := Int.eq_ofNat_of_zero_le h0
  have hn : n < (Ring.edges f.outer).length := by
    rw [Ring.length_edges]
    omega
  exact ⟨_, Footprint.edge_eq_ok_iff.2 (List.getElem?_eq_getElem hn)⟩

/-- Where the host edge is in range, it has two ends, and the check gives an answer. -/
theorem Opening.exists_fault? (tolerance : Float) (level? : Option (Level Float))
    (o : Opening Float) : ∃ fault?, o.fault? tolerance level? = .ok fault? := by
  unfold Opening.fault?
  cases level? with
  | none => exact ⟨_, rfl⟩
  | some level =>
    dsimp only
    split_ifs with hempty hedge
    · exact ⟨_, rfl⟩
    · exact ⟨_, rfl⟩
    cases o.sizeFault? tolerance level.height with
    | some fault => exact ⟨_, rfl⟩
    | none =>
      exact exists_bind_eq_ok (Footprint.exists_edge (by omega) (by omega)) fun _ => ⟨_, rfl⟩

/-- The openings of a house can always be checked. -/
theorem exists_firstRefused? (tolerance : Float) (levelOf : String → Option (Level Float))
    (openings : List (Opening Float)) : ∃ r, firstRefused? tolerance levelOf openings = .ok r := by
  induction openings with
  | nil => exact ⟨none, rfl⟩
  | cons o rest ih =>
    refine exists_bind_eq_ok (o.exists_fault? tolerance _) fun fault? => ?_
    cases fault? with
    | some fault => exact ⟨_, rfl⟩
    | none => exact ih

theorem Opening.outward_failsOnly (o : Opening Float) (outer : Ring Float) (a : Point Float)
    (tangent : Vec Float) (uMin uMax : Float) :
    OnlyOverflow (o.outward outer a tangent uMin uMax) := by
  unfold Opening.outward
  split
  · exact .ok _
  · exact .ok _
  · exact outer.outwardNormal_failsOnly _ _ _ _ _

theorem Opening.placeOn_failsOnly (o : Opening Float) (levelIndex : ℕ) (level : Level Float)
    {edgeIndex : ℕ} (hedge : edgeIndex < level.footprint.outer.length) :
    OnlyOverflow (o.placeOn levelIndex level edgeIndex) := by
  have hlt : (edgeIndex : Int) < level.footprint.outer.length := by omega
  refine .bind (.of_exists (Footprint.exists_edge (Int.natCast_nonneg _) hlt)) fun ab => ?_
  dsimp only
  split_ifs with hshort
  · exact .pure _
  · refine .bind (.of_exists (Vec.exists_divide _ (beq_zero_of_not_le hshort))) fun tangent => ?_
    exact .bind (o.outward_failsOnly _ _ _ _ _) fun _ => .pure _

/-- **Only an overflow stops the placing** of an opening. -/
theorem House.placeOpening_failsOnly (h : House Float) (o : Opening Float) :
    OnlyOverflow (h.placeOpening o) := by
  unfold House.placeOpening
  split
  next level _ _ =>
    split
    next edgeIndex hedge =>
      obtain ⟨⟨h0, hlt⟩, hindex⟩ := Option.ite_none_right_eq_some.1 hedge
      have hindex := Option.some_inj.1 hindex
      exact o.placeOn_failsOnly _ _ (by omega)
    · exact .ok _
  · exact .ok _

theorem House.placeOpenings_failsOnly (h : House Float) : OnlyOverflow h.placeOpenings :=
  .bind (.mapM fun o _ => h.placeOpening_failsOnly o) fun _ => .pure _

/-! ## Slabs and walls -/

theorem Level.buildSlab_failsOnly (convention : ElevationConvention) (levelIndex : ℕ)
    (l : Level Float) : OnlyOverflow (l.buildSlab convention levelIndex) := by
  unfold Level.buildSlab
  cases l.slab with
  | none => exact .ok _
  | some s =>
    dsimp only
    split_ifs
    · exact .bind (Ring.offsetInward_failsOnly _ _) fun _ => .pure _
    · exact .ok _

theorem House.buildSlabs_failsOnly (h : House Float) : OnlyOverflow h.buildSlabs :=
  .bind (.mapM fun li _ => li.1.buildSlab_failsOnly _ li.2) fun _ => .pure _

theorem Level.buildShell_failsOnly (wallThickness : Float) (l : Level Float) :
    OnlyOverflow (l.buildShell wallThickness) :=
  .bind (Ring.offsetInward_failsOnly _ _) fun _ =>
    .bind (Ring.offsetInward_failsOnly _ _) fun _ => .pure _

theorem House.buildShells_failsOnly (h : House Float) : OnlyOverflow h.buildShells :=
  .mapM fun l _ => l.buildShell_failsOnly _

theorem Level.exists_segment (wallThickness : Float) (l : Level Float) (edgeIndex : ℕ)
    (a b : Point Float) : ∃ s, l.buildSegment wallThickness edgeIndex a b = .ok s := by
  unfold Level.buildSegment
  by_cases hlength : ((Vec.between a b).length == 0.0) = true
  · exact ⟨none, if_pos hlength⟩
  · rw [if_neg hlength]
    exact exists_bind_eq_ok (Vec.exists_divide _ (Bool.eq_false_of_not_eq_true hlength))
      fun _ => ⟨_, rfl⟩

/-- **Wall segments are always built**: an edge without length has none, and any other length
can be divided by. -/
theorem House.exists_segments (h : House Float) : ∃ segments, h.buildSegments = .ok segments := by
  refine exists_bind_eq_ok (exists_mapM_eq_ok fun l _ => ?_) fun _ => ⟨_, rfl⟩
  unfold Level.buildSegments
  split_ifs
  · exact ⟨[], rfl⟩
  · exact exists_bind_eq_ok (exists_mapM_eq_ok fun e _ => l.exists_segment _ e.2 e.1.1 e.1.2)
      fun _ => ⟨_, rfl⟩

/-! ## Panels -/

theorem Level.buildPanel_failsOnly (thickness : Float) (levelIndex : ℕ) (l : Level Float)
    (edgeIndex : ℕ) (a b : Point Float) (openings : List (PlacedOpening Float)) :
    OnlyOverflow (l.buildPanel thickness levelIndex edgeIndex a b openings) := by
  unfold Level.buildPanel
  dsimp only
  split_ifs with hshort
  · exact .pure _
  · have hdivide := (Vec.between a b).exists_divide
      (beq_zero_of_not_lt_bound (by decide +kernel) hshort)
    refine .bind (.of_exists hdivide) fun tangent => ?_
    cases openings with
    | nil => exact .bind (Ring.outwardNormal_failsOnly _ _ _ _ _ _) fun _ => .pure _
    | cons first rest => exact .pure _

theorem Level.buildPanels_failsOnly (thickness : Float) (openings : List (PlacedOpening Float))
    (levelIndex : ℕ) (l : Level Float) :
    OnlyOverflow (l.buildPanels thickness openings levelIndex) := by
  unfold Level.buildPanels
  split_ifs
  · exact .pure _
  · exact .bind (.mapM fun e _ => l.buildPanel_failsOnly _ _ _ _ _ _) fun _ => .pure _

theorem House.buildPanels_failsOnly (h : House Float) (openings : List (PlacedOpening Float))
    (thickness : Float) : OnlyOverflow (h.buildPanels openings thickness) :=
  .bind (.mapM fun li _ => li.1.buildPanels_failsOnly _ _ li.2) fun _ => .pure _

/-! ## The house -/

/-- A square is too large in the making of a part of a house: of one of its openings or roofs, or
of the slab, the walls or the panels of one of its levels. -/
inductive House.Overflows (kernel : AreaKernel Float) (h : House Float) : Prop
  | opening {o : Opening Float} (mem : o ∈ h.openings)
    (stops : h.placeOpening o = .error .overflow)
  | roof {roof : Roof Float} (mem : roof ∈ h.roofs)
    (stops : h.buildReported kernel roof = .error .overflow)
  | slab {i : ℕ} {l : Level Float} (mem : h.levels[i]? = some l)
    (stops : l.buildSlab h.elevationConvention i = .error .overflow)
  | shell {l : Level Float} (mem : l ∈ h.levels)
    (stops : l.buildShell h.wallThickness = .error .overflow)
  | panels {i : ℕ} {l : Level Float} {openings : List (PlacedOpening Float)}
    (mem : h.levels[i]? = some l) (placed : h.placeOpenings = .ok openings)
    (stops : l.buildPanels Tolerance.panelThickness openings i = .error .overflow)

section House

variable {kernel : AreaKernel Float} {h : House Float} {mode : ReportMode} {tolerance : Float}

/-- The parts of a house that does not overflow. -/
theorem House.exists_parts (hkernel : kernel.BlamesShapes) (hno : ¬ h.Overflows kernel) :
    ∃ openings roofs slabs shells segments panels, h.placeOpenings = .ok openings ∧
      h.buildReportedRoofs kernel = .ok roofs ∧ h.buildSlabs = .ok slabs ∧
      h.buildShells = .ok shells ∧ h.buildSegments = .ok segments ∧
      h.buildPanels openings Tolerance.panelThickness = .ok panels := by
  obtain ⟨found, hfound⟩ := exists_mapM_eq_ok fun o ho =>
    (h.placeOpening_failsOnly o).exists_eq_ok fun hstop => hno (.opening ho hstop)
  have hplaced : h.placeOpenings = .ok (found.filterMap id) :=
    House.placeOpenings_eq_ok_iff.2 ⟨found, mapM_eq_ok.1 hfound, rfl⟩
  obtain ⟨outcomes, houtcomes⟩ := exists_mapM_eq_ok fun roof hroof =>
    (h.buildReported_failsOnly hkernel roof).exists_eq_ok fun hstop => hno (.roof hroof hstop)
  obtain ⟨slabs, hslabs⟩ : ∃ slabs, h.buildSlabs = .ok slabs := by
    refine exists_bind_eq_ok (exists_mapM_eq_ok fun li hli => ?_) fun _ => ⟨_, rfl⟩
    refine (li.1.buildSlab_failsOnly _ _).exists_eq_ok fun hstop => hno (.slab ?_ hstop)
    exact List.mem_zipIdx_iff_getElem?.1 hli
  obtain ⟨shells, hshells⟩ := exists_mapM_eq_ok fun (l : Level Float) hl =>
    (l.buildShell_failsOnly h.wallThickness).exists_eq_ok fun hstop => hno (.shell hl hstop)
  obtain ⟨segments, hsegments⟩ := h.exists_segments
  obtain ⟨panels, hpanels⟩ : ∃ panels, h.buildPanels (found.filterMap id)
      Tolerance.panelThickness = .ok panels := by
    refine exists_bind_eq_ok (exists_mapM_eq_ok fun li hli => ?_) fun _ => ⟨_, rfl⟩
    refine (li.1.buildPanels_failsOnly _ _ _).exists_eq_ok fun hstop =>
      hno (.panels ?_ hplaced hstop)
    exact List.mem_zipIdx_iff_getElem?.1 hli
  exact ⟨_, _, slabs, shells, segments, panels, hplaced,
    House.buildReportedRoofs_eq_ok.2 ⟨outcomes, mapM_eq_ok.1 houtcomes, rfl⟩, hslabs, hshells,
    hsegments, hpanels⟩

/-- A house that was built does not overflow. -/
theorem House.not_overflows_of_build {b : BuiltHouse Float}
    (hb : h.build kernel mode tolerance = .ok b) : ¬ h.Overflows kernel := by
  obtain ⟨-, -, hopenings, hroofs, hslabs, hshells, -, hpanels⟩ := House.build_eq_ok.1 hb
  intro hover
  cases hover with
  | opening mem stops =>
    obtain ⟨found, hfound, -⟩ := House.placeOpenings_eq_ok_iff.1 hopenings
    obtain ⟨r, -, hr⟩ := exists_of_forall₂_right hfound.flip mem
    cases stops.symm.trans hr
  | roof mem stops =>
    obtain ⟨outcomes, houtcomes, -⟩ := House.buildReportedRoofs_eq_ok.1 hroofs
    obtain ⟨o, -, ho⟩ := exists_of_forall₂_right houtcomes.flip mem
    cases stops.symm.trans ho
  | @slab i l mem stops =>
    obtain ⟨slabs, hslabs, -⟩ := bind_eq_ok.1 hslabs
    have hmem : (l, i) ∈ h.levels.zipIdx := List.mem_zipIdx_iff_getElem?.2 mem
    obtain ⟨s, -, hs⟩ := exists_of_forall₂_right (mapM_eq_ok.1 hslabs).flip hmem
    cases stops.symm.trans hs
  | shell mem stops =>
    obtain ⟨s, -, hs⟩ := exists_of_forall₂_right (mapM_eq_ok.1 hshells).flip mem
    cases stops.symm.trans hs
  | @panels i l openings mem placed stops =>
    obtain rfl : b.openings = openings := Except.ok.inj (hopenings.symm.trans placed)
    obtain ⟨panels, hpanels, -⟩ := bind_eq_ok.1 hpanels
    have hmem : (l, i) ∈ h.levels.zipIdx := List.mem_zipIdx_iff_getElem?.2 mem
    obtain ⟨p, -, hp⟩ := exists_of_forall₂_right (mapM_eq_ok.1 hpanels).flip hmem
    cases stops.symm.trans hp

/-- **A house is built unless it overflows**, if its structure is accepted and its openings
fit. -/
theorem House.exists_build_iff (hkernel : kernel.BlamesShapes)
    (hstructure : (h.structureReport tolerance).settle mode = .ok (h.structureReport tolerance))
    (hfit : h.refusedOpening? Tolerance.openingFit = .ok none) :
    (∃ b, h.build kernel mode tolerance = .ok b) ↔ ¬ h.Overflows kernel := by
  constructor
  · rintro ⟨b, hb⟩
    exact House.not_overflows_of_build hb
  · intro hno
    obtain ⟨openings, roofs, slabs, shells, segments, panels, ho, hr, hs, hw, hg, hp⟩ :=
      House.exists_parts hkernel hno
    exact ⟨⟨_, slabs, shells, segments, openings, panels, roofs.1, roofs.2⟩,
      House.build_eq_ok.2 ⟨hstructure, hfit, ho, hr, hs, hw, hg, hp⟩⟩

/-- What stops the building of a house: its structure, one of its openings, or a failure of the
given kind for which no shape is to blame. -/
inductive House.StopsOver (P : GeometryError → Prop) (h : House Float) (mode : ReportMode)
    (tolerance : Float) : BuildError Float → Prop
  | unsound {report : StructureReport Float}
    (refused : (h.structureReport tolerance).settle mode = .error report) :
    StopsOver P h mode tolerance (.structureRefused report)
  | misfit {refused : RefusedOpening Float}
    (found : h.refusedOpening? Tolerance.openingFit = .ok (some refused)) :
    StopsOver P h mode tolerance (.openingRefused refused)
  | geometry {cause : GeometryError} (kind : P cause) (shapeless : cause.concernsShape = false) :
    StopsOver P h mode tolerance (.geometry cause)

/-- **Nothing else stops the building** of a house. -/
theorem House.build_stopsOnly {P : GeometryError → Prop} (hover : P .overflow)
    (hkernel : kernel.StopsOnly P) (h : House Float) (mode : ReportMode) (tolerance : Float) :
    FailsOnly (h.StopsOver P mode tolerance) (h.build kernel mode tolerance) := by
  have hpart {β : Type} {c : Computed β} (hc : OnlyOverflow c) :
      FailsOnly (h.StopsOver P mode tolerance) c.forHouse :=
    hc.mapError fun _ he => he ▸ .geometry hover rfl
  obtain ⟨refused?, hrefused⟩ := exists_firstRefused? Tolerance.openingFit h.lastLevel? h.openings
  have hroofs : FailsOnly (h.StopsOver P mode tolerance) (h.buildReportedRoofs kernel).forHouse :=
    (h.buildReportedRoofs_stopsOnly hover hkernel).mapError fun _ he => .geometry he.1 he.2
  refine .bind (FailsOnly.mapError (fun _ he => .unsound he) fun _ he => he) fun report => ?_
  refine .bind_of_eq_ok (Computed.forHouse_eq_ok.2 hrefused) ?_
  cases refused? with
  | some refused => exact .error (.misfit hrefused)
  | none =>
    refine .bind (hpart h.placeOpenings_failsOnly) fun openings => ?_
    refine .bind hroofs fun roofs => ?_
    refine .bind (hpart h.buildSlabs_failsOnly) fun slabs => ?_
    refine .bind (hpart h.buildShells_failsOnly) fun shells => ?_
    refine .bind (hpart (.of_exists h.exists_segments)) fun segments => ?_
    exact .bind (hpart (h.buildPanels_failsOnly openings _)) fun panels => .pure _

/-- **Nothing but an overflow stops the building** of a house that is accepted. -/
theorem House.build_failsOnly (hkernel : kernel.BlamesShapes)
    (hstructure : (h.structureReport tolerance).settle mode = .ok (h.structureReport tolerance))
    (hfit : h.refusedOpening? Tolerance.openingFit = .ok none) :
    FailsOnly (· = .geometry .overflow) (h.build kernel mode tolerance) := by
  refine (h.build_stopsOnly (.inr rfl) hkernel.stopsOnly mode tolerance).mono fun e he => ?_
  cases he with
  | unsound refused => cases refused.symm.trans hstructure
  | misfit found => cases found.symm.trans hfit
  | geometry kind shapeless =>
    rcases kind with hshape | rfl
    · cases hshape.symm.trans shapeless
    · rfl

end House

end Housewright
