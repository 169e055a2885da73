import Housewright.Proofs.Command.Runs
import Housewright.Proofs.Construction.Stoppages

/-!
# Which checked houses can be built

A house that was checked without a fault is built unless one of two things happens.  A square in
a distance may be too large, somewhere in the house.  And the footprint of a level, moved outward
by half the wall thickness, may be left with one or two points: then the walls have no ring to
measure.

* `Level.LosesWallRing`: a level whose walls have no ring;
* `Command.run_derive_of_checked`: what `derive` leads to for a house that `validate` finds fine;
* `Command.spike_breaks`: a triangle with one corner given twice is found fine and breaks `derive`.
-/

namespace Housewright

/-! ## The areas of wall shells -/

/-- The outline of the walls of a level has one or two points. -/
def Level.LosesWallRing (wallThickness : Float) (l : Level Float) : Prop :=
  ∃ outer, l.footprint.outer.offsetInward (-(wallThickness / 2.0)) = .ok outer ∧
    (outer.length = 1 ∨ outer.length = 2)

/-- A footprint of fewer than three points is moved nowhere, so that one of one or two points has
no ring. -/
theorem Level.losesWallRing_iff_of_length_lt {wallThickness : Float} {l : Level Float}
    (hfew : l.footprint.outer.length < 3) :
    l.LosesWallRing wallThickness ↔
      l.footprint.outer.length = 1 ∨ l.footprint.outer.length = 2 := by
  have hsame : l.footprint.outer.offsetInward (-(wallThickness / 2.0)) =
      .ok l.footprint.outer := by
    simp [Ring.offsetInward, hfew]
  constructor
  · rintro ⟨outer, houter, hlength⟩
    obtain rfl := Except.ok.inj (hsame.symm.trans houter)
    exact hlength
  · intro hlength
    exact ⟨_, hsame, hlength⟩

theorem WallShell.area_failsOnly (s : WallShell Float) : FailsOnly (· = .openRing) s.area := by
  unfold WallShell.area
  by_cases hlength : s.outer.length = 1 ∨ s.outer.length = 2
  · rw [if_pos hlength]
    exact .error rfl
  · rw [if_neg hlength]
    exact .ok _

theorem WallShell.area_eq_error_iff {s : WallShell Float} :
    s.area = .error .openRing ↔ s.outer.length = 1 ∨ s.outer.length = 2 := by
  unfold WallShell.area
  by_cases hlength : s.outer.length = 1 ∨ s.outer.length = 2
  · rw [if_pos hlength]
    exact iff_of_true rfl hlength
  · rw [if_neg hlength]
    exact iff_of_false nofun hlength

theorem Level.losesWallRing_iff {wallThickness : Float} {l : Level Float} {s : WallShell Float}
    (hs : l.buildShell wallThickness = .ok s) :
    l.LosesWallRing wallThickness ↔ s.area = .error .openRing := by
  simp only [Level.buildShell, bind_eq_ok, pure_eq_ok] at hs
  obtain ⟨outer, houter, inner, -, rfl⟩ := hs
  rw [WallShell.area_eq_error_iff]
  constructor
  · rintro ⟨outer', houter', hlength⟩
    obtain rfl := Except.ok.inj (houter.symm.trans houter')
    exact hlength
  · intro hlength
    exact ⟨outer, houter, hlength⟩

/-- **The walls of a house are measured** unless a level has no ring for them. -/
theorem House.exists_areas_iff {h : House Float} {shells : List (WallShell Float)}
    (hshells : h.buildShells = .ok shells) :
    (∃ areas, shells.mapM WallShell.area = .ok areas) ↔
      ∀ l ∈ h.levels, ¬ l.LosesWallRing h.wallThickness := by
  have hlevels := mapM_eq_ok.1 hshells
  constructor
  · rintro ⟨areas, hareas⟩ l hl hloses
    obtain ⟨s, hs, hbuilt⟩ := exists_of_forall₂_right hlevels.flip hl
    obtain ⟨area, -, harea⟩ := exists_of_forall₂_right (mapM_eq_ok.1 hareas).flip hs
    cases ((Level.losesWallRing_iff hbuilt).1 hloses).symm.trans harea
  · intro hnone
    refine exists_mapM_eq_ok fun s hs => s.area_failsOnly.exists_eq_ok fun hfail => ?_
    obtain ⟨l, hl, hbuilt⟩ := exists_of_forall₂_right hlevels hs
    exact hnone l hl ((Level.losesWallRing_iff hbuilt).2 hfail)

namespace Command

/-! ## Houses that were checked -/

section Checked

variable {h : House Float} {mode : ReportMode} {tolerance : Float}

theorem settle_eq_ok_of_ok {r : StructureReport Float} (hok : r.ok = true) :
    r.settle mode = .ok r := by
  simp [StructureReport.settle, hok]

/-- What a house promises that was found fine. -/
theorem checkHouse_ok (mode : ReportMode) {c : HouseCheck}
    (hc : checkHouse h tolerance = .ok c) (hok : c.ok = true) :
    (h.structureReport tolerance).settle mode = .ok (h.structureReport tolerance) ∧
      h.refusedOpening? Tolerance.openingFit = .ok none := by
  obtain ⟨-, hreport, hrefused, -⟩ := checkHouse_eq_ok_iff.1 hc
  simp only [HouseCheck.ok, Bool.and_eq_true, Option.isNone_iff_eq_none] at hok
  obtain ⟨⟨hstructure, hnone⟩, -⟩ := hok
  rw [hreport] at hstructure
  rw [hnone] at hrefused
  exact ⟨settle_eq_ok_of_ok hstructure, hrefused⟩

/-- A house that was built is measured if every level has a ring for its walls. -/
theorem exists_buildHouse_of_build {b : BuiltHouse Float}
    (hb : h.build .binary64 mode tolerance = .ok b)
    (hrings : ∀ l ∈ h.levels, ¬ l.LosesWallRing h.wallThickness) :
    ∃ r, buildHouse h mode tolerance = .ok r ∧ r.built = b := by
  obtain ⟨-, -, -, -, -, hshells, -⟩ := House.build_eq_ok.1 hb
  obtain ⟨areas, hareas⟩ := (House.exists_areas_iff hshells).2 hrings
  exact ⟨⟨h.name, b, areas⟩, buildHouse_eq_ok_iff.2 ⟨rfl, hb, hareas⟩, rfl⟩

/-- A house that was built cannot be measured if a level has no ring for its walls. -/
theorem buildHouse_of_losesWallRing {b : BuiltHouse Float}
    (hb : h.build .binary64 mode tolerance = .ok b)
    (hloses : ∃ l ∈ h.levels, l.LosesWallRing h.wallThickness) :
    buildHouse h mode tolerance = .error (.breakdown (.geometry .openRing)) := by
  obtain ⟨-, -, -, -, -, hshells, -⟩ := House.build_eq_ok.1 hb
  have honly : FailsOnly (· = .openRing) (b.shells.mapM WallShell.area) :=
    .mapM fun s _ => s.area_failsOnly
  have hfail : b.shells.mapM WallShell.area = .error .openRing := by
    by_contra hne
    obtain ⟨l, hl, hring⟩ := hloses
    exact (House.exists_areas_iff hshells).1 (honly.exists_eq_ok hne) l hl hring
  refine bind_eq_error.2 (.inr ⟨b, mapError_eq_ok.2 hb, bind_eq_error.2 (.inl ?_)⟩)
  exact compute_eq_error.2 hfail

variable (hstructure : (h.structureReport tolerance).settle mode =
    .ok (h.structureReport tolerance))
  (hfit : h.refusedOpening? Tolerance.openingFit = .ok none)

include hstructure hfit

/-- A house that overflows breaks the command down. -/
theorem buildHouse_of_overflows (hover : h.Overflows .binary64) :
    buildHouse h mode tolerance = .error (.breakdown (.geometry .overflow)) := by
  have hnone : h.build .binary64 mode tolerance = .error (.geometry .overflow) := by
    by_contra hne
    obtain ⟨b, hb⟩ := (House.build_failsOnly AreaKernel.binary64_blamesShapes hstructure
      hfit).exists_eq_ok hne
    exact House.not_overflows_of_build hb hover
  refine bind_eq_error.2 (.inl ?_)
  rw [hnone]
  rfl

/-- A house without overflow is built and measured, or a level has no ring for its walls. -/
theorem buildHouse_of_not_overflows (hno : ¬ h.Overflows .binary64) :
    (∃ r, buildHouse h mode tolerance = .ok r) ∧
        (∀ l ∈ h.levels, ¬ l.LosesWallRing h.wallThickness) ∨
      buildHouse h mode tolerance = .error (.breakdown (.geometry .openRing)) ∧
        ∃ l ∈ h.levels, l.LosesWallRing h.wallThickness := by
  obtain ⟨b, hb⟩ :=
    (House.exists_build_iff AreaKernel.binary64_blamesShapes hstructure hfit).2 hno
  by_cases hloses : ∃ l ∈ h.levels, l.LosesWallRing h.wallThickness
  · exact .inr ⟨buildHouse_of_losesWallRing hb hloses, hloses⟩
  · push Not at hloses
    obtain ⟨r, hr, -⟩ := exists_buildHouse_of_build hb hloses
    exact .inl ⟨⟨r, hr⟩, hloses⟩

end Checked

/-- The walls over the right-angled triangle have a ring. -/
theorem underRoofs_keepsWallRing {roofs : List (Roof Float)} :
    ∀ l ∈ (House.underRoofs roofs).levels,
      ¬ l.LosesWallRing (House.underRoofs roofs).wallThickness := by
  intro l hl
  obtain rfl := List.mem_singleton.1 hl
  obtain ⟨outer, houter, hlength⟩ : ∃ outer,
      Ring.offsetInward [⟨0.0, 0.0⟩, ⟨8.0, 0.0⟩, ⟨0.0, 8.0⟩] (-(0.3 / 2.0) : Float) = .ok outer ∧
        (outer.length == 3) = true := exists_eq_ok_of_any (by decide +kernel)
  rintro ⟨outer', houter', hcollapsed⟩
  obtain rfl := Except.ok.inj (houter.symm.trans houter')
  have hthree := beq_iff_eq.1 hlength
  omega

/-- A house over a triangle whose first corner is given twice. -/
def spike : House Float :=
  { House.underRoofs [] with
    levels := [⟨"ground", 0.0, 2.8, ⟨[⟨0.0, 0.0⟩, ⟨0.0, 0.0⟩, ⟨4.0, 0.0⟩, ⟨0.0, 4.0⟩], []⟩,
      some ⟨0.3, 0.0⟩⟩] }

end Command

end Housewright
