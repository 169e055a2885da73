import Housewright.Proofs.Construction.Stoppages
import Housewright.Proofs.Inspection.StructureVerdict

/-!
# Slabs that are built and slabs that are missed

Whether a level has a slab is asked twice: a slab is built if its thickness is above zero, and the
structural report misses a slab whose thickness is not above zero and finite.  The two answers
differ on a slab without an end only.

* `House.mem_buildSlabs_iff`: the slabs of a house are those of its levels;
* `House.exists_buildSlabs_iff`: when they can be built;
* `House.mem_issues_iff`: what a report says about one level;
* `House.buildSlabs_agree`: a level gets a slab if and only if the report does not miss one, endless
  slabs apart; and the slab lies where the report looks for its support;
* `House.endless_differs`: an endless slab is built and missed.
-/

namespace Housewright

open Binary64

/-! ## Slabs that are built -/

section Built

variable {c : ElevationConvention} {i : ℕ} {l : Level Float}

/-- The level has a slab of a thickness above zero. -/
def Level.HasSlab (l : Level Float) : Prop := ∃ s, l.slab = some s ∧ 0.0 < s.thickness

/-- The level has a slab without an end. -/
def Level.HasEndlessSlab (l : Level Float) : Prop :=
  ∃ s, l.slab = some s ∧ 0.0 < s.thickness ∧ s.thickness.isFinite = false

theorem Level.buildSlab_eq_ok_none (h : l.buildSlab c i = .ok none) : ¬ l.HasSlab := by
  rintro ⟨s, hs, hpos⟩
  obtain ⟨slab, hslab, -⟩ := Level.buildSlab_eq_ok hs hpos h
  cases hslab

/-- A slab that is built has the index of its level and lies between the top and the underside
of the slab that the level asks for. -/
theorem Level.buildSlab_eq_ok_some {slab : Slab Float} (h : l.buildSlab c i = .ok (some slab)) :
    ∃ s, l.slab = some s ∧ 0.0 < s.thickness ∧ slab.levelIndex = i ∧
      slab.top = c.slabTop l.elevation s.thickness ∧
      slab.bottom = c.slabBottom l.elevation s.thickness := by
  unfold Level.buildSlab at h
  split at h
  · cases h
  next s hs =>
    split at h
    next hpos =>
      obtain ⟨outline, -, h⟩ := bind_eq_ok.1 h
      obtain rfl := Option.some_inj.1 (pure_eq_ok.1 h)
      exact ⟨s, hs, hpos, rfl, rfl, rfl⟩
    · cases h

/-- A slab can be built if its outline can be. -/
theorem Level.exists_buildSlab_iff : (∃ built, l.buildSlab c i = .ok built) ↔
    ∀ s, l.slab = some s → 0.0 < s.thickness →
      ∃ outline, l.footprint.outer.offsetInward s.inset = .ok outline := by
  unfold Level.buildSlab
  constructor
  · rintro ⟨built, h⟩ s hs hpos
    simp only [hs, if_pos hpos, bind_eq_ok] at h
    obtain ⟨outline, houtline, -⟩ := h
    exact ⟨outline, houtline⟩
  · intro h
    cases hs : l.slab with
    | none => exact ⟨none, rfl⟩
    | some s =>
      dsimp only
      split_ifs with hpos
      · exact exists_bind_eq_ok (h s hs hpos) fun _ => ⟨_, rfl⟩
      · exact ⟨none, rfl⟩

variable {h : House Float} {slabs : List (Slab Float)} {slab : Slab Float}

theorem House.buildSlabs_eq_ok (hb : h.buildSlabs = .ok slabs) :
    ∃ found, slabs = found.filterMap id ∧ List.Forall₂ (fun (li : Level Float × ℕ) built =>
      li.1.buildSlab h.elevationConvention li.2 = .ok built) h.levels.zipIdx found := by
  simp only [House.buildSlabs, bind_eq_ok, pure_eq_ok] at hb
  obtain ⟨found, hfound, rfl⟩ := hb
  exact ⟨found, rfl, mapM_eq_ok.1 hfound⟩

/-- **The slabs of a house can be built** if the outline of every level with a slab can be moved
inward. -/
theorem House.exists_buildSlabs_iff : (∃ slabs, h.buildSlabs = .ok slabs) ↔
    ∀ l ∈ h.levels, ∀ s, l.slab = some s → 0.0 < s.thickness →
      ∃ outline, l.footprint.outer.offsetInward s.inset = .ok outline := by
  constructor
  · rintro ⟨slabs, hb⟩ l hl
    obtain ⟨found, -, hall⟩ := House.buildSlabs_eq_ok hb
    obtain ⟨i, hi⟩ := List.mem_iff_getElem?.1 hl
    obtain ⟨built, -, hbuilt⟩ := exists_of_forall₂ hall (i := i) (x := (l, i))
      (by simp [List.getElem?_zipIdx, hi])
    exact Level.exists_buildSlab_iff.1 ⟨built, hbuilt⟩
  · intro hall
    refine exists_bind_eq_ok (exists_mapM_eq_ok fun li hli => ?_) fun _ => ⟨_, rfl⟩
    exact Level.exists_buildSlab_iff.2 (hall li.1 (List.fst_mem_of_mem_zipIdx hli))

/-- **The slabs of a house** are those that are built for its levels. -/
theorem House.mem_buildSlabs_iff (hb : h.buildSlabs = .ok slabs) :
    slab ∈ slabs ↔ ∃ l, h.levels[slab.levelIndex]? = some l ∧
      l.buildSlab h.elevationConvention slab.levelIndex = .ok (some slab) := by
  obtain ⟨found, rfl, hall⟩ := House.buildSlabs_eq_ok hb
  simp only [List.mem_filterMap, id_eq, exists_eq_right]
  constructor
  · intro hmem
    obtain ⟨⟨l, i⟩, hl, hbuilt⟩ := exists_of_forall₂_right hall hmem
    obtain ⟨-, -, -, rfl, -⟩ := Level.buildSlab_eq_ok_some hbuilt
    exact ⟨l, List.mem_zipIdx_iff_getElem?.1 hl, hbuilt⟩
  · rintro ⟨l, hl, hbuilt⟩
    obtain ⟨found', hat, hfound⟩ := exists_of_forall₂ hall (i := slab.levelIndex)
      (x := (l, slab.levelIndex)) (by simp [List.getElem?_zipIdx, hl])
    obtain rfl := Except.ok.inj (hfound.symm.trans hbuilt)
    exact List.mem_of_getElem? hat

/-- No two slabs are of one level. -/
theorem House.nodup_buildSlabs (hb : h.buildSlabs = .ok slabs) :
    (slabs.map (·.levelIndex)).Nodup := by
  obtain ⟨found, rfl, hall⟩ := House.buildSlabs_eq_ok hb
  have hsublist : ((found.filterMap id).map (·.levelIndex)).Sublist
      (h.levels.zipIdx.map (·.2)) := by
    refine sublist_of_forall₂ (hall.imp ?_)
    rintro ⟨l, i⟩ built hbuilt slab rfl
    obtain ⟨-, -, -, hindex, -⟩ := Level.buildSlab_eq_ok_some hbuilt
    exact hindex
  refine hsublist.nodup ?_
  rw [List.zipIdx_map_snd]
  exact List.nodup_range'

/-- A level gets a slab if its slab has a thickness above zero. -/
theorem House.exists_mem_buildSlabs_iff (hb : h.buildSlabs = .ok slabs)
    (hl : h.levels[i]? = some l) : (∃ slab ∈ slabs, slab.levelIndex = i) ↔ l.HasSlab := by
  constructor
  · rintro ⟨slab, hmem, rfl⟩
    obtain ⟨l', hl', hbuilt⟩ := (House.mem_buildSlabs_iff hb).1 hmem
    obtain rfl := Option.some_inj.1 (hl.symm.trans hl')
    obtain ⟨s, hs, hpos, -⟩ := Level.buildSlab_eq_ok_some hbuilt
    exact ⟨s, hs, hpos⟩
  · intro hhas
    obtain ⟨found, rfl, hall⟩ := House.buildSlabs_eq_ok hb
    obtain ⟨built, hat, hbuilt⟩ := exists_of_forall₂ hall (i := i) (x := (l, i))
      (by simp [List.getElem?_zipIdx, hl])
    cases built with
    | none => exact absurd hhas (Level.buildSlab_eq_ok_none hbuilt)
    | some slab =>
      obtain ⟨-, -, -, hindex, -⟩ := Level.buildSlab_eq_ok_some hbuilt
      exact ⟨slab, by simpa using List.mem_of_getElem? hat, hindex⟩

end Built

/-! ## What a report says about a level -/

/-- The report misses the slab of the level at an index. -/
def StructureReport.MissesSlab (r : StructureReport Float) (i : ℕ) : Prop :=
  ∃ s ∈ r.issues, s.levelIndex = i ∧ s.finding.code = .slabMissing

/-- The finding is about what carries a slab. -/
def StructureFinding.ConcernsSupport (f : StructureFinding Float) : Prop :=
  f.code = .slabFloating ∨ f.code = .levelGapUnsupported

section Reported

variable {h : House Float} {tolerance : Float} {i : ℕ} {l : Level Float}

/-- **What a report says about one level** is out of its order or one of its own findings. -/
theorem House.mem_issues_iff (hl : h.levels[i]? = some l) {f : StructureFinding Float} :
    ⟨i, f⟩ ∈ (h.structureReport tolerance).issues ↔
      (∃ before, levelBelow h.readings i = some before ∧
        f ∈ orderFindings tolerance before (h.reading l)) ∨
      f ∈ levelFindings h.supportPolicy tolerance (levelBelow h.readings i) (h.reading l) := by
  have hreading : ∀ r, h.readings[i]? = some r ↔ r = h.reading l := by
    intro r
    rw [House.getElem?_readings]
    constructor
    · rintro ⟨l', hl', rfl⟩
      rw [Option.some_inj.1 (hl.symm.trans hl')]
    · rintro rfl
      exact ⟨l, hl, rfl⟩
  have hsorted : h.supportPolicy.sortedLevels = true := rfl
  simp only [House.structureReport, Housewright.structureReport, hsorted, if_true, List.mem_append,
    mem_issuesBy, hreading, exists_eq_left]
  refine or_congr_left ?_
  cases levelBelow h.readings i with
  | none => simp
  | some before => simp

theorem code_of_mem_orderFindings {before level : LevelReading Float} {f : StructureFinding Float}
    (hf : f ∈ orderFindings tolerance before level) : f.code = .levelOrderInvalid := by
  obtain ⟨-, hf⟩ := List.mem_ite_nil_right.1 hf
  rw [List.mem_singleton.1 hf]
  rfl

theorem concernsSupport_of_mem {policy : SupportPolicy} {below? : Option (LevelReading Float)}
    {level : LevelReading Float} {top bottom : Float} {f : StructureFinding Float}
    (hf : f ∈ supportFindings policy tolerance below? level top bottom) : f.ConcernsSupport := by
  unfold supportFindings at hf
  cases below? with
  | none =>
    obtain ⟨-, hf⟩ := List.mem_ite_nil_left.1 hf
    rw [List.mem_singleton.1 hf]
    exact .inl rfl
  | some below =>
    obtain ⟨-, hf⟩ := List.mem_ite_nil_right.1 hf
    rw [List.mem_singleton.1 hf]
    cases level.mayLeaveGap with
    | false => exact .inl rfl
    | true => exact .inr rfl

/-- The rules read the thickness of a slab if it is finite and above zero. -/
theorem House.thickness?_reading {t : Float} : (h.reading l).thickness? = some t ↔
    ∃ s, l.slab = some s ∧ s.thickness = t ∧ Scalar.isPositive t = true := by
  rw [LevelReading.thickness?, Option.filter_eq_some_iff, House.reading, Option.map_eq_some_iff]
  constructor
  · rintro ⟨⟨s, hs, rfl⟩, hpos⟩
    exact ⟨s, hs, rfl, hpos⟩
  · rintro ⟨s, hs, rfl, hpos⟩
    exact ⟨⟨s, hs, rfl⟩, hpos⟩

/-- The findings about a level whose slab is read. -/
theorem mem_levelFindings_iff {policy : SupportPolicy} {below? : Option (LevelReading Float)}
    {level : LevelReading Float} {t : Float} (ht : level.thickness? = some t)
    {f : StructureFinding Float} : f ∈ levelFindings policy tolerance below? level ↔
      f ∈ supportFindings policy tolerance below? level
          (policy.convention.slabTop level.elevation t)
          (policy.convention.slabBottom level.elevation t) ∨
        (Scalar.isFinite (policy.convention.slabTop level.elevation t) = false ∧
          f = .wallsFloating level.elevation t (policy.convention.slabTop level.elevation t)) ∨
        Scalar.isPositive level.height = false ∧
          f = .heightInvalid level.elevation level.height := by
  simp only [levelFindings, ht, List.mem_append, List.mem_ite_nil_left, List.mem_singleton,
    Bool.not_eq_true, or_assoc]

/-- **The report misses a slab** that is not there or whose thickness is not a finite number above
zero. -/
theorem House.missesSlab_iff (hl : h.levels[i]? = some l) :
    (h.structureReport tolerance).MissesSlab i ↔
      ¬ ∃ s, l.slab = some s ∧ Scalar.isPositive s.thickness = true := by
  constructor
  · rintro ⟨⟨_, f⟩, hmem, rfl, hcode⟩ ⟨s, hs, hpos⟩
    have hcode : f.code = .slabMissing := hcode
    have hread := House.thickness?_reading (h := h).2 ⟨s, hs, rfl, hpos⟩
    obtain ⟨before, -, hf⟩ | hf := (House.mem_issues_iff hl).1 hmem
    · rw [code_of_mem_orderFindings hf] at hcode
      cases hcode
    · obtain hf | ⟨-, rfl⟩ | ⟨-, rfl⟩ := (mem_levelFindings_iff hread).1 hf
      · rcases concernsSupport_of_mem hf with hsupport | hsupport <;>
          cases hcode.symm.trans hsupport
      · cases hcode
      · cases hcode
  · intro hnone
    have hread : (h.reading l).thickness? = none := by
      refine Option.eq_none_iff_forall_ne_some.2 fun t ht => ?_
      obtain ⟨s, hs, rfl, hpos⟩ := House.thickness?_reading.1 ht
      exact hnone ⟨s, hs, hpos⟩
    have hmissing : .slabMissing l.elevation l.height (l.slab.map (·.thickness)) ∈
        levelFindings h.supportPolicy tolerance (levelBelow h.readings i) (h.reading l) := by
      simp only [levelFindings, hread]
      exact List.mem_cons_self
    exact ⟨⟨i, _⟩, (House.mem_issues_iff hl).2 (.inr hmissing), rfl, rfl⟩

/-- **The report looks for support** below a slab between its top and its underside. -/
theorem House.mem_supportFindings_iff {s : SlabSpec Float} (hl : h.levels[i]? = some l)
    (hs : l.slab = some s) (hpos : Scalar.isPositive s.thickness = true)
    {f : StructureFinding Float} :
    f ∈ supportFindings h.supportPolicy tolerance (levelBelow h.readings i) (h.reading l)
        (h.elevationConvention.slabTop l.elevation s.thickness)
        (h.elevationConvention.slabBottom l.elevation s.thickness) ↔
      ⟨i, f⟩ ∈ (h.structureReport tolerance).issues ∧ f.ConcernsSupport := by
  have hread := House.thickness?_reading (h := h).2 ⟨s, hs, rfl, hpos⟩
  rw [House.mem_issues_iff hl, mem_levelFindings_iff hread]
  constructor
  · intro hf
    exact ⟨.inr (.inl hf), concernsSupport_of_mem hf⟩
  · rintro ⟨⟨before, -, hf⟩ | hf | ⟨-, rfl⟩ | ⟨-, rfl⟩, hsupport⟩
    · rw [StructureFinding.ConcernsSupport, code_of_mem_orderFindings hf] at hsupport
      rcases hsupport with hsupport | hsupport <;> cases hsupport
    · exact hf
    · rcases hsupport with hsupport | hsupport <;> cases hsupport
    · rcases hsupport with hsupport | hsupport <;> cases hsupport

end Reported

/-! ## Agreement -/

/-- A level has a slab if it is not missed or has no end. -/
theorem Level.hasSlab_iff {l : Level Float} : l.HasSlab ↔
    (∃ s, l.slab = some s ∧ Scalar.isPositive s.thickness = true) ∨ l.HasEndlessSlab := by
  constructor
  · rintro ⟨s, hs, hpos⟩
    cases hfinite : s.thickness.isFinite with
    | true => exact .inl ⟨s, hs, isPositive_iff.2 ⟨hfinite, hpos⟩⟩
    | false => exact .inr ⟨s, hs, hpos, hfinite⟩
  · rintro (⟨s, hs, hpos⟩ | ⟨s, hs, hpos, -⟩)
    · exact ⟨s, hs, (isPositive_iff.1 hpos).2⟩
    · exact ⟨s, hs, hpos⟩

section Agreement

variable {h : House Float} {tolerance : Float} {slabs : List (Slab Float)} {slab : Slab Float}
  {i : ℕ} {l : Level Float}

/-- A level gets a slab if it is not missed or has no end. -/
theorem House.exists_slab_iff (hb : h.buildSlabs = .ok slabs) (hl : h.levels[i]? = some l) :
    (∃ slab ∈ slabs, slab.levelIndex = i) ↔
      ¬ (h.structureReport tolerance).MissesSlab i ∨ l.HasEndlessSlab := by
  rw [House.exists_mem_buildSlabs_iff hb hl, House.missesSlab_iff hl, not_not, Level.hasSlab_iff]

/-- A slab lies where the convention puts it, and there the report looks for its support. -/
theorem House.band_of_mem (hb : h.buildSlabs = .ok slabs) (hl : h.levels[i]? = some l)
    (hmem : slab ∈ slabs) (hindex : slab.levelIndex = i) :
    (∃ s, l.slab = some s ∧
      slab.top = h.elevationConvention.slabTop l.elevation s.thickness ∧
      slab.bottom = h.elevationConvention.slabBottom l.elevation s.thickness) ∧
    (¬ (h.structureReport tolerance).MissesSlab i → ∀ f,
      f ∈ supportFindings h.supportPolicy tolerance (levelBelow h.readings i) (h.reading l)
          slab.top slab.bottom ↔
        ⟨i, f⟩ ∈ (h.structureReport tolerance).issues ∧ f.ConcernsSupport) := by
  obtain ⟨l', hl', hbuilt⟩ := (House.mem_buildSlabs_iff hb).1 hmem
  obtain rfl : l = l' := Option.some_inj.1 (hl.symm.trans (hindex ▸ hl'))
  obtain ⟨s, hs, -, -, htop, hbottom⟩ := Level.buildSlab_eq_ok_some hbuilt
  refine ⟨⟨s, hs, htop, hbottom⟩, fun hfound f => ?_⟩
  rw [House.missesSlab_iff hl, not_not] at hfound
  obtain ⟨s', hs', hpos⟩ := hfound
  obtain rfl : s' = s := Option.some_inj.1 (hs'.symm.trans hs)
  rw [htop, hbottom]
  exact House.mem_supportFindings_iff hl hs hpos

end Agreement

/-- **Slabs are built where none is missed.**  The slabs of a house can be built if the outline of
every level with a slab can be moved inward, and only an overflow prevents that.  Then a level
gets a slab, and only one, if and only if the report does not miss it or the slab has no end; the
slab lies between the top and the underside that the convention puts it at; and if the report
does not miss it, what the report says of its support is what the rule of support finds for this
top and this underside. -/
theorem House.buildSlabs_agree (h : House Float) (tolerance : Float) :
    ((∃ slabs, h.buildSlabs = .ok slabs) ↔
        ∀ l ∈ h.levels, ∀ s, l.slab = some s → 0.0 < s.thickness →
          ∃ outline, l.footprint.outer.offsetInward s.inset = .ok outline) ∧
      OnlyOverflow h.buildSlabs ∧
      ∃ rep, (h.structureReport tolerance).settle .report = .ok rep ∧
        ∀ slabs, h.buildSlabs = .ok slabs → (slabs.map (·.levelIndex)).Nodup ∧
          ∀ (i : ℕ) (l : Level Float), h.levels[i]? = some l →
            ((∃ slab ∈ slabs, slab.levelIndex = i) ↔ ¬ rep.MissesSlab i ∨ l.HasEndlessSlab) ∧
            ∀ slab ∈ slabs, slab.levelIndex = i →
              (∃ s, l.slab = some s ∧
                slab.top = h.elevationConvention.slabTop l.elevation s.thickness ∧
                slab.bottom = h.elevationConvention.slabBottom l.elevation s.thickness) ∧
              (¬ rep.MissesSlab i → ∀ f,
                f ∈ supportFindings h.supportPolicy tolerance (levelBelow h.readings i)
                    (h.reading l) slab.top slab.bottom ↔
                  ⟨i, f⟩ ∈ rep.issues ∧ f.ConcernsSupport) := by
  refine ⟨House.exists_buildSlabs_iff, h.buildSlabs_failsOnly, _,
    StructureReport.settle_report _, fun slabs hb => ⟨House.nodup_buildSlabs hb, ?_⟩⟩
  intro i l hl
  refine ⟨House.exists_slab_iff hb hl, fun slab hmem hindex => ?_⟩
  exact House.band_of_mem hb hl hmem hindex

/-- A house of one level whose slab has no end. -/
def House.endless : House Float where
  name := "Endless"
  wallThickness := 0.3
  elevationConvention := .topOfSlab
  allowGroundSupport := true
  supportGapLevelIds := []
  levels := [⟨"ground", 0.0, 2.8, ⟨[⟨0.0, 0.0⟩, ⟨4.0, 0.0⟩, ⟨4.0, 4.0⟩, ⟨0.0, 4.0⟩], []⟩,
    some ⟨1.0 / 0.0, 0.0⟩⟩]
  roofs := []
  openings := []

/-- **A slab without an end is built, and missed by the report.** -/
theorem House.endless_differs : ∃ slabs rep, House.endless.buildSlabs = .ok slabs ∧
    (House.endless.structureReport Tolerance.support).settle .report = .ok rep ∧
    (∃ slab ∈ slabs, slab.levelIndex = 0) ∧ rep.MissesSlab 0 := by
  obtain ⟨slabs, hslabs⟩ : ∃ slabs, House.endless.buildSlabs = .ok slabs :=
    exists_eq_ok_of_isSome (by decide +kernel)
  refine ⟨slabs, _, hslabs, StructureReport.settle_report _, ?_, ?_⟩
  · exact (House.exists_mem_buildSlabs_iff hslabs rfl).2 ⟨_, rfl, by decide +kernel⟩
  · refine (House.missesSlab_iff rfl).2 ?_
    rintro ⟨s, hs, hpos⟩
    obtain rfl := Option.some_inj.1 hs
    exact absurd hpos (by decide +kernel)

end Housewright
