import Housewright.Proofs.Decimal.Digits
import Housewright.Proofs.Exact.Real
import Housewright.Proofs.Inspection.StructureVerdict

/-!
# Box houses stand

In exact arithmetic the slab of every level of a box house lies on the walls of the level below
without any gap, however many levels there are, so that nothing is found whatever the tolerance.

* `BoxPlan.levels_eq`: the levels, each at its index times the height of a storey;
* `BoxPlan.slabBottom_eq_wallTop`: slabs lie on the walls below them;
* `issuesBy_eq_nil_iff`: when a rule of support finds nothing;
* `BoxPlan.level_id_inj`, `BoxPlan.level?_id`: the id of a level finds that level;
* `BoxPlan.house_stands`: the report on a box house is empty, and its roof is on the top level.
-/

namespace Housewright

/-! ## Rules that find nothing -/

/-- A rule finds nothing in a stack if it finds nothing on any level. -/
theorem issuesBy_eq_nil_iff {α : Type}
    {rule : Option (LevelReading α) → LevelReading α → List (StructureFinding α)}
    {levels : List (LevelReading α)} :
    issuesBy rule levels = [] ↔
      ∀ i level, levels[i]? = some level → rule (levelBelow levels i) level = [] := by
  simp only [List.eq_nil_iff_forall_not_mem, mem_issuesBy, not_exists, not_and]
  constructor
  · intro h i level hl f hf
    exact h ⟨i, f⟩ level hl hf
  · intro h s level hl hs
    exact h s.levelIndex level hl s.finding hs

/-- In exact arithmetic a number is positive if it is above zero. -/
theorem isPositive_of_pos {x : ℝ} (h : 0 < x) : Scalar.isPositive x = true := by
  have hzero : (0.0 : ℝ) < x := by norm_num [h]
  rw [Scalar.isPositive, decide_eq_true hzero]
  rfl

namespace BoxPlan

/-! ## The levels -/

section Levels

variable {α : Type} [Scalar α] (p : BoxPlan α)

/-- Levels of a box with different indices have different ids. -/
theorem level_id_inj {i j : ℕ} {e e' : α} (h : (p.level i e).id = (p.level j e').id) : i = j := by
  have htext : (toString i).toList = (toString j).toList := by
    have hlist := congrArg String.toList h
    simpa [level] using hlist
  have hdigits : Nat.toDigits 10 i = Nat.toDigits 10 j := by
    rwa [show toString i = i.repr from rfl, show toString j = j.repr from rfl, Nat.toList_repr,
      Nat.toList_repr] at htext
  rw [← Decimal.digitsValue_toDigits i, hdigits, Decimal.digitsValue_toDigits]

end Levels

variable (p : BoxPlan ℝ)

/-- What the elevation of a level is above that of the level below it. -/
def storey : ℝ := p.levelHeight + p.slabThickness

/-- The loop that stacks the levels keeps their distance. -/
theorem levelsFrom_eq (n index : ℕ) (elevation : ℝ) :
    p.levelsFrom n index elevation =
      (List.range n).map fun i => p.level (index + i) (elevation + i * p.storey) := by
  induction n generalizing index elevation with
  | zero => rfl
  | succ n ih =>
    rw [levelsFrom, ih, List.range_succ_eq_map, List.map_cons, List.map_map]
    congr 1
    · simp
    · refine List.map_congr_left fun i _ => ?_
      have hindex : index + 1 + i = index + (i + 1) := by omega
      have helevation : elevation + p.levelHeight + p.slabThickness + i * p.storey =
          elevation + ((i + 1 : ℕ) : ℝ) * p.storey := by
        rw [storey]
        push_cast
        ring
      show p.level (index + 1 + i) (elevation + p.levelHeight + p.slabThickness + i * p.storey) = _
      rw [hindex, helevation]
      rfl

/-- **The levels of a box house**: each is at its index times the height of a storey. -/
theorem levels_eq : p.levels = (List.range p.levelCount).map fun i => p.level i (i * p.storey) := by
  rw [levels, levelsFrom_eq]
  refine List.map_congr_left fun i _ => ?_
  norm_num

/-- **Every slab lies on the walls below it**, without a gap. -/
theorem slabBottom_eq_wallTop (i : ℕ) :
    ElevationConvention.topOfSlab.slabBottom (p.level (i + 1) ((i + 1 : ℕ) * p.storey)).elevation
      p.slabThickness = (p.level i (i * p.storey)).wallTop := by
  show ((i + 1 : ℕ) : ℝ) * p.storey - p.slabThickness = i * p.storey + p.levelHeight
  rw [storey]
  push_cast
  ring

/-! ## The report -/

/-- What the rules of support read of the level with an index. -/
def reading (i : ℕ) : LevelReading ℝ :=
  ⟨i * p.storey, p.levelHeight, some p.slabThickness, false⟩

theorem readings_house : p.house.readings = (List.range p.levelCount).map p.reading := by
  show p.levels.map _ = _
  rw [levels_eq, List.map_map]
  rfl

theorem eq_reading_of_getElem? {i : ℕ} {level : LevelReading ℝ}
    (h : p.house.readings[i]? = some level) : level = p.reading i := by
  rw [readings_house, List.getElem?_map, Option.map_eq_some_iff] at h
  obtain ⟨k, hk, rfl⟩ := h
  obtain ⟨hlt, rfl⟩ := List.getElem?_eq_some_iff.1 hk
  rw [List.getElem_range]

theorem levelBelow_readings {i : ℕ} {below : LevelReading ℝ}
    (h : levelBelow p.house.readings i = some below) : ∃ j, i = j + 1 ∧ below = p.reading j := by
  cases i with
  | zero => cases h
  | succ j => exact ⟨j, rfl, p.eq_reading_of_getElem? h⟩

section Findings

variable {p} {tolerance : ℝ}

/-- No level is below the one before it. -/
theorem orderFindings_eq_nil (hheight : 0 < p.levelHeight) (hslab : 0 < p.slabThickness)
    (ht : 0 ≤ tolerance) (i : ℕ) :
    orderFindings tolerance (p.reading i) (p.reading (i + 1)) = [] := by
  refine if_neg (not_lt.2 ?_)
  show (i : ℝ) * p.storey ≤ ((i + 1 : ℕ) : ℝ) * p.storey + tolerance
  have hstorey : 0 < p.storey := add_pos hheight hslab
  push_cast
  linarith

/-- There is no gap under any slab. -/
theorem gapFindings_eq_nil (ht : 0 ≤ tolerance) (i : ℕ) :
    gapFindings tolerance (p.reading i) (p.reading (i + 1))
      (ElevationConvention.topOfSlab.slabBottom (p.reading (i + 1)).elevation p.slabThickness) =
        [] := by
  refine if_neg (not_lt.2 ?_)
  have hgap : ElevationConvention.topOfSlab.slabBottom (p.reading (i + 1)).elevation
      p.slabThickness - ((p.reading i).elevation + (p.reading i).height) = 0 :=
    sub_eq_zero.2 (p.slabBottom_eq_wallTop i)
  show |_| ≤ tolerance
  rw [hgap, abs_zero]
  exact ht

variable (hheight : 0 < p.levelHeight) (hslab : 0 < p.slabThickness) (ht : 0 ≤ tolerance)

include hheight hslab ht

/-- Nothing is found on any level. -/
theorem levelFindings_eq_nil (i : ℕ) :
    levelFindings p.house.supportPolicy tolerance (levelBelow p.house.readings i) (p.reading i) =
      [] := by
  have hthickness : (p.reading i).thickness? = some p.slabThickness :=
    Option.filter_eq_some_iff.2 ⟨rfl, isPositive_of_pos hslab⟩
  have hwalls : Scalar.isPositive (p.reading i).height = true := isPositive_of_pos hheight
  have hsupport : supportFindings p.house.supportPolicy tolerance
      (levelBelow p.house.readings i) (p.reading i) (p.reading i).elevation
        (ElevationConvention.topOfSlab.slabBottom (p.reading i).elevation p.slabThickness) = [] := by
    cases hbelow : levelBelow p.house.readings i with
    | none => rfl
    | some below =>
      obtain ⟨j, rfl, rfl⟩ := p.levelBelow_readings hbelow
      exact gapFindings_eq_nil ht j
  unfold levelFindings
  rw [hthickness]
  simp only [hwalls, if_true, List.append_nil]
  exact List.append_eq_nil_iff.2 ⟨hsupport, rfl⟩

/-- **The report on a box house is empty.** -/
theorem structureReport_eq_nil : p.house.structureReport tolerance = ⟨[]⟩ := by
  refine congrArg StructureReport.mk (List.append_eq_nil_iff.2 ⟨?_, ?_⟩)
  · refine (if_pos rfl).trans (issuesBy_eq_nil_iff.2 fun i level hl => ?_)
    obtain rfl := p.eq_reading_of_getElem? hl
    cases hbelow : levelBelow p.house.readings i with
    | none => rfl
    | some below =>
      obtain ⟨j, rfl, rfl⟩ := p.levelBelow_readings hbelow
      exact orderFindings_eq_nil hheight hslab ht j
  · refine issuesBy_eq_nil_iff.2 fun i level hl => ?_
    obtain rfl := p.eq_reading_of_getElem? hl
    exact levelFindings_eq_nil hheight hslab ht i

end Findings

/-! ## The roof -/

/-- The id of a level of a box house finds that level. -/
theorem level?_id {i : ℕ} {l : Level ℝ} (h : p.levels[i]? = some l) :
    p.house.level? l.id = some l := by
  have hids : (p.house.levels.map (·.id)).Nodup := by
    show (p.levels.map (·.id)).Nodup
    rw [levels_eq, List.map_map]
    exact List.nodup_range.map fun i j hij => p.level_id_inj hij
  exact (find?_key_eq_some_iff hids).2 ⟨List.mem_of_getElem? h, rfl⟩

/-- There is a roof if one is asked for and there is a level to carry it. -/
theorem roofs_eq_nil_iff : p.roofs = [] ↔ p.roof = none ∨ p.levelCount = 0 := by
  have hlevels : p.levels.getLast? = none ↔ p.levelCount = 0 := by
    rw [List.getLast?_eq_none_iff, levels_eq, List.map_eq_nil_iff, List.range_eq_nil]
  rw [← hlevels, roofs]
  cases p.levels.getLast? with
  | none => cases p.roof <;> simp
  | some top =>
    cases p.roof with
    | none => simp
    | some roof => cases roof <;> simp

theorem baseLevelId_of_mem_roofs {roof : Roof ℝ} (h : roof ∈ p.roofs) :
    ∃ top, p.levels.getLast? = some top ∧ roof.baseLevelId = top.id := by
  unfold roofs at h
  split at h
  · rename_i top htop hflat
    obtain rfl := List.mem_singleton.1 h
    exact ⟨top, htop, rfl⟩
  · rename_i top htop hgable
    obtain rfl := List.mem_singleton.1 h
    exact ⟨top, htop, rfl⟩
  · cases h

/-- **Box houses stand.**  With walls and slabs of positive height, nothing is found in a box house
of any number of levels, whatever the tolerance and whether a report would stop the work or not.
Every level is at its index times the height of a storey.  There is a roof if one is asked for and
there are levels, and it is based on the top level, which its base id finds. -/
theorem house_stands {tolerance : ℝ} (hheight : 0 < p.levelHeight) (hslab : 0 < p.slabThickness)
    (ht : 0 ≤ tolerance) :
    (∀ mode, (p.house.structureReport tolerance).settle mode = .ok ⟨[]⟩) ∧
      p.house.levels.map (·.elevation) =
        (List.range p.levelCount).map (fun i : ℕ => i * (p.levelHeight + p.slabThickness)) ∧
      (p.house.roofs = [] ↔ p.roof = none ∨ p.levelCount = 0) ∧
      ∀ roof ∈ p.house.roofs, ∃ top, p.house.levels.getLast? = some top ∧
        roof.baseLevelId = top.id ∧ p.house.level? roof.baseLevelId = some top := by
  refine ⟨fun mode => ?_, ?_, p.roofs_eq_nil_iff, fun roof hroof => ?_⟩
  · rw [structureReport_eq_nil hheight hslab ht]
    cases mode <;> rfl
  · show p.levels.map _ = _
    rw [levels_eq, List.map_map]
    rfl
  · obtain ⟨top, htop, hbase⟩ := p.baseLevelId_of_mem_roofs hroof
    refine ⟨top, htop, hbase, ?_⟩
    rw [hbase]
    exact p.level?_id (List.getLast?_eq_getElem? ▸ htop)

/-- A tower of four levels under a gable roof. -/
noncomputable def tower : BoxPlan ℝ :=
  { (standard : BoxPlan ℝ) with levelCount := 4, roof := some .gable }

/-- The tower stands without any tolerance; its top level is at three storeys. -/
theorem tower_stands :
    0 < tower.levelHeight ∧ 0 < tower.slabThickness ∧
      (tower.house.structureReport 0).settle .throw = .ok ⟨[]⟩ ∧
      tower.house.levels.map (·.elevation) = [0, 3.05, 6.1, 9.15] ∧ tower.house.roofs ≠ [] := by
  have hheight : 0 < tower.levelHeight := by norm_num [tower, standard]
  have hslab : 0 < tower.slabThickness := by norm_num [tower, standard]
  obtain ⟨hreport, helevations, hroofs, -⟩ := tower.house_stands hheight hslab le_rfl
  refine ⟨hheight, hslab, hreport .throw, ?_, fun hnone => ?_⟩
  · rw [helevations]
    norm_num [tower, standard, List.range_succ]
  · obtain h | h := hroofs.1 hnone
    · cases h
    · cases h

end BoxPlan

end Housewright
