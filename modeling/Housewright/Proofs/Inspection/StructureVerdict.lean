import Housewright.Construction.Slabs
import Housewright.Construction.Walls
import Housewright.Inspection.Structure
import Housewright.Proofs.Binary64.Sums
import Housewright.Proofs.Steps
import Housewright.Sample.Box
import Housewright.Scalar.Binary64

/-!
# What an accepted structure promises

The rules of support compare in the failing direction: a comparison with not-a-number
finds nothing.  This file says what a house without errors promises all the same.

* `structureReport_ok_iff`: over any scalars, a report is ok if every level keeps every
  rule in the failing direction.
* `isNaN_gap`: the comparisons that matter are between numbers, because the top of the slab
  is finite and thickness and height are positive.
* `House.structureReport_exact`: the verdict is exact on floating-point numbers, and in an
  accepted house the slabs that are built lie on the walls that are built below them.
-/

namespace Housewright

section Rules

variable {α : Type} [Scalar α]

/-! ## Findings, level by level -/

/-- The level below the one at an index. -/
def levelBelow (levels : List (LevelReading α)) : ℕ → Option (LevelReading α)
  | 0 => none
  | i + 1 => levels[i]?

omit [Scalar α] in
theorem getElem?_withBelow {levels : List (LevelReading α)} {i : ℕ}
    {p : Option (LevelReading α) × LevelReading α} :
    (withBelow levels)[i]? = some p ↔
      levels[i]? = some p.2 ∧ p.1 = levelBelow levels i := by
  rw [withBelow, List.getElem?_zip_eq_some, and_comm]
  refine and_congr_right fun h => ?_
  cases i with
  | zero => simp [levelBelow, eq_comm]
  | succ i =>
    obtain ⟨below, hb⟩ : ∃ below, levels[i]? = some below :=
      ⟨_, List.getElem?_eq_getElem ((List.getElem?_eq_some_iff.1 h).1.trans' i.lt_succ_self)⟩
    simp [levelBelow, hb, eq_comm]

omit [Scalar α] in
/-- The findings of a rule are those that it makes on the levels, each with the level below. -/
theorem mem_issuesBy {rule : Option (LevelReading α) → LevelReading α → List (StructureFinding α)}
    {levels : List (LevelReading α)} {s : StructureIssue α} :
    s ∈ issuesBy rule levels ↔ ∃ level, levels[s.levelIndex]? = some level ∧
      s.finding ∈ rule (levelBelow levels s.levelIndex) level := by
  simp only [issuesBy, List.mem_flatMap, List.mem_map]
  constructor
  · rintro ⟨⟨p, i⟩, hp, f, hf, rfl⟩
    obtain ⟨hl, hb⟩ := getElem?_withBelow.1 (List.mem_zipIdx_iff_getElem?.1 hp)
    exact ⟨p.2, hl, hb ▸ hf⟩
  · rintro ⟨level, hl, hf⟩
    exact ⟨((levelBelow levels s.levelIndex, level), s.levelIndex),
      List.mem_zipIdx_iff_getElem?.2 (getElem?_withBelow.2 ⟨hl, rfl⟩), s.finding, hf, rfl⟩

omit [Scalar α] in
theorem forall_mem_issuesBy
    {rule : Option (LevelReading α) → LevelReading α → List (StructureFinding α)}
    {levels : List (LevelReading α)} {p : StructureFinding α → Prop} :
    (∀ s ∈ issuesBy rule levels, p s.finding) ↔
      ∀ i level, levels[i]? = some level → ∀ f ∈ rule (levelBelow levels i) level, p f := by
  constructor
  · intro h i level hl f hf
    exact h ⟨i, f⟩ (mem_issuesBy.2 ⟨level, hl, hf⟩)
  · intro h s hs
    obtain ⟨level, hl, hf⟩ := mem_issuesBy.1 hs
    exact h s.levelIndex level hl s.finding hf

omit [Scalar α] in
theorem StructureReport.ok_iff {r : StructureReport α} :
    r.ok = true ↔ ∀ s ∈ r.issues, s.finding.severity ≠ .error := by
  simp [StructureReport.ok]

/-- What the rules ask of a level above another one, or of the first level. -/
structure KeepsRules (policy : SupportPolicy) (tolerance : α) (below? : Option (LevelReading α))
    (level : LevelReading α) (thickness : α) : Prop where
  slab : level.slabThickness = some thickness
  positive : Scalar.isPositive thickness = true
  height : Scalar.isPositive level.height = true
  top : Scalar.isFinite (policy.convention.slabTop level.elevation thickness) = true
  ground : below? = none → policy.groundSupport = true
  gap : ∀ below, below? = some below → level.mayLeaveGap = false →
    ¬ tolerance < Scalar.abs (policy.convention.slabBottom level.elevation thickness -
      (below.elevation + below.height))

theorem supportFindings_clean_iff {policy : SupportPolicy} {tolerance top bottom : α}
    {below? : Option (LevelReading α)} {level : LevelReading α} :
    (∀ f ∈ supportFindings policy tolerance below? level top bottom, f.severity ≠ .error) ↔
      (below? = none → policy.groundSupport = true) ∧
      ∀ below, below? = some below → level.mayLeaveGap = false →
        ¬ tolerance < Scalar.abs (bottom - (below.elevation + below.height)) := by
  cases below? with
  | none => cases h : policy.groundSupport <;> simp [supportFindings, h, StructureFinding.severity]
  | some below =>
    by_cases hgap : tolerance < Scalar.abs (bottom - (below.elevation + below.height))
    · cases h : level.mayLeaveGap <;>
        simp [supportFindings, gapFindings, hgap, h, StructureFinding.severity]
    · simp [supportFindings, gapFindings, hgap]

theorem levelFindings_clean_iff {policy : SupportPolicy} {tolerance : α}
    {below? : Option (LevelReading α)} {level : LevelReading α} :
    (∀ f ∈ levelFindings policy tolerance below? level, f.severity ≠ .error) ↔
      ∃ thickness, KeepsRules policy tolerance below? level thickness := by
  unfold levelFindings
  cases hf : level.thickness? with
  | none =>
    refine ⟨fun h => absurd rfl (h _ List.mem_cons_self), fun ⟨t, ht⟩ => ?_⟩
    have hsome : level.thickness? = some t := Option.filter_eq_some_iff.2 ⟨ht.slab, ht.positive⟩
    rw [hf] at hsome
    cases hsome
  | some t =>
    obtain ⟨hs, ht⟩ := Option.filter_eq_some_iff.1 hf
    simp only [List.mem_append, or_imp, forall_and, supportFindings_clean_iff]
    constructor
    · rintro ⟨⟨hsup, htop⟩, hheight⟩
      refine ⟨t, hs, ht, ?_, ?_, hsup.1, hsup.2⟩
      · by_contra hneg
        rw [if_neg hneg] at hheight
        exact hheight _ List.mem_cons_self rfl
      · by_contra hneg
        rw [if_neg hneg] at htop
        exact htop _ List.mem_cons_self rfl
    · rintro ⟨t', k⟩
      obtain rfl : t' = t := Option.some_inj.1 (k.slab.symm.trans hs)
      refine ⟨⟨⟨k.ground, k.gap⟩, ?_⟩, ?_⟩
      · rw [if_pos k.top]
        exact fun _ h => nomatch h
      · rw [if_pos k.height]
        exact fun _ h => nomatch h

theorem orderFindings_clean_iff {tolerance : α} {before level : LevelReading α} :
    (∀ f ∈ orderFindings tolerance before level, f.severity ≠ .error) ↔
      ¬ level.elevation + tolerance < before.elevation := by
  by_cases h : level.elevation + tolerance < before.elevation <;>
    simp [orderFindings, h, StructureFinding.severity]

/-- **A report is ok if every level keeps the rules**, none of them in the failing
direction. -/
theorem structureReport_ok_iff {policy : SupportPolicy} {tolerance : α}
    {levels : List (LevelReading α)} :
    (structureReport policy tolerance levels).ok = true ↔
      ∀ i level, levels[i]? = some level →
        (policy.sortedLevels = true → ∀ before, levelBelow levels i = some before →
          ¬ level.elevation + tolerance < before.elevation) ∧
        ∃ thickness, KeepsRules policy tolerance (levelBelow levels i) level thickness := by
  have hfindings := @forall_mem_issuesBy α (levelFindings policy tolerance) levels
    fun f => f.severity ≠ .error
  rw [StructureReport.ok_iff]
  unfold structureReport
  simp only [List.mem_append, or_imp, forall_and, hfindings, levelFindings_clean_iff]
  refine and_congr_left fun _ => ?_
  by_cases hsorted : policy.sortedLevels = true
  · simp only [hsorted, if_true, forall_true_left]
    refine (@forall_mem_issuesBy α _ levels fun f => f.severity ≠ .error).trans ?_
    refine forall_congr' fun i => forall_congr' fun level => forall_congr' fun _ => ?_
    cases levelBelow levels i with
    | none => simp
    | some before => simpa using orderFindings_clean_iff
  · simp [hsorted]

end Rules

/-! ## Comparisons that are between numbers -/

open Binary64

theorem isPositive_iff {x : Float} :
    Scalar.isPositive x = true ↔ x.isFinite = true ∧ 0.0 < x := by
  simp only [Scalar.isPositive, Bool.and_eq_true, decide_eq_true_eq]
  rfl

/-- A slab with a finite top lies at a finite elevation. -/
theorem isFinite_elevation {c : ElevationConvention} {e t : Float}
    (h : (c.slabTop e t).isFinite = true) : e.isFinite = true := by
  cases c with
  | topOfSlab => exact h
  | bottomOfSlab => exact (isFinite_of_isFinite_add h).1

/-- The underside of a slab with a finite top is a number, and not the infinity above. -/
theorem slabBottom_lt {c : ElevationConvention} {e t : Float}
    (h : (c.slabTop e t).isFinite = true) (ht : Scalar.isPositive t = true) :
    (c.slabBottom e t).isNaN = false ∧ units (c.slabBottom e t) < infinityUnits := by
  have he := isFinite_elevation h
  have hn := isNaN_of_isFinite he
  obtain ⟨-, hlt⟩ := (isFinite_iff hn).1 he
  cases c with
  | topOfSlab =>
    obtain ⟨hft, hpos⟩ := isPositive_iff.1 ht
    have hle : e - t ≤ e := sub_le_of_pos he hft hpos
    have hnb := (isNaN_of_le hle).1
    exact ⟨hnb, ((le_iff hnb hn).1 hle).trans_lt hlt⟩
  | bottomOfSlab => exact ⟨hn, hlt⟩

/-- **The gap under a slab is a number** if the slab has a finite top and a positive
thickness, and the walls below have a finite foot and a positive height. -/
theorem isNaN_gap {c : ElevationConvention} {e t e' h' : Float}
    (hTop : (c.slabTop e t).isFinite = true) (ht : Scalar.isPositive t = true)
    (he' : e'.isFinite = true) (hh : Scalar.isPositive h' = true) :
    (c.slabBottom e t - (e' + h')).isNaN = false := by
  obtain ⟨hn, hlt⟩ := slabBottom_lt hTop ht
  obtain ⟨hfh, hpos⟩ := isPositive_iff.1 hh
  have hle : e' ≤ e' + h' := le_add_of_pos he' hfh hpos
  obtain ⟨hn', hns⟩ := isNaN_of_le hle
  exact isNaN_sub hn hns hlt (((isFinite_iff hn').1 he').1.trans_le ((le_iff hn' hns).1 hle))

/-! ## The verdict -/

/-- What it means that the levels of a house carry each other. -/
structure House.Stands (h : House Float) (tolerance : Float) : Prop where
  /-- Every level has a slab of finite positive thickness with a finite top, and walls of
  finite positive height. -/
  levels : ∀ l ∈ h.levels, ∃ s, l.slab = some s ∧ Scalar.isPositive s.thickness = true ∧
    Scalar.isPositive l.height = true ∧
    (h.elevationConvention.slabTop l.elevation s.thickness).isFinite = true
  /-- The first slab may rest on the ground. -/
  ground : h.levels = [] ∨ h.allowGroundSupport = true
  /-- No level is below the level before it. -/
  sorted : ∀ i below l, h.levels[i]? = some below → h.levels[i + 1]? = some l →
    below.elevation ≤ l.elevation + tolerance
  /-- Every other slab lies on the walls below, unless it may leave a gap. -/
  carried : ∀ i below l s, h.levels[i]? = some below → h.levels[i + 1]? = some l →
    l.slab = some s → l.id ∉ h.supportGapLevelIds →
    (h.elevationConvention.slabBottom l.elevation s.thickness - below.wallTop).abs ≤ tolerance

/-- A level of a house as the rules of support read it. -/
def House.reading (h : House Float) (l : Level Float) : LevelReading Float :=
  ⟨l.elevation, l.height, l.slab.map (·.thickness), h.supportGapLevelIds.contains l.id⟩

theorem House.getElem?_readings {h : House Float} {i : ℕ} {r : LevelReading Float} :
    h.readings[i]? = some r ↔ ∃ l, h.levels[i]? = some l ∧ h.reading l = r := by
  rw [House.readings, List.getElem?_map, Option.map_eq_some_iff]
  rfl

/-- An accepted house stands. -/
theorem House.stands_of_ok {h : House Float} {tolerance : Float} (ht : tolerance.isNaN = false)
    (hok : (h.structureReport tolerance).ok = true) : h.Stands tolerance := by
  have hrules := structureReport_ok_iff.1 hok
  -- every level of the house keeps the rules, each in the failing direction
  have hlevel : ∀ i l, h.levels[i]? = some l → ∃ s, l.slab = some s ∧
      KeepsRules h.supportPolicy tolerance (levelBelow h.readings i) (h.reading l)
        s.thickness := by
    intro i l hl
    obtain ⟨t, k⟩ := (hrules i _ (House.getElem?_readings.2 ⟨l, hl, rfl⟩)).2
    obtain ⟨s, hs, rfl⟩ := Option.map_eq_some_iff.1 k.slab
    exact ⟨s, hs, k⟩
  have hfinite : ∀ (i : ℕ) (l : Level Float), h.levels[i]? = some l → l.elevation.isFinite = true := by
    intro i l hl
    obtain ⟨s, -, k⟩ := hlevel i l hl
    exact isFinite_elevation k.top
  constructor
  · intro l hl
    obtain ⟨i, hi⟩ := List.mem_iff_getElem?.1 hl
    obtain ⟨s, hs, k⟩ := hlevel i l hi
    exact ⟨s, hs, k.positive, k.height, k.top⟩
  · cases hl : h.levels with
    | nil => exact .inl rfl
    | cons l ls =>
      obtain ⟨s, -, k⟩ := hlevel 0 l (by rw [hl]; rfl)
      exact .inr (k.ground rfl)
  · intro i below l hb hl
    have horder := (hrules (i + 1) _ (House.getElem?_readings.2 ⟨l, hl, rfl⟩)).1 rfl _
      (House.getElem?_readings.2 ⟨below, hb, rfl⟩)
    exact (not_lt_iff (isNaN_add_of_isFinite (hfinite _ _ hl) ht)
      (isNaN_of_isFinite (hfinite _ _ hb))).1 horder
  · intro i below l s hb hl hs hid
    obtain ⟨s', hs', k⟩ := hlevel (i + 1) l hl
    obtain rfl : s' = s := Option.some_inj.1 (hs'.symm.trans hs)
    obtain ⟨sb, -, kb⟩ := hlevel i below hb
    have hgap := k.gap _ (House.getElem?_readings.2 ⟨below, hb, rfl⟩)
      (by simpa [House.reading] using hid)
    have hn := isNaN_gap k.top k.positive (hfinite _ _ hb) kb.height
    exact (not_lt_iff ht ((isNaN_abs _).trans hn)).1 hgap

/-- A house that stands is accepted. -/
theorem House.ok_of_stands {h : House Float} {tolerance : Float} (hs : h.Stands tolerance) :
    (h.structureReport tolerance).ok = true := by
  refine structureReport_ok_iff.2 fun i level hlevel => ?_
  obtain ⟨l, hl, rfl⟩ := House.getElem?_readings.1 hlevel
  obtain ⟨s, hslab, hpos, hheight, htop⟩ := hs.levels l (List.mem_of_getElem? hl)
  refine ⟨fun _ before hb => ?_, s.thickness, by simp [House.reading, hslab], hpos, hheight, htop, ?_, ?_⟩
  · cases i with
    | zero => cases hb
    | succ i =>
      obtain ⟨below, hbelow, rfl⟩ := House.getElem?_readings.1 hb
      exact not_lt_of_le (hs.sorted i below l hbelow hl)
  · intro _
    refine hs.ground.resolve_left fun hnil => ?_
    rw [hnil] at hl
    simp at hl
  · intro before hb hmay
    cases i with
    | zero => cases hb
    | succ i =>
      obtain ⟨below, hbelow, rfl⟩ := House.getElem?_readings.1 hb
      exact not_lt_of_le (hs.carried i below l s hbelow hl hslab
        (by simpa [House.reading] using hmay))

/-! ## What is built of an accepted house -/

/-- A slab of positive thickness is built, between its top and its underside. -/
theorem Level.buildSlab_eq_ok {c : ElevationConvention} {i : ℕ} {l : Level Float}
    {s : SlabSpec Float} {built : Option (Slab Float)} (hs : l.slab = some s)
    (hpos : 0.0 < s.thickness) (h : l.buildSlab c i = .ok built) :
    ∃ slab, built = some slab ∧ slab.levelIndex = i ∧
      slab.bottom = c.slabBottom l.elevation s.thickness := by
  simp only [Level.buildSlab, hs, if_pos hpos, bind_eq_ok, pure_eq_ok] at h
  obtain ⟨outline, -, rfl⟩ := h
  exact ⟨_, rfl, rfl, rfl⟩

/-- A shell stands on the elevation of its level and is as high as it. -/
theorem Level.buildShell_eq_ok {thickness : Float} {l : Level Float} {w : WallShell Float}
    (h : l.buildShell thickness = .ok w) : w.base + w.height = l.wallTop := by
  simp only [Level.buildShell, bind_eq_ok, pure_eq_ok] at h
  obtain ⟨outer, -, inner, -, rfl⟩ := h
  rfl

/-- Every level of an accepted house has the slab that stands at its index. -/
theorem House.buildSlabs_of_stands {h : House Float} {tolerance : Float} {slabs : List (Slab Float)}
    (hs : h.Stands tolerance) (hb : h.buildSlabs = .ok slabs) :
    slabs.length = h.levels.length ∧
      ∀ (i : ℕ) (l : Level Float) (s : SlabSpec Float), h.levels[i]? = some l → l.slab = some s →
      ∃ slab, slabs[i]? = some slab ∧ slab.levelIndex = i ∧
        slab.bottom = h.elevationConvention.slabBottom l.elevation s.thickness := by
  simp only [House.buildSlabs, bind_eq_ok, pure_eq_ok] at hb
  obtain ⟨found, hfound, rfl⟩ := hb
  have hall := mapM_eq_ok.1 hfound
  have hat : ∀ (i : ℕ) (l : Level Float) (s : SlabSpec Float), h.levels[i]? = some l →
      l.slab = some s → ∃ slab, found[i]? = some (some slab) ∧ slab.levelIndex = i ∧
        slab.bottom = h.elevationConvention.slabBottom l.elevation s.thickness := by
    intro i l s hl hslab
    obtain ⟨built, hbuilt, hok⟩ := exists_of_forall₂ hall (i := i) (x := (l, i))
      (by simp [List.getElem?_zipIdx, hl])
    obtain ⟨s', hslab', hpos, -⟩ := hs.levels l (List.mem_of_getElem? hl)
    obtain rfl : s' = s := Option.some_inj.1 (hslab'.symm.trans hslab)
    obtain ⟨slab, rfl, hspec⟩ := Level.buildSlab_eq_ok hslab (isPositive_iff.1 hpos).2 hok
    exact ⟨slab, hbuilt, hspec⟩
  have hlen : found.length = h.levels.length := by
    rw [← hall.length_eq, List.length_zipIdx]
  have hsome : (found.filterMap id).map some = found := by
    refine map_some_filterMap_id fun o ho => ?_
    obtain ⟨i, hi⟩ := List.mem_iff_getElem?.1 ho
    have hlt : i < h.levels.length := hlen ▸ (List.getElem?_eq_some_iff.1 hi).1
    obtain ⟨s, hslab, -⟩ := hs.levels _ (List.getElem_mem hlt)
    obtain ⟨slab, hat', -⟩ := hat i _ s (List.getElem?_eq_getElem hlt) hslab
    rw [hi, Option.some_inj] at hat'
    rw [hat']
    rfl
  refine ⟨by rw [← hlen, ← hsome, List.length_map, hsome], fun i l s hl hslab => ?_⟩
  obtain ⟨slab, hi, hspec⟩ := hat i l s hl hslab
  rw [← hsome, List.getElem?_map, Option.map_eq_some_iff] at hi
  obtain ⟨slab', hi', heq⟩ := hi
  obtain rfl := Option.some_inj.1 heq
  exact ⟨slab', hi', hspec⟩

/-- **The verdict on a structure is exact**, also for not-a-number and the infinities: a house
is accepted if and only if its levels carry each other.  In an accepted house the slab of
every level above another one that may leave no gap lies on the walls of the level below,
as both are built. -/
theorem House.structureReport_exact (h : House Float) (tolerance : Float)
    (ht : tolerance.isNaN = false) :
    ((h.structureReport tolerance).ok = true ↔ h.Stands tolerance) ∧
    ((h.structureReport tolerance).ok = true → ∀ slabs shells, h.buildSlabs = .ok slabs →
      h.buildShells = .ok shells → slabs.length = h.levels.length ∧
        shells.length = h.levels.length ∧
        ∀ (i : ℕ) (l : Level Float), h.levels[i + 1]? = some l → l.id ∉ h.supportGapLevelIds →
          ∃ slab shell, slabs[i + 1]? = some slab ∧ shells[i]? = some shell ∧
            slab.levelIndex = i + 1 ∧
            (slab.bottom - (shell.base + shell.height)).abs ≤ tolerance) := by
  refine ⟨⟨House.stands_of_ok ht, House.ok_of_stands⟩, fun hok slabs shells hslabs hshells => ?_⟩
  have hs := House.stands_of_ok ht hok
  obtain ⟨hlen, hslab⟩ := House.buildSlabs_of_stands hs hslabs
  have hall := mapM_eq_ok.1 hshells
  refine ⟨hlen, hall.length_eq.symm, fun i l hl hid => ?_⟩
  have hlt : i < h.levels.length := (List.getElem?_eq_some_iff.1 hl).1.trans' i.lt_succ_self
  obtain ⟨s, hls, -⟩ := hs.levels l (List.mem_of_getElem? hl)
  obtain ⟨slab, hi, hindex, hbottom⟩ := hslab (i + 1) l s hl hls
  obtain ⟨shell, hj, hshell⟩ := exists_of_forall₂ hall (List.getElem?_eq_getElem hlt)
  refine ⟨slab, shell, hi, hj, hindex, ?_⟩
  rw [hbottom, Level.buildShell_eq_ok hshell]
  exact hs.carried i _ l s (List.getElem?_eq_getElem hlt) hl hls hid

/-- The levels of the standard box carry each other, as its report says. -/
theorem BoxPlan.standard_stands : (BoxPlan.standard.house : House Float).Stands 0.002 :=
  ((House.structureReport_exact _ 0.002 (by decide +kernel)).1).1 (by decide +kernel)

end Housewright
