import Housewright.Proofs.Binary64.Equality
import Housewright.Proofs.Inspection.StructureVerdict

/-!
# Looser rules of support

A house may be judged with a larger tolerance, and more of its levels may leave a gap below their
slab.  Neither finds anything that was not found before.

* `Binary64.add_lt_of_le`: a sum that is below a number stays below it when one operand goes down,
  also when infinities and not-a-number are about;
* `map_kind_issuesBy`: the kinds of the issues of a rule, level by level;
* `LooserTolerance.kinds_sublist`: over any scalars, a looser tolerance leaves issues out and
  changes the kinds of none;
* `House.kinds_allowingGaps`: where a level may leave a gap, an error becomes a warning in its
  place;
* `House.structureReport_looser` says both of the report on a house.
-/

namespace Housewright

/-! ## Sums below a number -/

namespace Binary64

open Float.Model Float.Model.UnpackedFloat

/-- The place of the infinity above is its own. -/
theorem parts_of_infinityUnits_le {x : Float} (hx : x.isNaN = false)
    (h : (infinityUnits : ℤ) ≤ units x) : parts x = .infinity .positive := by
  by_cases hfin : x.isFinite = true
  · exact absurd ((isFinite_iff hx).1 hfin).2 (not_lt.2 h)
  · obtain ⟨s, hs⟩ := exists_infinity hx hfin
    have hpos := infinityUnits_pos
    rw [units, hs] at h
    cases s with
    | positive => exact hs
    | negative =>
      simp only [place, Sign.apply] at h
      omega

/-- The operands of a sum below the infinity above are below it. -/
theorem units_lt_of_add {x y : Float} (hn : (x + y).isNaN = false)
    (hlt : units (x + y) < infinityUnits) :
    units x < infinityUnits ∧ units y < infinityUnits := by
  obtain ⟨hx, hy⟩ := isNaN_of_add hn
  by_contra hc
  have hinf : parts x = .infinity .positive ∨ parts y = .infinity .positive :=
    (not_and_or.1 hc).imp (fun h => parts_of_infinityUnits_le hx (not_lt.1 h))
      fun h => parts_of_infinityUnits_le hy (not_lt.1 h)
  rw [isNaN_eq, parts_add] at hn
  -- opposite infinities have no sum
  have hxn : parts x ≠ .infinity .negative := by
    intro hxn
    obtain h | h := hinf
    · rw [hxn] at h
      cases h
    · rw [hxn, h] at hn
      exact absurd hn (by decide)
  have hyn : parts y ≠ .infinity .negative := by
    intro hyn
    obtain h | h := hinf
    · rw [hyn, h] at hn
      exact absurd hn (by decide)
    · rw [hyn] at h
      cases h
  obtain ⟨-, ⟨fx, fy⟩ | hsum⟩ := add_of_ne_infinity .positive hx hy hxn hyn
  · rw [isFinite_eq] at fx fy
    obtain h | h := hinf
    · rw [h] at fx
      cases fx
    · rw [h] at fy
      cases fy
  · exact ne_positive_infinity hlt hsum

/-- **A sum that is below a number** stays below it when an operand goes down. -/
theorem add_lt_of_le {e t₁ t₂ x : Float} (ht : t₁ ≤ t₂) (h : e + t₂ < x) : e + t₁ < x := by
  obtain ⟨hn, hx⟩ := isNaN_of_lt h
  have hlt : units (e + t₂) < infinityUnits := ((lt_iff hn hx).1 h).trans_le (units_le hx).2
  obtain ⟨he, ht₂⟩ := units_lt_of_add hn hlt
  have hne := (isNaN_of_add hn).1
  exact lt_of_le_of_lt (add_le_add_of_lt_infinity ((le_iff hne hne).2 le_rfl) ht he ht₂) h

end Binary64

/-! ## Kinds of issues -/

/-- What reports tell apart: how grave an issue is, what was found, and on which level. -/
structure IssueKind where
  severity : Severity
  code : StructureCode
  levelIndex : ℕ
  deriving DecidableEq, Repr

section Kinds

variable {α : Type}

/-- The kind of a finding about the level at an index. -/
def StructureFinding.kindAt (i : ℕ) (f : StructureFinding α) : IssueKind := ⟨f.severity, f.code, i⟩

/-- The kind of an issue. -/
def StructureIssue.kind (s : StructureIssue α) : IssueKind := s.finding.kindAt s.levelIndex

/-- The kinds of the issues of a report, in order. -/
def StructureReport.kinds (r : StructureReport α) : List IssueKind := r.issues.map (·.kind)

/-- A report is ok if no kind in it is an error. -/
theorem StructureReport.ok_iff_kinds {r : StructureReport α} :
    r.ok = true ↔ ∀ k ∈ r.kinds, k.severity ≠ .error := by
  rw [StructureReport.ok_iff, kinds, List.forall_mem_map]
  rfl

theorem zipIdx_withBelow (levels : List (LevelReading α)) :
    (withBelow levels).zipIdx = levels.zipIdx.map fun x => ((levelBelow levels x.2, x.1), x.2) := by
  refine List.ext_getElem? fun i => Option.ext fun x => ?_
  simp only [List.getElem?_zipIdx, List.getElem?_map, Option.map_eq_some_iff, Option.map_map,
    getElem?_withBelow, Nat.zero_add]
  constructor
  · rintro ⟨p, ⟨hl, hb⟩, rfl⟩
    exact ⟨p.2, hl, congrArg (fun below? => ((below?, p.2), i)) hb.symm⟩
  · rintro ⟨l, hl, rfl⟩
    exact ⟨_, ⟨hl, rfl⟩, rfl⟩

/-- **The kinds of the issues of a rule**, level by level. -/
theorem map_kind_issuesBy
    (rule : Option (LevelReading α) → LevelReading α → List (StructureFinding α))
    (levels : List (LevelReading α)) :
    (issuesBy rule levels).map (·.kind) =
      levels.zipIdx.flatMap fun x => (rule (levelBelow levels x.2) x.1).map (·.kindAt x.2) := by
  rw [issuesBy, zipIdx_withBelow, List.flatMap_map, List.map_flatMap]
  simp only [List.map_map]
  rfl

end Kinds

/-! ## A looser tolerance -/

section Tolerances

variable {α : Type}

/-- Parts that are left out of the parts of a list are left out of the list. -/
theorem flatMap_sublist_flatMap {β γ : Type} {xs : List β} {f g : β → List γ}
    (h : ∀ x, (f x).Sublist (g x)) : (xs.flatMap f).Sublist (xs.flatMap g) := by
  induction xs with
  | nil => exact .slnil
  | cons x rest ih =>
    rw [List.flatMap_cons, List.flatMap_cons]
    exact (h x).append ih

/-- A rule that finds less on every level makes fewer issues. -/
theorem map_kind_issuesBy_sublist
    {rule rule' : Option (LevelReading α) → LevelReading α → List (StructureFinding α)}
    (h : ∀ below? level i, ((rule below? level).map (·.kindAt i)).Sublist
      ((rule' below? level).map (·.kindAt i))) (levels : List (LevelReading α)) :
    ((issuesBy rule levels).map (·.kind)).Sublist ((issuesBy rule' levels).map (·.kind)) := by
  rw [map_kind_issuesBy, map_kind_issuesBy]
  exact flatMap_sublist_flatMap fun x => h _ _ _

variable [Scalar α] {t₁ t₂ : α}

/-- The second tolerance lets pass what the first one does: levels below one another and gaps. -/
structure LooserTolerance (t₁ t₂ : α) : Prop where
  order : ∀ e e' : α, e + t₂ < e' → e + t₁ < e'
  gap : ∀ g : α, t₂ < g → t₁ < g

namespace LooserTolerance

theorem orderFindings_sublist (h : LooserTolerance t₁ t₂) (before level : LevelReading α) (i : ℕ) :
    ((orderFindings t₂ before level).map (·.kindAt i)).Sublist
      ((orderFindings t₁ before level).map (·.kindAt i)) := by
  unfold orderFindings
  by_cases hfound : level.elevation + t₂ < before.elevation
  · rw [if_pos hfound, if_pos (h.order _ _ hfound)]
  · rw [if_neg hfound]
    exact List.nil_sublist _

theorem gapFindings_sublist (h : LooserTolerance t₁ t₂) (below level : LevelReading α) (bottom : α)
    (i : ℕ) : ((gapFindings t₂ below level bottom).map (·.kindAt i)).Sublist
      ((gapFindings t₁ below level bottom).map (·.kindAt i)) := by
  unfold gapFindings
  by_cases hfound : t₂ < Scalar.abs (bottom - (below.elevation + below.height))
  · simp only [if_pos hfound, if_pos (h.gap _ hfound)]
    cases level.mayLeaveGap <;> exact List.Sublist.refl _
  · simp only [if_neg hfound]
    exact List.nil_sublist _

theorem levelFindings_sublist (h : LooserTolerance t₁ t₂) (policy : SupportPolicy)
    (below? : Option (LevelReading α)) (level : LevelReading α) (i : ℕ) :
    ((levelFindings policy t₂ below? level).map (·.kindAt i)).Sublist
      ((levelFindings policy t₁ below? level).map (·.kindAt i)) := by
  unfold levelFindings
  cases level.thickness? with
  | none => exact List.Sublist.refl _
  | some thickness =>
    simp only [List.map_append]
    refine (List.Sublist.append ?_ (List.Sublist.refl _)).append (List.Sublist.refl _)
    cases below? with
    | none => exact List.Sublist.refl _
    | some below => exact h.gapFindings_sublist below level _ i

/-- **A looser tolerance** leaves issues out and changes the kinds of none. -/
theorem kinds_sublist (h : LooserTolerance t₁ t₂) (policy : SupportPolicy)
    (levels : List (LevelReading α)) :
    (structureReport policy t₂ levels).kinds.Sublist (structureReport policy t₁ levels).kinds := by
  unfold structureReport StructureReport.kinds
  rw [List.map_append, List.map_append]
  refine List.Sublist.append ?_
    (map_kind_issuesBy_sublist (h.levelFindings_sublist policy) levels)
  cases policy.sortedLevels with
  | false => exact .slnil
  | true =>
    rw [if_pos rfl, if_pos rfl]
    refine map_kind_issuesBy_sublist (fun before? level i => ?_) levels
    cases before? with
    | none => exact .slnil
    | some before => exact h.orderFindings_sublist before level i

end LooserTolerance

end Tolerances

open Binary64 in
/-- On floating-point numbers a larger tolerance is looser. -/
theorem looserTolerance_of_le {t₁ t₂ : Float} (ht : t₁ ≤ t₂) : LooserTolerance t₁ t₂ where
  order _ _ := add_lt_of_le ht
  gap _ := lt_of_le_of_lt ht

/-! ## Levels that may leave a gap -/

/-- An error about the gap under a slab, as a warning if the level is excused. -/
def IssueKind.excuse (excused : ℕ → Bool) : IssueKind → IssueKind
  | ⟨.error, .slabFloating, i⟩ =>
    if excused i then ⟨.warning, .levelGapUnsupported, i⟩ else ⟨.error, .slabFloating, i⟩
  | k => k

section Excuses

variable {α : Type} {excused : ℕ → Bool}

/-- Nothing changes but a floating slab on a level that is excused. -/
theorem IssueKind.excuse_eq_self {k : IssueKind}
    (h : k.code = .slabFloating → excused k.levelIndex = false) : k.excuse excused = k := by
  unfold excuse
  split
  · rw [h rfl, if_neg Bool.false_ne_true]
  · rfl

theorem map_excuse_eq_self {findings : List (StructureFinding α)}
    (h : ∀ f ∈ findings, f.code ≠ .slabFloating) (i : ℕ) :
    (findings.map (·.kindAt i)).map (·.excuse excused) = findings.map (·.kindAt i) := by
  rw [List.map_map]
  exact List.map_congr_left fun f hf => IssueKind.excuse_eq_self fun hcode => absurd hcode (h f hf)

/-- What is excused is no error. -/
theorem IssueKind.severity_excuse_ne_error {k : IssueKind} (h : k.severity ≠ .error) :
    (k.excuse excused).severity ≠ .error := by
  obtain ⟨severity, code, i⟩ := k
  cases severity with
  | error => exact absurd rfl h
  | warning => exact h

variable [Scalar α]

theorem map_kindAt_gapFindings {tolerance : α} {i : ℕ} (below level : LevelReading α) (bottom : α)
    {mayLeaveGap : Bool} (hmay : mayLeaveGap = (level.mayLeaveGap || excused i)) :
    (gapFindings tolerance below { level with mayLeaveGap } bottom).map (·.kindAt i) =
      ((gapFindings tolerance below level bottom).map (·.kindAt i)).map (·.excuse excused) := by
  subst hmay
  unfold gapFindings
  by_cases hfound : tolerance < Scalar.abs (bottom - (below.elevation + below.height))
  · simp only [if_pos hfound]
    cases level.mayLeaveGap <;> cases hi : excused i <;>
      simp [StructureFinding.kindAt, StructureFinding.severity, StructureFinding.code,
        IssueKind.excuse, hi]
  · simp only [if_neg hfound]
    rfl

/-- **A level that may leave a gap besides** has the findings that it had, with the error about its
gap excused. -/
theorem map_kindAt_levelFindings {policy : SupportPolicy} {tolerance : α} {i : ℕ}
    (below level : LevelReading α) {mayLeaveGap : Bool}
    (hmay : mayLeaveGap = (level.mayLeaveGap || excused i)) :
    (levelFindings policy tolerance (some below) { level with mayLeaveGap }).map (·.kindAt i) =
      ((levelFindings policy tolerance (some below) level).map (·.kindAt i)).map
        (·.excuse excused) := by
  have hthickness : { level with mayLeaveGap }.thickness? = level.thickness? := rfl
  unfold levelFindings
  rw [hthickness]
  cases level.thickness? with
  | none => rfl
  | some thickness =>
    -- the findings after the gap are none that is excused
    simp only [supportFindings, List.map_append]
    refine congrArg₂ _ (congrArg₂ _ (map_kindAt_gapFindings below level _ hmay)
      (map_excuse_eq_self ?_ i).symm) (map_excuse_eq_self ?_ i).symm
    · simp [StructureFinding.code]
    · simp [StructureFinding.code]

end Excuses

namespace House

/-- Whether a level stands on another one and has one of some ids. -/
def gapExcused {α : Type} (h : House α) (ids : List String) (i : ℕ) : Bool :=
  decide (1 ≤ i) && h.levels[i]?.any fun l => ids.contains l.id

/-- The house with other levels that may leave a gap. -/
def allowingGaps {α : Type} (h : House α) (ids : List String) : House α :=
  { h with supportGapLevelIds := ids }

variable {h : House Float} {ids added : List String}

/-- The kinds of the issues of a rule on a house, level by level. -/
theorem map_kind_issuesBy_readings (h : House Float)
    (rule : Option (LevelReading Float) → LevelReading Float → List (StructureFinding Float)) :
    (issuesBy rule h.readings).map (·.kind) = h.levels.zipIdx.flatMap fun x =>
      (rule (levelBelow h.readings x.2) (h.reading x.1)).map (·.kindAt x.2) := by
  have hreadings : h.readings = h.levels.map h.reading := rfl
  rw [map_kind_issuesBy, hreadings, List.zipIdx_map, List.flatMap_map]
  rfl

/-- If a rule finds on every level of a house what it finds on another house with the same levels,
up to excuses, then so do its issues. -/
theorem map_kind_issuesBy_excuse {h' : House Float} {excused : ℕ → Bool}
    {rule : Option (LevelReading Float) → LevelReading Float → List (StructureFinding Float)}
    (hlevels : h'.levels = h.levels)
    (hrule : ∀ i l, h.levels[i]? = some l →
      (rule (levelBelow h'.readings i) (h'.reading l)).map (·.kindAt i) =
        ((rule (levelBelow h.readings i) (h.reading l)).map (·.kindAt i)).map (·.excuse excused)) :
    (issuesBy rule h'.readings).map (·.kind) =
      ((issuesBy rule h.readings).map (·.kind)).map (·.excuse excused) := by
  rw [map_kind_issuesBy_readings, map_kind_issuesBy_readings, hlevels, List.map_flatMap]
  exact List.flatMap_congr fun x hx => hrule _ _ (List.mem_zipIdx_iff_getElem?.1 hx)

/-- The level below another one, as the rules of support read it. -/
theorem levelBelow_readings {i : ℕ} {below : Level Float} (hb : h.levels[i]? = some below) :
    levelBelow h.readings (i + 1) = some (h.reading below) :=
  getElem?_readings.2 ⟨below, hb, rfl⟩

/-- **More levels that may leave a gap** excuse the errors about their gaps, and change no other
issue. -/
theorem kinds_allowingGaps (hids : ∀ id, id ∈ ids ↔ id ∈ h.supportGapLevelIds ∨ id ∈ added)
    (tolerance : Float) :
    ((h.allowingGaps ids).structureReport tolerance).kinds =
      (h.structureReport tolerance).kinds.map (·.excuse (h.gapExcused added)) := by
  have hbelow {i : ℕ} {l : Level Float} (hl : h.levels[i + 1]? = some l) :
      ∃ below, h.levels[i]? = some below :=
    ⟨_, List.getElem?_eq_getElem ((List.getElem?_eq_some_iff.1 hl).1.trans' i.lt_succ_self)⟩
  unfold structureReport Housewright.structureReport StructureReport.kinds
  simp only [supportPolicy, if_true, List.map_append]
  refine congrArg₂ _ ?_ ?_
  · refine map_kind_issuesBy_excuse rfl fun i l hl => ?_
    cases i with
    | zero => rfl
    | succ i =>
      obtain ⟨below, hb⟩ := hbelow hl
      rw [levelBelow_readings hb, levelBelow_readings (h := h.allowingGaps ids) hb]
      refine (map_excuse_eq_self ?_ _).symm
      simp [orderFindings, StructureFinding.code]
  · refine map_kind_issuesBy_excuse rfl fun i l hl => ?_
    cases i with
    | zero =>
      rw [List.map_map]
      exact List.map_congr_left fun f _ => (IssueKind.excuse_eq_self fun _ => rfl).symm
    | succ i =>
      obtain ⟨below, hb⟩ := hbelow hl
      rw [levelBelow_readings hb, levelBelow_readings (h := h.allowingGaps ids) hb]
      refine map_kindAt_levelFindings (h.reading below) (h.reading l) ?_
      rw [Bool.eq_iff_iff]
      simp [allowingGaps, reading, gapExcused, hl, hids]

/-- **A looser policy never finds more.**  With a larger tolerance issues are left out of the
report, and the kinds of the others stay.  When more levels may leave a gap, the errors about the
gaps under these levels, where they stand on others, become warnings in their places.  So a house
that is accepted stays accepted. -/
theorem structureReport_looser (h : House Float) {t₁ t₂ : Float} (ht : t₁ ≤ t₂)
    {ids added : List String} (hids : ∀ id, id ∈ ids ↔ id ∈ h.supportGapLevelIds ∨ id ∈ added) :
    (h.structureReport t₂).kinds.Sublist (h.structureReport t₁).kinds ∧
    (∀ tolerance, ((h.allowingGaps ids).structureReport tolerance).kinds =
      (h.structureReport tolerance).kinds.map (·.excuse (h.gapExcused added))) ∧
    ((h.structureReport t₁).ok = true → (h.structureReport t₂).ok = true) ∧
    ∀ tolerance, (h.structureReport tolerance).ok = true →
      ((h.allowingGaps ids).structureReport tolerance).ok = true := by
  have hsublist := (looserTolerance_of_le ht).kinds_sublist h.supportPolicy h.readings
  refine ⟨hsublist, kinds_allowingGaps hids, fun hok => ?_, fun tolerance hok => ?_⟩
  · rw [StructureReport.ok_iff_kinds] at hok ⊢
    exact fun k hk => hok k (hsublist.subset hk)
  · rw [StructureReport.ok_iff_kinds] at hok ⊢
    rw [kinds_allowingGaps hids, List.forall_mem_map]
    exact fun k hk => IssueKind.severity_excuse_ne_error (hok k hk)

/-- A house whose second level stands too high, and whose third level is infinitely high up. -/
def onStilts : House Float :=
  { name := "stilts", wallThickness := 0.3, elevationConvention := .topOfSlab
    allowGroundSupport := true, supportGapLevelIds := ["attic"]
    levels := [⟨"ground", 0.0, 3.0, ⟨[], []⟩, some ⟨0.3, 0.0⟩⟩,
      ⟨"upper", 3.5, 3.0, ⟨[], []⟩, some ⟨0.3, 0.0⟩⟩,
      ⟨"attic", 1.0 / 0.0, 3.0, ⟨[], []⟩, some ⟨0.3, 0.0⟩⟩]
    roofs := [], openings := [] }

/-- What a larger tolerance leaves of the report, and what one more level that may leave a gap makes
of it. -/
theorem onStilts_looser :
    (0.002 : Float) ≤ 0.5 ∧
    (∀ id, id ∈ ["upper", "attic"] ↔ id ∈ onStilts.supportGapLevelIds ∨ id ∈ ["upper"]) ∧
    (onStilts.structureReport 0.5).kinds.Sublist (onStilts.structureReport 0.002).kinds ∧
    (onStilts.structureReport 0.002).kinds = [⟨.error, .slabFloating, 1⟩,
      ⟨.warning, .levelGapUnsupported, 2⟩, ⟨.error, .wallFloating, 2⟩] ∧
    ((onStilts.allowingGaps ["upper", "attic"]).structureReport 0.002).kinds =
      [⟨.warning, .levelGapUnsupported, 1⟩, ⟨.warning, .levelGapUnsupported, 2⟩,
        ⟨.error, .wallFloating, 2⟩] := by
  have ht : (0.002 : Float) ≤ 0.5 := by decide +kernel
  have hids (id : String) : id ∈ ["upper", "attic"] ↔
      id ∈ onStilts.supportGapLevelIds ∨ id ∈ ["upper"] := by
    simp [onStilts, or_comm]
  have hkinds : (onStilts.structureReport 0.002).kinds = [⟨.error, .slabFloating, 1⟩,
      ⟨.warning, .levelGapUnsupported, 2⟩, ⟨.error, .wallFloating, 2⟩] := by decide +kernel
  obtain ⟨hsublist, hexcused, -⟩ := structureReport_looser onStilts ht hids
  refine ⟨ht, hids, hsublist, hkinds, ?_⟩
  rw [hexcused, hkinds]
  rfl

end House

end Housewright
