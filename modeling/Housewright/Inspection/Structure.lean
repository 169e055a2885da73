import Housewright.Description.House

/-!
# Do the storeys stand on each other?

The rules of support are stated on `LevelReading`s, so that they apply to any stack of
levels; `House.readings` and `House.supportPolicy` are those of a house.

* Levels come in the order of their elevations (if the policy asks for it).
* Every level has a slab of finite positive thickness; without one nothing else about
  the level is judged.
* The slab of the first level may rest on the ground if the policy allows it.  Every
  other slab rests on the walls below, up to a tolerance; a level that may leave a gap
  gives a warning instead of an error.
* The top of the slab, on which the walls stand, is finite, and the walls have a finite
  positive height.

`structureReport` collects everything that breaks a rule, order first, then level by
level.
-/

namespace Housewright

/-- What the rules of support read of a level. -/
structure LevelReading (α : Type) where
  elevation : α
  height : α
  slabThickness : Option α
  /-- The slab may lie above the walls below it. -/
  mayLeaveGap : Bool

/-- What is settled for all levels alike. -/
structure SupportPolicy where
  convention : ElevationConvention
  groundSupport : Bool
  sortedLevels : Bool
  deriving DecidableEq, Repr

/-- A slab that does not lie on the walls below it. -/
structure SupportGap (α : Type) where
  supportPlane : α
  slabBottom : α
  gap : α
  tolerance : α

/-- A rule of support that a level breaks. -/
inductive StructureFinding (α : Type) where
  /-- The level lies below the level before it. -/
  | unsorted (previous elevation : α)
  | slabMissing (elevation height : α) (thickness : Option α)
  | groundForbidden (elevation top bottom : α)
  | slabFloating (gap : SupportGap α)
  | gapTolerated (gap : SupportGap α)
  | wallsFloating (elevation thickness top : α)
  | heightInvalid (elevation height : α)

/-- Whether a finding makes the structure unacceptable. -/
inductive Severity where
  | error
  | warning
  deriving DecidableEq, Repr

/-- The kinds of findings that reports tell apart. -/
inductive StructureCode where
  | levelFloating
  | slabMissing
  | slabFloating
  | wallFloating
  | levelOrderInvalid
  | levelGapUnsupported
  deriving DecidableEq, Repr

namespace StructureFinding

variable {α : Type}

/-- Only a tolerated gap is no error. -/
def severity : StructureFinding α → Severity
  | gapTolerated _ => .warning
  | _ => .error

/-- The kind of a finding. -/
def code : StructureFinding α → StructureCode
  | unsorted _ _ => .levelOrderInvalid
  | slabMissing _ _ _ => .slabMissing
  | groundForbidden _ _ _ => .slabFloating
  | slabFloating _ => .slabFloating
  | gapTolerated _ => .levelGapUnsupported
  | wallsFloating _ _ _ => .wallFloating
  | heightInvalid _ _ => .levelFloating

end StructureFinding

/-- A finding about the level at an index. -/
structure StructureIssue (α : Type) where
  levelIndex : Nat
  finding : StructureFinding α

/-- All findings about a stack of levels. -/
structure StructureReport (α : Type) where
  issues : List (StructureIssue α)

namespace StructureReport

variable {α : Type}

/-- The findings that are errors. -/
def errors (r : StructureReport α) : List (StructureIssue α) :=
  r.issues.filter (·.finding.severity = .error)

/-- The findings that are warnings. -/
def warnings (r : StructureReport α) : List (StructureIssue α) :=
  r.issues.filter (·.finding.severity = .warning)

/-- A structure is accepted if nothing found is an error. -/
def ok (r : StructureReport α) : Bool := r.issues.all (·.finding.severity ≠ .error)

end StructureReport

/-- What happens to a report that is not ok: it stops the work, or is handed on. -/
inductive ReportMode where
  | throw
  | report
  deriving DecidableEq, Repr

/-- The report, as an error if the mode stops at it. -/
def StructureReport.settle {α : Type} (mode : ReportMode) (r : StructureReport α) :
    Except (StructureReport α) (StructureReport α) :=
  if mode = .throw ∧ r.ok = false then .error r else .ok r

/-- In the mode that hands reports on, every report is handed on. -/
@[simp] theorem StructureReport.settle_report {α : Type} (r : StructureReport α) :
    r.settle .report = .ok r := by
  simp [settle]

/-- In the mode that stops, a report is handed on if and only if it is ok. -/
theorem StructureReport.settle_throw_eq_ok_iff {α : Type} {r s : StructureReport α} :
    r.settle .throw = .ok s ↔ r.ok = true ∧ s = r := by
  unfold settle
  by_cases h : r.ok = true <;> simp [h, eq_comm]

section Rules

variable {α : Type} [Scalar α]

/-- A level below the one before it is out of order. -/
def orderFindings (tolerance : α) (before level : LevelReading α) : List (StructureFinding α) :=
  if level.elevation + tolerance < before.elevation then
    [.unsorted before.elevation level.elevation]
  else []

/-- The thickness of the slab, if it is a finite number above zero. -/
def LevelReading.thickness? (level : LevelReading α) : Option α :=
  level.slabThickness.filter Scalar.isPositive

/-- Whether the slab with the given underside lies on the walls of the level below. -/
def gapFindings (tolerance : α) (below level : LevelReading α) (bottom : α) :
    List (StructureFinding α) :=
  let support := below.elevation + below.height
  let gap := bottom - support
  if tolerance < Scalar.abs gap then
    let g := ⟨support, bottom, gap, tolerance⟩
    [if level.mayLeaveGap then .gapTolerated g else .slabFloating g]
  else []

/-- What carries the slab of a level: the level below, or the ground if there is none. -/
def supportFindings (policy : SupportPolicy) (tolerance : α) (below? : Option (LevelReading α))
    (level : LevelReading α) (top bottom : α) : List (StructureFinding α) :=
  match below? with
  | some below => gapFindings tolerance below level bottom
  | none => if policy.groundSupport then [] else [.groundForbidden level.elevation top bottom]

/-- All findings about one level except its order. -/
def levelFindings (policy : SupportPolicy) (tolerance : α) (below? : Option (LevelReading α))
    (level : LevelReading α) : List (StructureFinding α) :=
  match level.thickness? with
  | none => [.slabMissing level.elevation level.height level.slabThickness]
  | some thickness =>
    let top := policy.convention.slabTop level.elevation thickness
    let bottom := policy.convention.slabBottom level.elevation thickness
    supportFindings policy tolerance below? level top bottom
      ++ (if Scalar.isFinite top then [] else [.wallsFloating level.elevation thickness top])
      ++ (if Scalar.isPositive level.height then []
          else [.heightInvalid level.elevation level.height])

/-- Every level with the one below it. -/
def withBelow (levels : List (LevelReading α)) :
    List (Option (LevelReading α) × LevelReading α) :=
  (none :: levels.map some).zip levels

/-- The findings that a rule makes on every level. -/
def issuesBy (rule : Option (LevelReading α) → LevelReading α → List (StructureFinding α))
    (levels : List (LevelReading α)) : List (StructureIssue α) :=
  (withBelow levels).zipIdx.flatMap fun ((below?, level), i) =>
    (rule below? level).map fun f => ⟨i, f⟩

/-- Everything that breaks a rule of support. -/
def structureReport (policy : SupportPolicy) (tolerance : α) (levels : List (LevelReading α)) :
    StructureReport α :=
  let order (before? : Option (LevelReading α)) (level : LevelReading α) :=
    match before? with
    | some before => orderFindings tolerance before level
    | none => []
  ⟨(if policy.sortedLevels then issuesBy order levels else [])
    ++ issuesBy (levelFindings policy tolerance) levels⟩

end Rules

namespace House

variable {α : Type}

/-- The levels of a house as the rules of support read them. -/
def readings (h : House α) : List (LevelReading α) :=
  h.levels.map fun l =>
    ⟨l.elevation, l.height, l.slab.map (·.thickness), h.supportGapLevelIds.contains l.id⟩

/-- The policy that a house asks for; its levels are always to be sorted. -/
def supportPolicy (h : House α) : SupportPolicy :=
  ⟨h.elevationConvention, h.allowGroundSupport, true⟩

/-- Everything about the structure of a house that breaks a rule of support. -/
def structureReport [Scalar α] (h : House α) (tolerance : α) : StructureReport α :=
  Housewright.structureReport h.supportPolicy tolerance h.readings

end House

end Housewright
