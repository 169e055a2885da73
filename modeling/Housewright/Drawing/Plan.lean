import Housewright.Construction.Openings
import Housewright.Construction.Walls
import Housewright.Drawing.Sheet
import Housewright.Inspection.Roofs

/-!
# Plans of houses

A plan shows one level of a house or all of them over each other: the outlines and walls
of the levels with the indices of the edges, the openings on these levels, and the ridges
of all roofs.  On a multi-plane roof it also shows what is wrong: invalid ridges in red,
suspicious ranges in yellow, and what is left of invalid face regions, hatched.
-/

namespace Housewright

/-- What a plan is to show. -/
structure PlanOptions where
  /-- The only level to show. -/
  levelId : Option String
  /-- The title, instead of the name of the house. -/
  title : Option String
  showRoofs : Bool
  showSummary : Bool
  deriving DecidableEq, Repr

/-- All levels with roofs and summary, under the name of the house. -/
def PlanOptions.standard : PlanOptions := ⟨none, none, true, true⟩

/-- Why there is no plan. -/
inductive PlanError where
  | noLevels
  | unknownLevel (id : String)
  | geometry (cause : GeometryError)
  deriving DecidableEq, Repr

/-- Why there is no plan, in words. -/
def PlanError.message : PlanError → String
  | .noLevels => "House has no levels to render"
  | .unknownLevel id => "Level '" ++ id ++ "' not found"
  | .geometry cause => cause.message

/-- A computation on coordinates as a step of drawing a plan. -/
def Computed.forPlan {β : Type} (c : Computed β) : Except PlanError β := c.mapError .geometry

/-! ## Colours and layers -/

namespace Color

/-- The colour of what is wrong. -/
def invalid : Color := ⟨"#E53935"⟩

/-- The colour of what is doubtful. -/
def suspicious : Color := ⟨"#FDD835"⟩

/-- The colour of ridges. -/
def ridge : Color := ⟨"#37474F"⟩

/-- The colours of the levels, which come round again. -/
def levels : List Color := [⟨"#546E7A"⟩, ⟨"#8D6E63"⟩, ⟨"#7E57C2"⟩, ⟨"#26A69A"⟩]

/-- The colour of the level shown at an index. -/
def ofLevel (index : Nat) : Color := levels.getD (index % levels.length) ridge

/-- The colour of an opening. -/
def ofOpening : OpeningKind → Color
  | .window => ⟨"#1E88E5"⟩
  | .door => ⟨"#6D4C41"⟩

end Color

namespace Mark

variable {α : Type}

/-- The layer of the words on a plan. -/
def wordLayer : Nat := 20

/-- Words on a plan. -/
def words (place : Point α) (text : String) (size : Nat) (color : Color) (anchor : Anchor) :
    Mark α :=
  ⟨wordLayer, .words place text ⟨size, color, anchor⟩⟩

end Mark

variable {α : Type} [Scalar α]

/-! ## Levels -/

/-- The walls: the outer ring filled, and the inner ring covered with paper again. -/
def WallShell.marks (color : Color) (s : WallShell α) : List (Mark α) :=
  if s.outer.length < 3 then []
  else
    ⟨5, .area s.outer ⟨color, some 0.35, some .clear, false⟩⟩ ::
      if s.inner.length < 3 then []
      else [⟨6, .area s.inner ⟨(Sheet.standard : Sheet α).paper, none, some .clear, false⟩⟩]

/-- The outline of a level, which names it in the legend, and the outlines of its holes. -/
def Level.outlineMarks (color : Color) (l : Level α) : List (Mark α) :=
  ⟨7, .line (Ring.closed l.footprint.outer) ⟨color, 1.2, some .solid⟩ (some l.id)⟩ ::
    (l.footprint.holes.filter fun r => 3 ≤ r.length).map fun r =>
      ⟨7, .line (Ring.closed r) ⟨color, 0.8, some .dotted⟩ none⟩

/-- The indices of the outer edges, each in the middle of its edge. -/
def Level.edgeMarks (color : Color) (l : Level α) : List (Mark α) :=
  (Ring.edges l.footprint.outer).zipIdx.map fun ((a, b), i) =>
    .words (a.middle b) (toString i) 6 color .center

/-- A level with its walls.  A level without an area is not shown. -/
def Level.marks (color : Color) (shell : Option (WallShell α)) (l : Level α) : List (Mark α) :=
  if l.footprint.outer.length < 3 then []
  else
    (shell.map (·.marks color)).getD [] ++ l.outlineMarks color ++ l.edgeMarks color

/-- The shell of the level with an id, the last one if there are several. -/
def shellOf? (shells : List (WallShell α)) (levelId : String) : Option (WallShell α) :=
  shells.reverse.find? (·.levelId == levelId)

/-! ## Openings -/

/-- The strip that an opening takes out of a wall, seen from above. -/
def PlacedOpening.strip (wallThickness : α) (o : PlacedOpening α) : Ring α :=
  let half := o.width / 2.0
  let depth := wallThickness / 2.0
  let centre : Point α := ⟨o.center.x, o.center.y⟩
  let start := centre.shift o.tangent (-half)
  let finish := centre.shift o.tangent half
  [start.shift o.outward depth, finish.shift o.outward depth, finish.shift o.outward (-depth),
    start.shift o.outward (-depth)]

/-- An opening: its strip, a tick that points outside, and its id. -/
def PlacedOpening.marks (wallThickness : α) (o : PlacedOpening α) : List (Mark α) :=
  let color := Color.ofOpening o.kind
  let depth := wallThickness / 2.0
  let centre : Point α := ⟨o.center.x, o.center.y⟩
  [⟨12, .area (o.strip wallThickness) ⟨color, some 0.8, none, false⟩⟩,
    ⟨12, .line [centre, centre.shift o.outward (depth + 0.25)] ⟨color, 1.0, none⟩ none⟩,
    .words (centre.shift o.outward (depth + 0.45)) o.id 6 color .center]

/-! ## Roofs -/

/-- A ridge line with its name. -/
def ridgeMarks (start finish : Point α) (name : String) : List (Mark α) :=
  [⟨15, .line [start, finish] ⟨.ridge, 1.5, some .dashed⟩ none⟩,
    .words (start.middle finish) name 7 .ridge .corner]

/-- A ridge with its id. -/
def Ridge.marks (r : Ridge α) : List (Mark α) := ridgeMarks r.start r.finish r.id

/-- An invalid ridge and its start. -/
def Ridge.invalidMarks (r : Ridge α) : List (Mark α) :=
  [⟨16, .line [r.start, r.finish] ⟨.invalid, 3.0, none⟩ none⟩, ⟨16, .dot r.start .invalid 30⟩]

/-- The range of a suspicious face on the ridge that it names. -/
def RoofFace.suspiciousMarks (roof : MultiPlaneRoof α) (f : RoofFace α) : List (Mark α) :=
  let ridge? := (f.ridgeId.filter (· ≠ "")).bind roof.ridge?
  match ridge?, f.ridgeT0, f.ridgeT1 with
  | some r, some t0, some t1 =>
    [⟨16, .line [r.pointAt t0, r.pointAt t1] ⟨.suspicious, 4.0, none⟩ none⟩]
  | _, _, _ => []

/-- What is left of an invalid region. -/
def invalidRegionMarks (rest : Ring α) : List (Mark α) :=
  if 3 ≤ rest.length then [⟨14, .area rest ⟨.invalid, some 0.15, some .invalid, true⟩⟩]
  else if rest.isEmpty then []
  else [⟨14, .line rest ⟨.invalid, 2.0, none⟩ none⟩]

/-- What a report found on a roof. -/
def RoofReport.marks (roof : MultiPlaneRoof α) (report : RoofReport α) : List (Mark α) :=
  report.invalidRidges.flatMap Ridge.invalidMarks
    ++ report.suspiciousFaces.flatMap (·.suspiciousMarks roof)
    ++ report.invalidPolygons.flatMap fun p => invalidRegionMarks p.2

/-- The marks of a roof, and the report of a multi-plane roof, which is made after its
dividers were written out. -/
def Roof.marks (roof : Roof α) : Computed (List (Mark α) × Option (RoofReport α)) :=
  match roof with
  | .flat _ => .ok ([], none)
  | .gable r => .ok (ridgeMarks r.ridge.start r.ridge.finish r.id, none)
  | .multiRidge r => .ok (r.ridges.flatMap Ridge.marks, none)
  | .multiPlane r => do
    let report ← r.normalize.report
    return (r.ridges.flatMap Ridge.marks ++ report.marks r, some report)

/-! ## The plan -/

/-- How much was found on the roofs that have a report.  Of several roofs with one id the
last report counts. -/
def countIssues (reports : List (String × RoofReport α)) : Option IssueCount :=
  let reports := reports.foldl (fun kept r => upsert r.1 r.2 kept) []
  if reports.isEmpty then none
  else
    some ⟨reports.foldl (fun n r => n + r.2.errors.length) 0,
      reports.foldl (fun n r => n + r.2.warnings.length) 0⟩

namespace House

/-- The levels that are shown. -/
def shownLevels (h : House α) (levelId : Option String) : Except PlanError (List (Level α)) :=
  if h.levels.isEmpty then .error .noLevels
  else
    match levelId with
    | none => .ok h.levels
    | some id =>
      match h.level? id with
      | some l => .ok [l]
      | none => .error (.unknownLevel id)

/-- The openings on the levels that are shown. -/
def shownOpenings (h : House α) (shown : List (Level α)) (openings : List (PlacedOpening α)) :
    List (PlacedOpening α) :=
  openings.filter fun o =>
    (h.levels[o.levelIndex]?).any fun l => shown.any fun s => s.id == l.id

/-- The part of the plan to show: the levels with a margin around them. -/
def planExtent (shown : List (Level α)) : Computed (Option (Box α)) :=
  match shown.flatMap (·.footprint.outer) with
  | [] => .ok none
  | points => do
    let b ← Ring.boundingBox points
    let margin := (Sheet.standard : Sheet α).margin
    return some ⟨b.minX - margin, b.minY - margin, b.maxX + margin, b.maxY + margin⟩

/-- The plan of a house. -/
def plan (h : House α) (options : PlanOptions) : Except PlanError (Drawing α) := do
  let shown ← h.shownLevels options.levelId
  let shells ← h.buildShells.forPlan
  let openings := h.shownOpenings shown (← h.placeOpenings.forPlan)
  let roofs ← ((if options.showRoofs then h.roofs else []).mapM Roof.marks).forPlan
  let extent ← (planExtent shown).forPlan
  let reports := ((if options.showRoofs then h.roofs else []).zip roofs).filterMap
    fun (roof, r) => r.2.map (roof.id, ·)
  return {
    marks := shown.zipIdx.flatMap (fun (l, i) => l.marks (.ofLevel i) (shellOf? shells l.id))
      ++ openings.flatMap (·.marks h.wallThickness)
      ++ roofs.flatMap (·.1)
    title := (options.title.filter (· ≠ "")).getD h.name
    extent
    summary := if options.showSummary then
        some ⟨shown.map (·.id), h.wallThickness, openings.length, h.roofs.length,
          countIssues reports⟩
      else none }

end House

end Housewright
