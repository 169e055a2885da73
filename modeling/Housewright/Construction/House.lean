import Housewright.Construction.Facade
import Housewright.Construction.Roofs
import Housewright.Construction.Slabs
import Housewright.Construction.Walls
import Housewright.Inspection.Openings
import Housewright.Inspection.Structure

/-!
# The whole house

`House.build` checks a house and builds everything that it describes.  A structure that
is not accepted stops the work or is handed on, as the mode asks; an opening that does
not fit always stops it.

Roofs never stop it: what is wrong with a roof is put into the report under its id, and
the other roofs are built all the same.  Only a failure of the arithmetic gets through.
-/

namespace Housewright

/-- Everything built from one description. -/
structure BuiltHouse (α : Type) where
  structureReport : StructureReport α
  slabs : List (Slab α)
  shells : List (WallShell α)
  segments : List (WallSegment α)
  openings : List (PlacedOpening α)
  panels : List (FacadePanel α)
  roofs : List (BuiltRoof α)
  /-- What was found on the roofs, by their ids. -/
  roofReports : List (String × RoofReport α)

/-- A house is fine if its structure and all roof reports are. -/
def BuiltHouse.ok {α : Type} (b : BuiltHouse α) : Bool :=
  b.structureReport.ok && b.roofReports.all fun r => r.2.ok

/-- Why a house cannot be built. -/
inductive BuildError (α : Type) where
  | structureRefused (report : StructureReport α)
  | openingRefused (refused : RefusedOpening α)
  | geometry (cause : GeometryError)

variable {α : Type} [Scalar α]

/-! ## The roofs -/

/-- One roof with its report: built, or with the error that prevented it. -/
structure RoofOutcome (α : Type) where
  roofId : String
  built : Option (BuiltRoof α)
  report : RoofReport α

/-- Builds one roof.  What is wrong with the roof goes into its report. -/
def House.buildReported (kernel : AreaKernel α) (h : House α) (roof : Roof α) :
    Computed (RoofOutcome α) :=
  if (h.level? roof.baseLevelId).isNone then
    .ok ⟨roof.id, none, .ofError roof.id (.baseLevelMissing roof.baseLevelId)⟩
  else
    match h.buildRoof kernel roof with
    | .ok (.multiPlane id base report faces) =>
      .ok ⟨roof.id, some (.multiPlane id base report faces), report⟩
    | .ok built => .ok ⟨roof.id, some built, .clean⟩
    | .error e =>
      match e.failure? with
      | some failure => .error failure
      | none => .ok ⟨roof.id, none, .ofError roof.id (.underivable e)⟩

/-- The roofs of a house that could be built, and the reports by the ids of the roofs.  Of
several roofs with one id the last report counts. -/
def House.buildReportedRoofs (kernel : AreaKernel α) (h : House α) :
    Computed (List (BuiltRoof α) × List (String × RoofReport α)) := do
  let outcomes ← h.roofs.mapM (h.buildReported kernel)
  return (outcomes.filterMap (·.built),
    outcomes.foldl (fun reports o => upsert o.roofId o.report reports) [])

/-! ## The house -/

/-- A computation on coordinates as a step of building a house. -/
def Computed.forHouse {β : Type} (c : Computed β) : Except (BuildError α) β :=
  c.mapError .geometry

/-- Builds everything that a house describes. -/
def House.build (kernel : AreaKernel α) (h : House α) (mode : ReportMode) (tolerance : α) :
    Except (BuildError α) (BuiltHouse α) := do
  let structureReport ← ((h.structureReport tolerance).settle mode).mapError .structureRefused
  if let some refused ← (h.refusedOpening? Tolerance.openingFit).forHouse then
    throw (.openingRefused refused)
  let openings ← h.placeOpenings.forHouse
  let (roofs, roofReports) ← (h.buildReportedRoofs kernel).forHouse
  let slabs ← h.buildSlabs.forHouse
  let shells ← h.buildShells.forHouse
  let segments ← h.buildSegments.forHouse
  let panels ← (h.buildPanels openings Tolerance.panelThickness).forHouse
  return { structureReport, slabs, shells, segments, openings, panels, roofs, roofReports }

end Housewright
