import Housewright.Command.Path
import Housewright.Construction.House
import Housewright.Description.Words
import Housewright.Drawing.Plan
import Housewright.Inspection.Wording
import Housewright.Roof.RidgeSync

/-!
# Answers

What a command found out, as a value of `Answer`.  Every answer says whether all is well
(`Answer.ok`); `Answer.exitCode` is one if the command failed because of what it found, and
`Answer.json` is the answer as it is printed.

A house that was built although its structure is not accepted is an answer that is not ok
but no failure: whoever asks for a report gets one.
-/

namespace Housewright.Command

/-- Why a command could not do what it was asked for. -/
inductive Failure where
  | fileMissing (path : Path)
  | unreadableHouse (complaints : Nat)
  | unknownMode (word : String)
  | unknownRoof (id : String)
  | unknownGenerator (word : String)
  | structureRefused (report : StructureReport Float)
  | openingRefused (refused : RefusedOpening Float)
  | noPlan (cause : PlanError)

/-- What was found on a house that was checked. -/
structure HouseCheck where
  name : String
  structureReport : StructureReport Float
  refusedOpening : Option (RefusedOpening Float)
  /-- What was found on the multi-plane roofs, by their ids. -/
  roofs : List (String × RoofReport Float)

/-- What is to be done about one roof after its ridges were moved. -/
structure RoofFix where
  roofId : String
  plan : SyncPlan Float

/-- A house that was built, with the areas of its wall shells. -/
structure HouseReport where
  name : String
  built : BuiltHouse Float
  shellAreas : List Float

/-- A sample house that was written. -/
structure SampleReport where
  generator : String
  path : Path
  levels : Nat
  structureReport : StructureReport Float

/-- What a command found out. -/
inductive Answer where
  | failed (why : Failure)
  | checked (check : HouseCheck)
  | built (report : HouseReport)
  | roofsChecked (reports : List (String × RoofReport Float))
  | roofsFixed (fixes : List RoofFix) (saved : Option Path)
  | drawn (path : Path)
  | sampled (report : SampleReport)
  | version (number : String)

/-! ## Is all well? -/

/-- A house is fine if its structure, openings and multi-plane roofs are. -/
def HouseCheck.ok (c : HouseCheck) : Bool :=
  c.structureReport.ok && c.refusedOpening.isNone && c.roofs.all (·.2.ok)

/-- A roof is fixed if no divider had to be left where it was. -/
def RoofFix.ok (f : RoofFix) : Bool := f.plan.lostRidges.isEmpty

namespace Answer

/-- Whether all is well. -/
def ok : Answer → Bool
  | failed _ => false
  | checked c => c.ok
  | built r => r.built.ok
  | roofsChecked reports => reports.all (·.2.ok)
  | roofsFixed fixes _ => fixes.all RoofFix.ok
  | drawn _ | sampled _ | version _ => true

/-- The exit code.  A house that was built is no failure, whatever was found on it. -/
def exitCode : Answer → Nat
  | built _ => 0
  | answer => if answer.ok then 0 else 1

/-- Only a house that was built can be an answer that is not ok and yet no failure. -/
theorem exitCode_eq_zero_iff (a : Answer) :
    a.exitCode = 0 ↔ a.ok = true ∨ ∃ r, a = built r := by
  cases a <;> simp [exitCode]

end Answer

/-! ## Words -/

/-- Why a command failed, in words. -/
def Failure.message : Failure → String
  | .fileMissing path => "File not found: " ++ path.text
  | .unreadableHouse n => "Invalid house description: " ++ toString n ++ " errors"
  | .unknownMode word => "Unknown mode: " ++ word ++ ". Available: throw, report"
  | .unknownRoof id => "Multi-plane roof '" ++ id ++ "' not found"
  | .unknownGenerator word =>
    "Unknown generator: " ++ word ++ ". Available: reference, box"
  | .structureRefused report => report.message
  | .openingRefused refused => refused.message
  | .noPlan cause => cause.message

/-- A number rounded for an answer. -/
def rounded (places : Nat) (x : Float) : Json := .num (Decimal.roundPlaces places x)

/-- A length or height, to a tenth of a millimetre. -/
def measure (x : Float) : Json := rounded 4 x

/-- A direction. -/
def direction (v : Vec Float) : Json := .arr [measure v.x, measure v.y]

/-- A point as it is. -/
def exactPoint (p : Point Float) : Json := .arr [.num p.x, .num p.y]

/-- A finding about a level. -/
def structureIssue (i : StructureIssue Float) : Json :=
  .obj [("severity", .str i.finding.severity.word), ("code", .str i.finding.code.word),
    ("message", .str i.message), ("level_index", .nat i.levelIndex),
    ("details", .obj i.finding.details)]

/-- The findings about a structure. -/
def structureFindings (r : StructureReport Float) : Json :=
  .obj [("ok", .bool r.ok), ("issues", .ofList structureIssue r.issues)]

/-- A member for an id; there is none for an empty id. -/
def idMember (key : String) : Option String → List (String × Json)
  | some id => if id = "" then [] else [(key, .str id)]
  | none => []

/-- A problem of a roof. -/
def roofIssue (i : RoofIssue Float) : Json :=
  .obj ([("code", .str i.problem.code), ("message", .str i.message)]
    ++ idMember "ridge_id" i.problem.ridgeId? ++ idMember "face_id" i.problem.faceId?)

/-- The problems of a roof. -/
def roofFindings (r : RoofReport Float) : Json :=
  .obj [("ok", .bool r.ok), ("errors", .ofList roofIssue r.errors),
    ("warnings", .ofList roofIssue r.warnings),
    ("invalid_ridges", .ofList (.str ·.id) r.invalidRidges),
    ("invalid_faces", .ofList (.str ·.id) r.invalidFaces),
    ("suspicious_faces", .ofList (.str ·.id) r.suspiciousFaces)]

/-- The problems of several roofs, by their ids. -/
def roofsFindings (rs : List (String × RoofReport Float)) : Json :=
  .obj (rs.map fun r => (r.1, roofFindings r.2))

/-- Whether the openings fit. -/
def openingsVerdict : Option (RefusedOpening Float) → Json
  | none => .obj [("ok", .bool true)]
  | some r => .obj [("ok", .bool false), ("opening_id", .str r.openingId),
      ("error", .str r.message)]

/-- A face of a multi-plane roof, in numbers. -/
def faceLine (f : ResolvedFace Float) : Json :=
  let (planes, cap) : Json × Json := match f.region with
    | .planes planes => (.nat planes.length, .null)
    | .cap ridgeId cap => (.null, .arr [.str ridgeId, .str cap.word])
    | .unresolved => (.null, .null)
  .obj [("id", .str f.faceId), ("half_planes", planes), ("cap", cap)]

/-- How many faces a half of a roof has. -/
def faceCount (half : Option (Mesh Float)) : Json := .nat (half.elim 0 (·.faces.length))

/-- A roof, in numbers. -/
def roofLine (b : BuiltRoof Float) : Json :=
  match b with
  | .flat id pieces bottom top =>
    .obj [("id", .str id), ("type", .str "flat"), ("pieces", .ofList (fun p =>
      .obj [("vertices", .nat p.outer.length), ("holes", .nat p.holes.length),
        ("bottom", measure bottom), ("top", measure top)]) pieces)]
  | .gable id mesh =>
    .obj [("id", .str id), ("type", .str "gable"), ("vertices", .nat mesh.vertices.length),
      ("faces", .nat mesh.faces.length), ("max_z", measure mesh.maxZ)]
  | .multiRidge id splitX west east =>
    .obj [("id", .str id), ("type", .str "multi-ridge"), ("split_x", .num splitX),
      ("west_faces", faceCount west), ("east_faces", faceCount east)]
  | .multiPlane id _ _ faces =>
    .obj [("id", .str id), ("type", .str "multi-plane"), ("faces", .ofList faceLine faces)]

/-- A slab, in numbers. -/
def slabLine (s : Slab Float) : Json :=
  .obj [("id", .str s.id), ("level", .str s.levelId), ("top", measure s.top),
    ("bottom", measure s.bottom)]

/-- A wall shell, in numbers. -/
def shellLine (s : WallShell Float) (area : Float) : Json :=
  .obj [("id", .str s.id), ("base", measure s.base), ("height", .num s.height),
    ("area_m2", rounded 3 area)]

/-- An opening, in numbers. -/
def openingLine (o : PlacedOpening Float) : Json :=
  .obj [("id", .str o.id), ("kind", .str o.kind.word), ("level_index", .nat o.levelIndex),
    ("edge_index", .nat o.edgeIndex), ("u", .arr [measure o.uMin, measure o.uMax]),
    ("v", .arr [measure o.vMin, measure o.vMax]), ("outward", direction o.outward)]

/-- A facade panel, in numbers. -/
def panelLine (p : FacadePanel Float) : Json :=
  .obj [("id", .str p.id), ("width", measure p.width), ("holes", .nat p.holes.length)]

/-- A patch of a divider. -/
def patchLine (p : DividerPatch Float) : Json :=
  .obj [("face_id", .str p.faceId), ("ridge_id", .str p.ridgeId), ("item_index", .int p.itemIndex),
    ("a", exactPoint p.a), ("b", exactPoint p.b)]

/-- What is to be done about a roof. -/
def fixLine (f : RoofFix) : Json :=
  .obj [("roof", .str f.roofId), ("patches", .ofList patchLine f.plan.patches),
    ("errors", .ofList .str f.plan.errors)]

/-! ## Answers as they are printed -/

/-- What a failure says besides its message. -/
def Failure.members : Failure → List (String × Json)
  | .structureRefused report => [("structure", structureFindings report)]
  | .openingRefused refused => [("opening_id", .str refused.openingId)]
  | _ => []

/-- What is said about a house that was built. -/
def HouseReport.members (r : HouseReport) : List (String × Json) :=
  [("house", .str r.name), ("structure", structureFindings r.built.structureReport),
    ("slabs", .ofList slabLine r.built.slabs),
    ("wall_shells", .arr (r.built.shells.zipWith shellLine r.shellAreas)),
    ("wall_segments", .nat r.built.segments.length),
    ("openings", .ofList openingLine r.built.openings),
    ("facade_panels", .ofList panelLine r.built.panels),
    ("roofs", .ofList roofLine r.built.roofs),
    ("roof_reports", roofsFindings r.built.roofReports)]

namespace Answer

/-- What an answer says besides whether all is well. -/
def members : Answer → List (String × Json)
  | failed why => ("error", .str why.message) :: why.members
  | checked c =>
    [("house", .str c.name), ("structure", structureFindings c.structureReport),
      ("openings", openingsVerdict c.refusedOpening), ("roofs", roofsFindings c.roofs)]
  | built r => r.members
  | roofsChecked reports => [("roofs", roofsFindings reports)]
  | roofsFixed fixes saved =>
    ("plans", .ofList fixLine fixes) :: match saved with
      | some path => [("saved", .str path.text)]
      | none => []
  | drawn path => [("rendered", .str path.text)]
  | sampled r =>
    [("generator", .str r.generator), ("saved", .str r.path.text), ("levels", .nat r.levels),
      ("structure", structureFindings r.structureReport)]
  | version number => [("version", .str number)]

/-- The answer as it is printed. -/
def json (answer : Answer) : Json := .obj (("ok", .bool answer.ok) :: answer.members)

end Answer

end Housewright.Command
