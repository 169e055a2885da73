import Housewright.Decimal.Shortest
import Housewright.Inspection.Openings
import Housewright.Inspection.Roofs
import Housewright.Inspection.Structure
import Housewright.Json.Value
import Housewright.Scalar.Binary64

/-!
# What findings say

The codes, details and messages of findings.  Numbers are written with the fewest digits
that read back, and measured lengths with three decimal places.
-/

namespace Housewright

/-- A number in a message. -/
def numberText (x : Float) : String := (Decimal.Layout.plain .words).render x

/-- A length in a message. -/
def lengthText (x : Float) : String := Decimal.fixed 3 x

/-- A value in a message, which may be missing. -/
def orNone : Option String → String
  | some s => s
  | none => "None"

/-! ## Structure -/

/-- The word for a severity. -/
def Severity.word : Severity → String
  | .error => "error"
  | .warning => "warning"

/-- The words for report modes. -/
def ReportMode.words : List (String × ReportMode) := [("throw", .throw), ("report", .report)]

/-- The name of a kind of finding. -/
def StructureCode.word : StructureCode → String
  | .levelFloating => "LEVEL_FLOATING"
  | .slabMissing => "SLAB_MISSING"
  | .slabFloating => "SLAB_FLOATING"
  | .wallFloating => "WALL_FLOATING"
  | .levelOrderInvalid => "LEVEL_ORDER_INVALID"
  | .levelGapUnsupported => "LEVEL_GAP_UNSUPPORTED"

/-- What a gap was measured against. -/
def SupportGap.details (g : SupportGap Float) : List (String × Json) :=
  [("expected_support_plane", .num g.supportPlane), ("slab_bottom", .num g.slabBottom),
    ("gap", .num g.gap), ("tolerance", .num g.tolerance)]

/-- The numbers behind a finding. -/
def StructureFinding.details : StructureFinding Float → List (String × Json)
  | .unsorted previous elevation =>
    [("prev_elevation", .num previous), ("elevation", .num elevation)]
  | .slabMissing elevation height thickness =>
    [("elevation", .num elevation), ("height", .num height),
      ("thickness", .ofOption .num thickness)]
  | .groundForbidden elevation top bottom =>
    [("elevation", .num elevation), ("top", .num top), ("bottom", .num bottom)]
  | .slabFloating gap => gap.details
  | .gapTolerated gap => gap.details
  | .wallsFloating elevation thickness top =>
    [("elevation", .num elevation), ("thickness", .num thickness), ("top", .num top)]
  | .heightInvalid elevation height => [("elevation", .num elevation), ("height", .num height)]

/-- What is wrong with a level. -/
def StructureIssue.message (issue : StructureIssue Float) : String :=
  let level := "Level " ++ toString issue.levelIndex
  match issue.finding with
  | .unsorted previous elevation =>
    "Levels are not sorted by elevation: level " ++ toString (issue.levelIndex - 1)
      ++ " elevation=" ++ numberText previous ++ " > level " ++ toString issue.levelIndex
      ++ " elevation=" ++ numberText elevation ++ "."
  | .slabMissing _ _ thickness =>
    level ++ " is missing a valid slab thickness (got " ++ orNone (thickness.map numberText)
      ++ ")."
  | .groundForbidden _ _ _ => level ++ " slab may not rest on the ground by configuration."
  | .slabFloating g =>
    level ++ " slab appears unsupported/floating. Expected slab bottom ≈ top of walls below ("
      ++ lengthText g.supportPlane ++ "), got " ++ lengthText g.slabBottom ++ " (gap "
      ++ lengthText g.gap ++ "m)."
  | .gapTolerated g =>
    level ++ " slab support gap detected (gap " ++ lengthText g.gap
      ++ "m) but allowed for this level."
  | .wallsFloating _ _ _ => level ++ " slab top is not a finite number; walls would float."
  | .heightInvalid _ height => level ++ " has invalid height (got " ++ numberText height ++ ")."

/-- All messages of a report, one a line. -/
def StructureReport.message (r : StructureReport Float) : String :=
  String.intercalate "\n" (r.issues.map (·.message))

/-! ## Openings -/

/-- Why an opening does not fit, in words. -/
def OpeningFault.message : OpeningFault Float → String
  | .unknownLevel levelId => "invalid levelId " ++ levelId
  | .noOutline => "level has no footprint.outer"
  | .unknownEdge index edges =>
    "invalid edgeIndex " ++ toString index ++ " (level has " ++ toString edges ++ " edges)"
  | .sizeNotPositive => "width/height must be > 0"
  | .tooSmall width height =>
    "width/height must be >= " ++ numberText Tolerance.openingSize ++ "m (got width="
      ++ numberText width ++ ", height=" ++ numberText height ++ ")"
  | .sillBelowFloor => "sillHeight must be >= 0"
  | .aboveWall sill height levelHeight =>
    "exceeds wall height (sill " ++ numberText sill ++ " + height " ++ numberText height
      ++ " > level height " ++ numberText levelHeight ++ ")"
  | .edgeTooShort => "edge length too small"
  | .offsetNegative => "offset must be >= 0"
  | .beyondEdge offset width length =>
    "offset+width exceeds edge length (" ++ numberText offset ++ " + " ++ numberText width
      ++ " > " ++ lengthText length ++ ")"

/-- What is wrong with which opening. -/
def RefusedOpening.message (r : RefusedOpening Float) : String :=
  "Opening " ++ r.openingId ++ ": " ++ r.fault.message

/-! ## Roofs -/

namespace RoofProblem

/-- The name of a kind of problem. -/
def code : RoofProblem Float → String
  | ridge _ .duplicated => "RIDGE_DUPLICATE_ID"
  | ridge _ .zeroLength => "RIDGE_ZERO_LENGTH"
  | ridge _ .heightInvalid => "RIDGE_HEIGHT_INVALID"
  | face _ _ .ridgeMissing => "FACE_MISSING_RIDGE"
  | face _ _ .rangeMissing => "FACE_RIDGE_RANGE_ORDER"
  | face _ _ (.rangeOrder _ _) => "FACE_RIDGE_RANGE_ORDER"
  | face _ _ .rangeBounds => "FACE_RIDGE_RANGE_BOUNDS"
  | face _ _ .capEndMisplaced => "FACE_CAP_END_INVALID"
  | face _ _ .regionInvalid => "FACE_INVALID_REGION"
  | suspiciousRange _ _ _ _ => "FACE_SUSPICIOUS_RIDGE_RANGE"
  | baseLevelMissing _ => "ROOF_BASE_LEVEL_MISSING"
  | underivable _ => "ROOF_GEOMETRY_INVALID"

/-- The ridge that a problem names. -/
def ridgeId? : RoofProblem Float → Option String
  | ridge id _ => some id
  | face _ id? _ => id?
  | suspiciousRange _ id? _ _ => id?
  | _ => none

/-- The face that a problem is about. -/
def faceId? : RoofProblem Float → Option String
  | face id _ _ => some id
  | suspiciousRange id _ _ _ => some id
  | _ => none

end RoofProblem

/-- What is wrong with a roof. -/
def RoofIssue.message (issue : RoofIssue Float) : String :=
  let ridge (id : String) := "Ridge '" ++ id ++ "' "
  let face (id : String) := "Face '" ++ id ++ "' "
  match issue.problem with
  | .ridge id .duplicated => ridge id ++ "is duplicated."
  | .ridge id .zeroLength => ridge id ++ "has zero/near-zero length."
  | .ridge id .heightInvalid => ridge id ++ "height must be above base level (> 0)."
  | .face id ridgeId .ridgeMissing =>
    face id ++ "references missing ridge '" ++ orNone ridgeId ++ "'."
  | .face id _ .rangeMissing => face id ++ "requires numeric ridgeT0/ridgeT1."
  | .face id _ (.rangeOrder t0 t1) =>
    face id ++ "has invalid range: ridgeT0 (" ++ numberText t0 ++ ") must be < ridgeT1 ("
      ++ numberText t1 ++ ")."
  | .face id _ .rangeBounds => face id ++ "has ridge range outside [0,1]."
  | .face id _ .capEndMisplaced => face id ++ "uses capEnd but is not ridgeSideSegment."
  | .face id _ .regionInvalid => face id ++ "region clips to empty or invalid polygon."
  | .suspiciousRange id _ t0 t1 =>
    face id ++ "has suspicious ridge range (" ++ numberText t0 ++ ".." ++ numberText t1 ++ ")."
  | .baseLevelMissing levelId =>
    "Roof '" ++ issue.roofId ++ "' base level '" ++ levelId ++ "' does not exist."
  | .underivable cause => cause.message

end Housewright
