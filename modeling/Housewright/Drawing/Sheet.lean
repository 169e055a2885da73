import Housewright.Decimal.Fixed
import Housewright.Drawing.Mark

/-!
# The sheet around a plan

A plan is drawn to scale on a sheet with a grid, a title, named axes, a legend and a box
that sums up what is shown.  `Sheet.standard` settles everything that is the same for all
houses; `Drawing` is what is particular to one.
-/

namespace Housewright

/-- The appearance of a sheet. -/
structure Sheet (α : Type) where
  /-- The colour under the plan. -/
  paper : Color
  /-- The colour around the plan. -/
  surround : Color
  titleSize : Nat
  titleGap : Nat
  axisSize : Nat
  xAxis : String
  yAxis : String
  legendSize : Nat
  gridOpacity : α
  gridDash : Dash
  /-- How much is shown around the house. -/
  margin : α
  /-- The corner of the summary box, in parts of the plan's width and height. -/
  summaryPlace : Point α
  summarySize : Nat
  summaryFill : Fill α
  summaryLayer : Nat
  /-- Dots to the inch. -/
  resolution : Nat

/-- The sheet that all plans are drawn on. -/
def Sheet.standard {α : Type} [Scalar α] : Sheet α where
  paper := ⟨"#FAFAFA"⟩
  surround := ⟨"white"⟩
  titleSize := 16
  titleGap := 20
  axisSize := 10
  xAxis := "X (meters)"
  yAxis := "Y (meters)"
  legendSize := 8
  gridOpacity := 0.2
  gridDash := .dashed
  margin := 1.5
  summaryPlace := ⟨0.02, 0.98⟩
  summarySize := 8
  summaryFill := ⟨⟨"white"⟩, some 0.8, some ⟨"#CCCCCC"⟩, false⟩
  summaryLayer := 100
  resolution := 150

/-- How many errors and warnings were found. -/
structure IssueCount where
  errors : Nat
  warnings : Nat
  deriving DecidableEq, Repr

/-- What a plan shows, in numbers. -/
structure PlanSummary (α : Type) where
  levelIds : List String
  wallThickness : α
  openings : Nat
  roofs : Nat
  /-- What was found on the multi-plane roofs, if there are any. -/
  roofIssues : Option IssueCount

/-- The lines of the summary box. -/
def PlanSummary.lines (s : PlanSummary Float) : List String :=
  ["Levels: " ++ String.intercalate ", " s.levelIds,
    "Wall thickness: " ++ Decimal.fixed 2 s.wallThickness ++ "m",
    "Openings: " ++ toString s.openings, "Roofs: " ++ toString s.roofs]
    ++ match s.roofIssues with
      | some n =>
        ["Roof issues: " ++ toString n.errors ++ " errors, " ++ toString n.warnings ++ " warnings"]
      | none => []

/-- The words in the summary box. -/
def PlanSummary.text (s : PlanSummary Float) : String := String.intercalate "\n" s.lines

/-- A drawing for a standard sheet. -/
structure Drawing (α : Type) where
  marks : List (Mark α)
  title : String
  /-- The part of the plan that is shown; all marks if nothing is settled. -/
  extent : Option (Box α)
  summary : Option (PlanSummary α)

end Housewright
