import Housewright.Description.House

/-!
# The words of house files

House files name sides, ends, kinds and conventions by words.  Each table lists the words
of one type in the order in which complaints offer them, and `word` is the word for a
value.  Roofs, face regions and region items are told apart by tags.
-/

namespace Housewright

/-- The words for sides. -/
def Side.words : List (String × Side) := [("left", .left), ("right", .right)]

/-- The word for a side. -/
def Side.word : Side → String
  | .left => "left"
  | .right => "right"

/-- The words for ridge ends. -/
def RidgeEnd.words : List (String × RidgeEnd) := [("start", .start), ("end", .finish)]

/-- The word for a ridge end. -/
def RidgeEnd.word : RidgeEnd → String
  | .start => "start"
  | .finish => "end"

/-- The words for the sides of a cut. -/
def CutSide.words : List (String × CutSide) := [("ahead", .ahead), ("behind", .behind)]

/-- The word for a side of a cut. -/
def CutSide.word : CutSide → String
  | .ahead => "ahead"
  | .behind => "behind"

/-- The words for kinds of faces. -/
def FaceKind.words : List (String × FaceKind) :=
  [("ridgeSideSegment", .ridgeSide), ("hipCap", .hipCap)]

/-- The word for a kind of face. -/
def FaceKind.word : FaceKind → String
  | .ridgeSide => "ridgeSideSegment"
  | .hipCap => "hipCap"

/-- The words for kinds of openings. -/
def OpeningKind.words : List (String × OpeningKind) := [("window", .window), ("door", .door)]

/-- The word for a kind of opening. -/
def OpeningKind.word : OpeningKind → String
  | .window => "window"
  | .door => "door"

/-- The words for elevation conventions. -/
def ElevationConvention.words : List (String × ElevationConvention) :=
  [("TOP_OF_SLAB", .topOfSlab), ("BOTTOM_OF_SLAB", .bottomOfSlab)]

/-- The word for an elevation convention. -/
def ElevationConvention.word : ElevationConvention → String
  | .topOfSlab => "TOP_OF_SLAB"
  | .bottomOfSlab => "BOTTOM_OF_SLAB"

/-- The tag of a roof. -/
def Roof.tag {α : Type} : Roof α → String
  | .flat _ => "flat"
  | .gable _ => "gable"
  | .multiRidge _ => "multi-ridge"
  | .multiPlane _ => "multi-plane"

/-- The tag of a face region. -/
def FaceRegion.tag {α : Type} : FaceRegion α → String
  | .halfPlanes _ => "halfPlanes"
  | .ridgeCap _ _ => "ridgeCapTriangle"
  | .compound _ => "compound"

/-- The tag of an item of a compound region. -/
def RegionItem.tag {α : Type} : RegionItem α → String
  | .explicit _ => "explicit"
  | .materialized _ _ => "materializedDivider"
  | .divider _ _ => "ridgeDivider"
  | .perpCut _ _ _ => "ridgePerpCut"

end Housewright
