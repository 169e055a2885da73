import Housewright.Description.House

/-!
# The reference house

A house of two levels.  The ground level reaches farther north than the first level on
top of it; a flat roof covers what the first level leaves free, and a hip roof around one
ridge covers the first level.  The first level's slab rests exactly on the ground level's
walls, so that nothing is found wrong with the structure.
-/

namespace Housewright.ReferenceHouse

variable {α : Type} [Scalar α]

/-- The outline of the ground level. -/
def groundOutline : Ring α :=
  [⟨4.1, 15.0⟩, ⟨-3.5, 15.0⟩, ⟨-3.5, 12.0⟩, ⟨-3.5, 8.45⟩, ⟨-4.1, 8.45⟩, ⟨-4.1, 4.0⟩,
    ⟨-4.8, 4.0⟩, ⟨-4.8, 0.0⟩, ⟨4.8, 0.0⟩]

/-- The outline of the first level. -/
def firstOutline : Ring α :=
  [⟨-3.5, 12.0⟩, ⟨-3.5, 8.45⟩, ⟨-4.1, 8.45⟩, ⟨-4.1, 4.0⟩, ⟨-4.8, 4.0⟩, ⟨-4.8, 0.0⟩,
    ⟨4.8, 0.0⟩, ⟨4.1, 12.0⟩]

/-- The ground level. -/
def ground : Level α := ⟨"ground", 0.0, 2.8, ⟨groundOutline, []⟩, some ⟨0.3, 0.0⟩⟩

/-- The first level. -/
def first : Level α := ⟨"first", 3.05, 2.8, ⟨firstOutline, []⟩, some ⟨0.25, 0.0⟩⟩

/-- The ridge of the hip roof, which runs from north to south. -/
def ridge : Ridge α := ⟨"main", ⟨0.6, 12.0⟩, ⟨0.6, 8.45⟩, 3.4, true, true⟩

/-- The face on one side of the ridge, between its ends. -/
def sideFace (id : String) (side : Side) : RoofFace α where
  id := id
  kind := .ridgeSide
  ridgeId := some "main"
  ridgeT0 := some 0.05
  ridgeT1 := some 0.95
  side := some side
  capEnd := none
  p1 := none
  p2 := none
  p3 := none
  region := .compound [.divider "main" side, .perpCut "main" 0.0 .ahead,
    .perpCut "main" 1.0 .behind]

/-- The face that caps one end of the ridge. -/
def capFace (id : String) (cap : RidgeEnd) : RoofFace α where
  id := id
  kind := .hipCap
  ridgeId := some "main"
  ridgeT0 := none
  ridgeT1 := none
  side := none
  capEnd := none
  p1 := none
  p2 := none
  p3 := none
  region := .ridgeCap "main" cap

/-- The hip roof over the first level. -/
def hipRoof : MultiPlaneRoof α where
  id := "main-roof"
  baseLevelId := "first"
  eaveHeight := 2.8
  thickness := 0.2
  overhang := 0.3
  ridges := [ridge]
  faces := [sideFace "main-west" .left, sideFace "main-east" .right, capFace "hip-north" .start,
    capFace "hip-south" .finish]

/-- The flat roof over the rest of the ground level. -/
def flatRoof : FlatRoof α := ⟨"ground-flat", "ground", some "first", 0.2, 0.0⟩

/-- An opening without a style on an edge whose outside is to be found. -/
def opening (id : String) (kind : OpeningKind) (levelId : String) (edgeIndex : Int)
    (fromEnd : Bool) (offset width height sillHeight : α) : Opening α :=
  ⟨id, kind, levelId, ⟨edgeIndex, fromEnd, none⟩, offset, width, height, sillHeight, none⟩

/-- A door and two windows on the south side. -/
def openings : List (Opening α) :=
  [opening "front-door" .door "ground" 7 false 4.3 1.0 2.1 0.0,
    opening "ground-window-south" .window "ground" 7 false 1.0 1.6 1.4 0.9,
    opening "first-window-south" .window "first" 5 true 1.5 1.2 1.4 0.9]

/-- The reference house, with or without its openings. -/
def house (withOpenings : Bool) : House α where
  name := "Reference House"
  wallThickness := 0.3
  elevationConvention := .topOfSlab
  allowGroundSupport := true
  supportGapLevelIds := []
  levels := [ground, first]
  roofs := [.flat flatRoof, .multiPlane hipRoof]
  openings := if withOpenings then openings else []

end Housewright.ReferenceHouse
