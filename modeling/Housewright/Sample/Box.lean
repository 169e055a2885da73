import Housewright.Description.House

/-!
# Rectangular houses

A box house is a stack of equal rectangular levels, each slab resting exactly on the walls
below it, with an optional roof on the top level.  `BoxPlan.standard` is the box that is
made when nothing else is said.
-/

namespace Housewright

/-- The roof of a box house. -/
inductive BoxRoof where
  | flat
  | gable
  deriving DecidableEq, Repr

/-- What a box house is to look like.  The ridge of a gable roof lies `ridgeRise` above the
eaves. -/
structure BoxPlan (α : Type) where
  name : String
  width : α
  depth : α
  levelCount : Nat
  levelHeight : α
  slabThickness : α
  wallThickness : α
  roof : Option BoxRoof
  ridgeRise : α

namespace BoxPlan

variable {α : Type} [Scalar α]

/-- Two levels of ten metres by eight under a flat roof. -/
def standard : BoxPlan α where
  name := "Box House"
  width := 10.0
  depth := 8.0
  levelCount := 2
  levelHeight := 2.8
  slabThickness := 0.25
  wallThickness := 0.3
  roof := some .flat
  ridgeRise := 2.0

/-- The outline of every level. -/
def footprint (p : BoxPlan α) : Footprint α :=
  ⟨[⟨0.0, 0.0⟩, ⟨p.width, 0.0⟩, ⟨p.width, p.depth⟩, ⟨0.0, p.depth⟩], []⟩

/-- The level with an index at an elevation. -/
def level (p : BoxPlan α) (index : Nat) (elevation : α) : Level α where
  id := "L" ++ toString index
  elevation := elevation
  height := p.levelHeight
  footprint := p.footprint
  slab := some ⟨p.slabThickness, 0.0⟩

/-- So many levels from an index and an elevation on.  Each has its slab on the walls of the
level before it. -/
def levelsFrom (p : BoxPlan α) : Nat → Nat → α → List (Level α)
  | 0, _, _ => []
  | n + 1, index, elevation =>
    let l := p.level index elevation
    l :: p.levelsFrom n (index + 1) (l.wallTop + p.slabThickness)

/-- The levels of the house. -/
def levels (p : BoxPlan α) : List (Level α) := p.levelsFrom p.levelCount 0 0.0

/-- The roof on the top level. -/
def roofs (p : BoxPlan α) : List (Roof α) :=
  match p.levels.getLast?, p.roof with
  | some top, some .flat => [.flat ⟨"roof", top.id, none, Tolerance.roofThickness, 0.0⟩]
  | some top, some .gable =>
    [.gable {
      id := "roof", baseLevelId := top.id, eaveHeight := p.levelHeight
      ridgeHeight := p.levelHeight + p.ridgeRise
      ridge := ⟨⟨0.0, p.depth / 2.0⟩, ⟨p.width, p.depth / 2.0⟩⟩
      overhang := 0.0, thickness := Tolerance.roofThickness }]
  | _, _ => []

/-- The box house. -/
def house (p : BoxPlan α) : House α where
  name := p.name
  wallThickness := p.wallThickness
  elevationConvention := .topOfSlab
  allowGroundSupport := true
  supportGapLevelIds := []
  levels := p.levels
  roofs := p.roofs
  openings := []

end BoxPlan

end Housewright
