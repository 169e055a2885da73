import Housewright.Description.Roof
import Housewright.Json.Value

/-!
# Houses as described

A house is a stack of levels with roofs and openings.  A level has an outline, the
footprint, and maybe a slab; an opening is a window or door on an outer edge of a level.

Ids are not checked to be unique.  `levelIndex?` and `level?` take the first level of an
id, `lastLevel?` the last.
-/

namespace Housewright

/-- The outline of a level: an outer ring and holes. -/
structure Footprint (α : Type) where
  outer : Ring α
  holes : List (Ring α)

namespace Footprint

variable {α : Type}

/-- The vertex at an index; indices below zero count from the end. -/
def vertex (f : Footprint α) (i : Int) : Computed (Point α) :=
  let k := if i < 0 then i + f.outer.length else i
  if k < 0 then .error .indexOutOfRange
  else
    match f.outer[k.toNat]? with
    | some p => .ok p
    | none => .error .indexOutOfRange

/-- Both ends of the outer edge that starts at an index. -/
def edge (f : Footprint α) (i : Int) : Computed (Point α × Point α) := do
  return (← f.vertex i, ← f.vertex ((i + 1) % f.outer.length))

end Footprint

/-- Whether the elevation of a level is the top or the underside of its slab. -/
inductive ElevationConvention where
  | topOfSlab
  | bottomOfSlab
  deriving DecidableEq, Repr

namespace ElevationConvention

variable {α : Type} [Scalar α]

/-- The top of a slab of the given thickness. -/
def slabTop (c : ElevationConvention) (elevation thickness : α) : α :=
  match c with
  | .topOfSlab => elevation
  | .bottomOfSlab => elevation + thickness

/-- The underside of a slab of the given thickness. -/
def slabBottom (c : ElevationConvention) (elevation thickness : α) : α :=
  match c with
  | .topOfSlab => elevation - thickness
  | .bottomOfSlab => elevation

end ElevationConvention

/-- The floor slab of a level; its outline is the footprint moved inward by `inset`. -/
structure SlabSpec (α : Type) where
  thickness : α
  inset : α

/-- A storey.  Its walls stand on `elevation` and are `height` high. -/
structure Level (α : Type) where
  id : String
  elevation : α
  height : α
  footprint : Footprint α
  slab : Option (SlabSpec α)

/-- The top of a level's walls. -/
def Level.wallTop {α : Type} [Scalar α] (l : Level α) : α := l.elevation + l.height

/-- What an opening is. -/
inductive OpeningKind where
  | window
  | door
  deriving DecidableEq, Repr

/-- The host edge of an opening.  With `fromEnd` the opening's offset is measured from the
far end of the edge; `outwardSide` settles which side of the edge is outside. -/
structure EdgeRef where
  edgeIndex : Int
  fromEnd : Bool
  outwardSide : Option Side
  deriving DecidableEq, Repr

/-- A rectangular opening in the wall on an outer edge.  `style` is passed on as it is. -/
structure Opening (α : Type) where
  id : String
  kind : OpeningKind
  levelId : String
  edge : EdgeRef
  offset : α
  width : α
  height : α
  sillHeight : α
  style : Option (List (String × Json))

/-- The description of a house. -/
structure House (α : Type) where
  name : String
  wallThickness : α
  elevationConvention : ElevationConvention
  allowGroundSupport : Bool
  supportGapLevelIds : List String
  levels : List (Level α)
  roofs : List (Roof α)
  openings : List (Opening α)

namespace House

variable {α : Type}

/-- The first level with the given id. -/
def level? (h : House α) (id : String) : Option (Level α) := h.levels.find? (·.id == id)

/-- The index of the first level with the given id. -/
def levelIndex? (h : House α) (id : String) : Option Nat := h.levels.findIdx? (·.id == id)

/-- The last level with the given id. -/
def lastLevel? (h : House α) (id : String) : Option (Level α) :=
  h.levels.reverse.find? (·.id == id)

/-- The first roof with the given id. -/
def roof? (h : House α) (id : String) : Option (Roof α) := h.roofs.find? (·.id == id)

/-- The multi-plane roofs of the house, in order. -/
def multiPlaneRoofs (h : House α) : List (MultiPlaneRoof α) := h.roofs.filterMap Roof.multiPlane?

end House

end Housewright
