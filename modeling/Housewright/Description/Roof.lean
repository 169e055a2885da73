import Housewright.Geometry.HalfPlane

/-!
# Roofs as described

Four kinds of roof sit on a level: a flat slab, a gable around one ridge, a roof that is
split through its first ridge, and a multi-plane roof whose faces are declared one by
one.  Heights are relative to the elevation of the level.

A face of a multi-plane roof covers a region of the plan: some half-planes, the triangle
that caps one end of a ridge, or a compound of half-planes and of items that still refer
to a ridge.  A compound tells a half-plane written by an author from the divider of a
ridge that has been written out, so that the latter can follow its ridge.
-/

namespace Housewright

/-- The ridge line of a gable roof. -/
structure RidgeLine (α : Type) where
  start : Point α
  finish : Point α

/-- A ridge of a multi-ridge or multi-plane roof; `height` is above the base level's
elevation. -/
structure Ridge (α : Type) where
  id : String
  start : Point α
  finish : Point α
  height : α
  hipStart : Bool
  hipFinish : Bool

/-- One end of a ridge. -/
inductive RidgeEnd where
  | start
  | finish
  deriving DecidableEq, Repr

/-- The two sides of a cut across a ridge: where the ridge points, and the other one. -/
inductive CutSide where
  | ahead
  | behind
  deriving DecidableEq, Repr

/-- A point of the plan with a height. -/
structure PlanePoint (α : Type) where
  x : α
  y : α
  h : α

/-- An item of a compound region. -/
inductive RegionItem (α : Type) where
  /-- A half-plane that the author wrote. -/
  | explicit (plane : HalfPlane α)
  /-- The divider of a ridge, written out; the ridge is unknown in older data. -/
  | materialized (plane : HalfPlane α) (ridgeId : Option String)
  /-- One side of a ridge's own line. -/
  | divider (ridgeId : String) (keep : Side)
  /-- One side of the line across a ridge at the parameter `t`. -/
  | perpCut (ridgeId : String) (t : α) (keep : CutSide)

/-- The region of the plan that a face covers. -/
inductive FaceRegion (α : Type) where
  | halfPlanes (planes : List (HalfPlane α))
  | ridgeCap (ridgeId : String) (cap : RidgeEnd)
  | compound (items : List (RegionItem α))

/-- What a face of a multi-plane roof is. -/
inductive FaceKind where
  | ridgeSide
  | hipCap
  deriving DecidableEq, Repr

/-- A face of a multi-plane roof. -/
structure RoofFace (α : Type) where
  id : String
  kind : FaceKind
  ridgeId : Option String
  ridgeT0 : Option α
  ridgeT1 : Option α
  side : Option Side
  capEnd : Option RidgeEnd
  p1 : Option (PlanePoint α)
  p2 : Option (PlanePoint α)
  p3 : Option (PlanePoint α)
  region : FaceRegion α

/-- A flat slab on top of a level, which may spare the outline of a taller level. -/
structure FlatRoof (α : Type) where
  id : String
  baseLevelId : String
  subtractAboveLevelId : Option String
  thickness : α
  overhang : α

/-- Two slopes that fall from one ridge line. -/
structure GableRoof (α : Type) where
  id : String
  baseLevelId : String
  eaveHeight : α
  ridgeHeight : α
  ridge : RidgeLine α
  overhang : α
  thickness : α

/-- A roof split vertically through its first ridge. -/
structure MultiRidgeRoof (α : Type) where
  id : String
  baseLevelId : String
  eaveHeight : α
  thickness : α
  overhang : α
  ridges : List (Ridge α)

/-- A roof of declared faces around several ridges. -/
structure MultiPlaneRoof (α : Type) where
  id : String
  baseLevelId : String
  eaveHeight : α
  thickness : α
  overhang : α
  ridges : List (Ridge α)
  faces : List (RoofFace α)

/-- A roof of any kind. -/
inductive Roof (α : Type) where
  | flat (roof : FlatRoof α)
  | gable (roof : GableRoof α)
  | multiRidge (roof : MultiRidgeRoof α)
  | multiPlane (roof : MultiPlaneRoof α)

namespace Roof

variable {α : Type}

/-- The roof's own id. -/
def id : Roof α → String
  | .flat r => r.id
  | .gable r => r.id
  | .multiRidge r => r.id
  | .multiPlane r => r.id

/-- The id of the level the roof sits on. -/
def baseLevelId : Roof α → String
  | .flat r => r.baseLevelId
  | .gable r => r.baseLevelId
  | .multiRidge r => r.baseLevelId
  | .multiPlane r => r.baseLevelId

/-- The multi-plane roof, if it is one. -/
def multiPlane? : Roof α → Option (MultiPlaneRoof α)
  | .multiPlane r => some r
  | _ => none

end Roof

/-- The length of a ridge. -/
def Ridge.length {α : Type} [Scalar α] (r : Ridge α) : Computed α := r.start.distance r.finish

namespace MultiPlaneRoof

variable {α : Type}

/-- The first ridge with the given id. -/
def ridge? (r : MultiPlaneRoof α) (id : String) : Option (Ridge α) :=
  r.ridges.find? (·.id == id)

/-- The first face with the given id. -/
def face? (r : MultiPlaneRoof α) (id : String) : Option (RoofFace α) :=
  r.faces.find? (·.id == id)

end MultiPlaneRoof

end Housewright
