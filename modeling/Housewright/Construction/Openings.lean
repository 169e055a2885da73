import Housewright.Construction.Outward
import Housewright.Description.House

/-!
# Openings placed on their edges

A placed opening is a rectangle in the frame of its host edge: `u` runs along the edge
from its start, `v` up from the elevation of the level.  It also has its centre in space,
the direction of the edge, and the normal that points outside.

Openings whose level, edge or direction cannot be found are left out.
-/

namespace Housewright

/-- An opening on its host edge. -/
structure PlacedOpening (α : Type) where
  id : String
  kind : OpeningKind
  levelIndex : Nat
  edgeIndex : Nat
  uMin : α
  uMax : α
  vMin : α
  vMax : α
  center : Point3 α
  tangent : Vec α
  outward : Vec α
  style : Option (List (String × Json))

variable {α : Type} [Scalar α]

/-- How wide a placed opening is. -/
def PlacedOpening.width (o : PlacedOpening α) : α := o.uMax - o.uMin

/-- How high a placed opening is. -/
def PlacedOpening.height (o : PlacedOpening α) : α := o.vMax - o.vMin

/-- Where the opening starts along an edge of the given length. -/
def Opening.uMin (o : Opening α) (length : α) : α :=
  if o.edge.fromEnd then length - (o.offset + o.width) else o.offset

/-- The normal that points outside at an opening: the side that its edge reference
settles, or else what the footprint shows. -/
def Opening.outward (o : Opening α) (outer : Ring α) (a : Point α) (tangent : Vec α)
    (uMin uMax : α) : Computed (Vec α) :=
  match o.edge.outwardSide with
  | some .left => .ok tangent.left
  | some .right => .ok tangent.right
  | none => outer.outwardNormal a tangent uMin uMax Tolerance.outwardProbe

/-- Places an opening on an edge of the level with the given index. -/
def Opening.placeOn (o : Opening α) (levelIndex : Nat) (level : Level α) (edgeIndex : Nat) :
    Computed (Option (PlacedOpening α)) := do
  let (a, b) ← level.footprint.edge edgeIndex
  let along := Vec.between a b
  if along.length ≤ Tolerance.geometry then return none
  let tangent ← along.divide along.length
  let uMin := o.uMin along.length
  let uMax := uMin + o.width
  let vMin := o.sillHeight
  let vMax := o.sillHeight + o.height
  let middle := a.shift tangent ((uMin + uMax) / 2.0)
  return some
    { id := o.id, kind := o.kind, levelIndex, edgeIndex, uMin, uMax, vMin, vMax
      center := ⟨middle.x, middle.y, level.elevation + (vMin + vMax) / 2.0⟩
      tangent
      outward := ← o.outward level.footprint.outer a tangent uMin uMax
      style := o.style }

/-- The index of the edge that an opening names, if the ring has it. -/
def Opening.edgeIndex? (o : Opening α) (outer : Ring α) : Option Nat :=
  if 0 ≤ o.edge.edgeIndex ∧ o.edge.edgeIndex < outer.length then some o.edge.edgeIndex.toNat
  else none

/-- Places an opening of a house, on the first level of the id it names. -/
def House.placeOpening (h : House α) (o : Opening α) : Computed (Option (PlacedOpening α)) :=
  match h.levelIndex? o.levelId, h.level? o.levelId with
  | some levelIndex, some level =>
    match o.edgeIndex? level.footprint.outer with
    | some edgeIndex => o.placeOn levelIndex level edgeIndex
    | none => .ok none
  | _, _ => .ok none

/-- The openings of a house, placed on their edges. -/
def House.placeOpenings (h : House α) : Computed (List (PlacedOpening α)) := do
  return (← h.openings.mapM h.placeOpening).filterMap id

end Housewright
