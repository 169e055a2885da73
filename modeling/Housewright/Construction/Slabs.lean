import Housewright.Description.House
import Housewright.Geometry.Offset

/-!
# Floor slabs

The slab of a level is the footprint, moved inward by the slab's inset, between its top
and its underside; holes stay as they are.  A level without a slab of positive thickness
has none.
-/

namespace Housewright

/-- The slab of a level. -/
structure Slab (α : Type) where
  id : String
  levelId : String
  levelIndex : Nat
  outline : Ring α
  holes : List (Ring α)
  top : α
  bottom : α
  inset : α

variable {α : Type} [Scalar α]

/-- How thick a slab is. -/
def Slab.thickness (s : Slab α) : α := s.top - s.bottom

/-- The slab of the level with the given index, if it has one. -/
def Level.buildSlab (convention : ElevationConvention) (levelIndex : Nat) (l : Level α) :
    Computed (Option (Slab α)) :=
  match l.slab with
  | none => .ok none
  | some s =>
    if 0.0 < s.thickness then do
      return some
        { id := "slab-" ++ l.id, levelId := l.id, levelIndex
          outline := ← l.footprint.outer.offsetInward s.inset
          holes := l.footprint.holes.filter (!·.isEmpty)
          top := convention.slabTop l.elevation s.thickness
          bottom := convention.slabBottom l.elevation s.thickness
          inset := s.inset }
    else .ok none

/-- The slabs of a house, from level to level. -/
def House.buildSlabs (h : House α) : Computed (List (Slab α)) := do
  return (← h.levels.zipIdx.mapM fun (l, i) =>
    l.buildSlab h.elevationConvention i).filterMap id

end Housewright
