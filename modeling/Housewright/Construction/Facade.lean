import Housewright.Construction.Openings

/-!
# Facade panels

Every edge of a footprint gets a thin panel with a hole for each opening placed on it.
The panel's own frame has its origin in the middle of the panel, with `x` along the edge
and `y` up; outline and holes are boxes in that frame.  Very short edges get no panel and
very small openings no hole.
-/

namespace Housewright

/-- The panel on an edge. -/
structure FacadePanel (α : Type) where
  id : String
  levelIndex : Nat
  edgeIndex : Nat
  width : α
  height : α
  outline : Box α
  center : Point3 α
  outward : Vec α
  thickness : α
  holes : List (Box α)
  openingIds : List String

variable {α : Type} [Scalar α]

/-- The area of a box. -/
def Box.area (b : Box α) : α := (b.maxX - b.minX) * (b.maxY - b.minY)

namespace FacadePanel

/-- The rotation that takes the `x` axis to the outward direction. -/
def yaw (p : FacadePanel α) : α := Scalar.atan2 p.outward.y p.outward.x

/-- The area of the panel without that of its holes. -/
def solidArea (p : FacadePanel α) : α :=
  p.width * p.height - p.holes.foldl (fun area b => area + b.area) 0.0

end FacadePanel

/-- The hole of an opening in a panel of the given size, unless the opening is too small. -/
def PlacedOpening.hole? (o : PlacedOpening α) (width height : α) : Option (Box α) :=
  let minX := o.uMin - width / 2.0
  let maxX := o.uMax - width / 2.0
  let minY := o.vMin - height / 2.0
  let maxY := o.vMax - height / 2.0
  if maxX - minX ≤ Tolerance.holeSize ∨ maxY - minY ≤ Tolerance.holeSize then none
  else some ⟨minX, minY, maxX, maxY⟩

/-- The panel on the edge from `a` to `b` with the openings placed on it, unless the edge
is too short.  The first opening tells which side is outside. -/
def Level.buildPanel (thickness : α) (levelIndex : Nat) (l : Level α) (edgeIndex : Nat)
    (a b : Point α) (openings : List (PlacedOpening α)) : Computed (Option (FacadePanel α)) := do
  let along := Vec.between a b
  let width := along.length
  if width < Tolerance.holeSize then return none
  let tangent ← along.divide width
  let outward ← match openings with
    | first :: _ => pure first.outward
    | [] => l.footprint.outer.outwardNormal a tangent 0.0 width Tolerance.outwardProbe
  return some {
    id := "wall_L" ++ toString levelIndex ++ "_E" ++ toString edgeIndex
    levelIndex, edgeIndex, width, height := l.height
    outline := ⟨-(width / 2.0), -(l.height / 2.0), width / 2.0, l.height / 2.0⟩
    center := ⟨(a.x + b.x) / 2.0, (a.y + b.y) / 2.0, l.elevation + l.height / 2.0⟩
    outward, thickness
    holes := openings.filterMap (·.hole? width l.height)
    openingIds := openings.map (·.id) }

/-- The panels of the level with the given index, from edge to edge. -/
def Level.buildPanels (thickness : α) (openings : List (PlacedOpening α)) (levelIndex : Nat)
    (l : Level α) : Computed (List (FacadePanel α)) := do
  if l.footprint.outer.length < 2 then return []
  let found ← l.footprint.outer.edges.zipIdx.mapM fun ((a, b), i) =>
    l.buildPanel thickness levelIndex i a b
      (openings.filter fun o => o.levelIndex = levelIndex && o.edgeIndex = i)
  return found.filterMap fun built => built

/-- The panels of a house with the given openings in them, from level to level. -/
def House.buildPanels (h : House α) (openings : List (PlacedOpening α)) (thickness : α) :
    Computed (List (FacadePanel α)) := do
  return (← h.levels.zipIdx.mapM fun (l, i) => l.buildPanels thickness openings i).flatten

end Housewright
