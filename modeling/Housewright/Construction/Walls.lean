import Housewright.Description.House
import Housewright.Geometry.Offset

/-!
# Outer walls

Walls stand on the elevation of their level and are as high as it.  They come in two
forms:

* a shell for each level, whose cross-section lies between the footprint moved outward
  and moved inward by half the wall thickness;
* a straight segment for each edge of a footprint, centred on the edge.
-/

namespace Housewright

/-- The walls of a level as one closed shell. -/
structure WallShell (α : Type) where
  id : String
  levelId : String
  outer : Ring α
  inner : Ring α
  base : α
  height : α

/-- A straight wall on one edge. -/
structure WallSegment (α : Type) where
  id : String
  levelId : String
  edgeIndex : Nat
  start : Point3 α
  finish : Point3 α
  height : α
  thickness : α
  outward : Vec α

variable {α : Type} [Scalar α]

/-- The area of the cross-section of a shell: that of the outer ring without that of the
inner ring, which does not count with fewer than three vertices. -/
def WallShell.area (s : WallShell α) : Computed α :=
  if s.outer.length = 1 ∨ s.outer.length = 2 then .error .openRing
  else
    let outer := Scalar.abs s.outer.signedArea
    .ok (if s.inner.length < 3 then outer else outer - Scalar.abs s.inner.signedArea)

/-- The shell of a level. -/
def Level.buildShell (wallThickness : α) (l : Level α) : Computed (WallShell α) := do
  let half := wallThickness / 2.0
  return {
    id := "wall-shell-" ++ l.id, levelId := l.id
    outer := ← l.footprint.outer.offsetInward (-half)
    inner := ← l.footprint.outer.offsetInward half
    base := l.elevation, height := l.height }

/-- The shells of a house, from level to level. -/
def House.buildShells (h : House α) : Computed (List (WallShell α)) :=
  h.levels.mapM (·.buildShell h.wallThickness)

namespace WallSegment

/-- From the start of a segment to its end, in the plan. -/
def along (s : WallSegment α) : Vec α := ⟨s.finish.x - s.start.x, s.finish.y - s.start.y⟩

/-- How long a segment is. -/
def length (s : WallSegment α) : α := s.along.length

/-- The eight corners of a segment: the start on its left and on its right, the end on its
left and on its right, below and then above.  A segment without length has none. -/
def box (s : WallSegment α) : Computed (List (Point3 α)) :=
  if s.length == 0.0 then .ok []
  else do
    let left ← s.along.left.divide s.length
    let half := s.thickness / 2.0
    let start : Point α := ⟨s.start.x, s.start.y⟩
    let finish : Point α := ⟨s.finish.x, s.finish.y⟩
    let foot := [start.shift left half, start.shift left (-half), finish.shift left half,
      finish.shift left (-half)]
    return foot.map (fun p => ⟨p.x, p.y, s.start.z⟩)
      ++ foot.map fun p => ⟨p.x, p.y, s.start.z + s.height⟩

end WallSegment

/-- The segment on the edge from `a` to `b`, unless the edge has no length.  Outside lies
on the right of a counter-clockwise ring. -/
def Level.buildSegment (wallThickness : α) (l : Level α) (edgeIndex : Nat) (a b : Point α) :
    Computed (Option (WallSegment α)) :=
  let along := Vec.between a b
  let sign : α := if l.footprint.outer.isCounterClockwise then 1.0 else -1.0
  if along.length == 0.0 then .ok none
  else do
    return some {
      id := "wall-" ++ l.id ++ "-" ++ toString edgeIndex, levelId := l.id, edgeIndex
      start := ⟨a.x, a.y, l.elevation⟩, finish := ⟨b.x, b.y, l.elevation⟩
      height := l.height, thickness := wallThickness
      outward := ← Vec.divide ⟨sign * along.y, -sign * along.x⟩ along.length }

/-- The segments of a level, from edge to edge. -/
def Level.buildSegments (wallThickness : α) (l : Level α) : Computed (List (WallSegment α)) := do
  if l.footprint.outer.length < 2 then return []
  let found ← l.footprint.outer.edges.zipIdx.mapM fun ((a, b), i) =>
    l.buildSegment wallThickness i a b
  return found.filterMap fun built => built

/-- The segments of a house, from level to level. -/
def House.buildSegments (h : House α) : Computed (List (WallSegment α)) := do
  return (← h.levels.mapM (·.buildSegments h.wallThickness)).flatten

end Housewright
