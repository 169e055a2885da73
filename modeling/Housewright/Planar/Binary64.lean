import Housewright.Planar.Area
import Housewright.Planar.Delaunay
import Housewright.Scalar.Binary64

/-!
# Areas with floating-point vertices

The kernel that programs run on.  Everything is decided exactly, and only the points
where edges cross are rounded at the end.
-/

namespace Housewright

/-- How often the sides of the triangles of a ring are gone through. -/
def flipRounds : Nat := 200

/-- Fat triangles between the vertices of a ring that make up its area. -/
def Ring.fatTriangles (r : Ring Float) : Computed (List (Triangle Float)) := do
  let exact ← r.enclosing
  match exact.ears with
  | none => .error .untriangulable
  | some triangles =>
    return (fatten flipRounds triangles).map fun t => ⟨nearest t.a, nearest t.b, nearest t.c⟩

/-- The operations on areas with floating-point vertices. -/
def AreaKernel.binary64 : AreaKernel Float := ⟨Ring.repair, Ring.difference, Ring.fatTriangles⟩

end Housewright
