import Housewright.Geometry.Kernel

/-!
# Roof plates

A plate is a solid of constant vertical thickness over a ring: a top surface at given
heights, the same surface again below it, and side walls.  Its mesh has two vertices for
every vertex of the ring, the top ones first.

`plateFaces` are the triangles of such a mesh by their indices, from a triangulation of
the ring and the edges that get a wall; `buildPlate` adds the vertices.
-/

namespace Housewright

/-- A triangle mesh in space. -/
structure Mesh (α : Type) where
  vertices : List (Point3 α)
  faces : List IndexTriple

namespace IndexTriple

/-- All indices moved up by `n`. -/
def shift (n : Nat) (t : IndexTriple) : IndexTriple := ⟨t.i + n, t.j + n, t.k + n⟩

/-- The triangle seen from the other side. -/
def turned (t : IndexTriple) : IndexTriple := ⟨t.i, t.k, t.j⟩

end IndexTriple

namespace Mesh

variable {α : Type}

/-- The mesh with nothing in it. -/
def empty : Mesh α := ⟨[], []⟩

/-- Two meshes side by side. -/
def append (m m' : Mesh α) : Mesh α :=
  ⟨m.vertices ++ m'.vertices, m.faces ++ m'.faces.map (.shift m.vertices.length)⟩

/-- Several meshes side by side. -/
def merge (meshes : List (Mesh α)) : Mesh α := meshes.foldl append empty

variable [Scalar α]

/-- The number that wins a comparison against all others; one that is none wins always. -/
def extreme (wins : α → α → Bool) : List α → α
  | [] => 0.0
  | z :: rest => rest.foldl
      (fun best z => if Scalar.isNaN best then best else if Scalar.isNaN z || wins z best then z
        else best) z

/-- The greatest height, zero without vertices. -/
def maxZ (m : Mesh α) : α := extreme (fun z best => decide (best < z)) (m.vertices.map (·.z))

/-- The least height, zero without vertices. -/
def minZ (m : Mesh α) : α := extreme (fun z best => decide (z < best)) (m.vertices.map (·.z))

/-- The corners of the faces. -/
def triangles (m : Mesh α) : List (Point3 α × Point3 α × Point3 α) :=
  m.faces.filterMap fun t => do
    return (← m.vertices[t.i]?, ← m.vertices[t.j]?, ← m.vertices[t.k]?)

/-- The area that the faces seen from above cover in the plan. -/
def planArea (m : Mesh α) : α :=
  m.triangles.foldl
    (fun area (a, b, c) =>
      let s := Ring.signedArea [⟨a.x, a.y⟩, ⟨b.x, b.y⟩, ⟨c.x, c.y⟩]
      if 0.0 < s then area + s else area) 0.0

/-- The volume that the faces enclose. -/
def volume (m : Mesh α) : α :=
  m.triangles.foldl
    (fun volume (a, b, c) =>
      volume + (a.x * (b.y * c.z - b.z * c.y) + a.y * (b.z * c.x - b.x * c.z)
        + a.z * (b.x * c.y - b.y * c.x)) / 6.0) 0.0

end Mesh

/-- The two triangles of the side wall below the edge from vertex `i` to vertex `j` of a
ring of `n`. -/
def wallFaces (n i j : Nat) : List IndexTriple := [⟨i, i + n, j + n⟩, ⟨i, j + n, j⟩]

/-- The triangles of a plate over a ring of `n` vertices.  `hasWall` tells for each edge,
by its first vertex, whether there is a wall below it. -/
def plateFaces (n : Nat) (triangles : List IndexTriple) (hasWall : Nat → Bool) :
    List IndexTriple :=
  triangles ++ triangles.map (fun t => t.turned.shift n)
    ++ (List.range n).flatMap fun i => if hasWall i then wallFaces n i ((i + 1) % n) else []

variable {α : Type} [Scalar α]

/-- The ring run counter-clockwise. -/
def Ring.counterClockwise (r : Ring α) : Ring α := if r.signedArea < 0.0 then r.reverse else r

/-- Whether the edge from a vertex on is open, so that no wall stands below it. -/
def Ring.edgeIsOpen (r : Ring α) (isOpen : Point α → Point α → Bool) (i : Nat) : Bool :=
  match r.edges[i]? with
  | some (p, q) => isOpen p q
  | none => false

/-- The plate over a ring, with its top at the given heights and without walls below open
edges. -/
def buildPlate (kernel : AreaKernel α) (ring : Ring α) (heightAt : Point α → Computed α)
    (thickness : α) (isOpen : Point α → Point α → Bool) : Computed (Mesh α) := do
  let ring := ring.counterClockwise
  let top ← ring.mapM fun p => do return (⟨p.x, p.y, ← heightAt p⟩ : Point3 α)
  let bottom := top.map fun p => { p with z := p.z - thickness }
  let triangles ← ring.triangulate kernel
  return ⟨top ++ bottom, plateFaces ring.length triangles fun i => !ring.edgeIsOpen isOpen i⟩

end Housewright
