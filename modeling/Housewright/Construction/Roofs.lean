import Housewright.Construction.Plates
import Housewright.Description.House
import Housewright.Geometry.Offset
import Housewright.Inspection.Roofs

/-!
# Roofs

The heights of a roof count from its base level.  The outline of a roof is the footprint
of that level grown by the overhang, and repaired where it folds over itself.

* A flat roof is a slab on the walls, spared out where a taller level stands.
* A gable roof has two plates that fall from the ridge line to the eaves.
* A multi-ridge roof is split at the first ridge's `x` into a west and an east plate.
* A multi-plane roof is resolved to the half-planes of its faces, with its report.
-/

namespace Housewright

/-- What a face of a multi-plane roof covers. -/
inductive ResolvedRegion (α : Type) where
  | planes (planes : List (HalfPlane α))
  | cap (ridgeId : String) (cap : RidgeEnd)
  /-- The region refers to a ridge that the roof does not have. -/
  | unresolved

/-- A face of a multi-plane roof with its region resolved. -/
structure ResolvedFace (α : Type) where
  faceId : String
  kind : FaceKind
  ridgeId : Option String
  region : ResolvedRegion α

/-- A roof that was built. -/
inductive BuiltRoof (α : Type) where
  | flat (roofId : String) (pieces : List (AreaPiece α)) (bottom top : α)
  | gable (roofId : String) (mesh : Mesh α)
  | multiRidge (roofId : String) (splitX : α) (west east : Option (Mesh α))
  | multiPlane (roofId : String) (baseElevation : α) (report : RoofReport α)
      (faces : List (ResolvedFace α))

/-- The id of a built roof. -/
def BuiltRoof.roofId {α : Type} : BuiltRoof α → String
  | flat id _ _ _ => id
  | gable id _ => id
  | multiRidge id _ _ _ => id
  | multiPlane id _ _ _ => id

/-- A result that only a fault of the roof, or of the arithmetic, can prevent. -/
abbrev RoofResult (β : Type) := Except RoofError β

/-- A computation on coordinates as a step of building a roof. -/
def Computed.forRoof {β : Type} (c : Computed β) : RoofResult β := c.mapError .geometry

variable {α : Type} [Scalar α]

/-! ## The outline -/

/-- An unusable shape is the outline's fault; other failures stay what they are. -/
def outlineError (levelId : String) : GeometryError → RoofError
  | .untriangulable => .geometry .untriangulable
  | e => if e.concernsShape then .degenerateOutline levelId e else .geometry e

/-- The outline of a level grown by the overhang. -/
def Level.roofOutline (kernel : AreaKernel α) (l : Level α) (overhang : α) :
    RoofResult (Ring α) :=
  (l.footprint.outer.offsetInward (-overhang) >>= kernel.repair).mapError (outlineError l.id)

/-- The level a roof sits on. -/
def House.baseLevel (h : House α) (roof : Roof α) : RoofResult (Level α) :=
  match h.level? roof.baseLevelId with
  | some l => .ok l
  | none => .error (.baseLevelMissing roof.id roof.baseLevelId)

/-! ## Flat roofs -/

/-- The outer ring of the level that a flat roof spares out, if it names one there is. -/
def House.sparedOutline? (h : House α) (r : FlatRoof α) : Option (Ring α) := do
  let id ← r.subtractAboveLevelId
  if id.isEmpty then none
  else return (← h.level? id).footprint.outer

/-- A slab on the walls of the base level. -/
def House.buildFlatRoof (kernel : AreaKernel α) (h : House α) (r : FlatRoof α) :
    RoofResult (BuiltRoof α) := do
  let level ← h.baseLevel (.flat r)
  let outline ← level.roofOutline kernel r.overhang
  let pieces ← match h.sparedOutline? r with
    | none => pure [⟨outline, []⟩]
    | some above => (kernel.repair above >>= kernel.difference outline).forRoof
  return .flat r.id pieces level.wallTop (level.wallTop + r.thickness)

/-! ## Gable roofs -/

namespace RidgeLine

/-- From the start of a ridge line to its end. -/
def direction (r : RidgeLine α) : Vec α := .between r.start r.finish

end RidgeLine

/-- How far to the left of the line through `start` in the direction `u` a point lies. -/
def leftOf (u : Vec α) (start p : Point α) : α := u.x * (p.y - start.y) - u.y * (p.x - start.x)

/-- The slopes of a gable roof: the line of the ridge, how far the outline reaches on
either side of it, and the heights above zero. -/
structure GableSlopes (α : Type) where
  start : Point α
  along : Vec α
  reachLeft : α
  reachRight : α
  ridgeHeight : α
  drop : α

namespace GableSlopes

/-- How far to the left of the ridge line a point lies. -/
def distance (g : GableSlopes α) (p : Point α) : α := leftOf g.along g.start p

/-- The height over a point: the ridge's on its line, the eaves' at the farthest vertex on
the same side. -/
def heightAt (g : GableSlopes α) (p : Point α) : Computed α := do
  let d := g.distance p
  let reach := if 0.0 < d then g.reachLeft else g.reachRight
  if reach ≤ Tolerance.geometry then return g.ridgeHeight
  else return g.ridgeHeight - (← Scalar.divide (g.drop * Scalar.abs d) reach)

/-- Whether an edge runs along the ridge line. -/
def onLine (g : GableSlopes α) (p q : Point α) : Bool :=
  decide (Scalar.abs (g.distance p) ≤ Tolerance.geometry)
    && decide (Scalar.abs (g.distance q) ≤ Tolerance.geometry)

/-- One side of the ridge line. -/
def side (g : GableSlopes α) (keep : Side) : HalfPlane α :=
  ⟨g.start.shift g.along (-Tolerance.referenceExtent),
    g.start.shift g.along Tolerance.referenceExtent, keep⟩

end GableSlopes

/-- The greatest of some numbers above zero, zero if there are none. -/
def greatestPositive (xs : List α) : α :=
  match xs.filter fun x => 0.0 < x with
  | [] => 0.0
  | x :: rest => rest.foldl Scalar.greatest x

/-- The slopes of a gable roof over an outline. -/
def GableRoof.slopes (r : GableRoof α) (base : α) (outline : Ring α) :
    RoofResult (GableSlopes α) := do
  let length := r.ridge.direction.length
  if length ≤ Tolerance.geometry then throw (.zeroLengthRidge r.id)
  let along ← (r.ridge.direction.divide length).forRoof
  let distances := outline.map (leftOf along r.ridge.start)
  return {
    start := r.ridge.start, along
    reachLeft := greatestPositive distances
    reachRight := greatestPositive (distances.map (- ·))
    ridgeHeight := base + r.ridgeHeight
    drop := r.ridgeHeight - r.eaveHeight }

/-- The plate on one side of the ridge line, if there is any area on it. -/
def GableSlopes.buildSide (kernel : AreaKernel α) (g : GableSlopes α) (outline : Ring α)
    (thickness : α) (keep : Side) : Computed (Option (Mesh α)) := do
  let half ← outline.clip (g.side keep) Tolerance.geometry
  if 3 ≤ half.length ∧ Tolerance.geometry < Scalar.abs half.signedArea then
    return some (← buildPlate kernel half g.heightAt thickness g.onLine)
  else return none

/-- Two plates that fall from the ridge line. -/
def House.buildGableRoof (kernel : AreaKernel α) (h : House α) (r : GableRoof α) :
    RoofResult (BuiltRoof α) := do
  let level ← h.baseLevel (.gable r)
  let outline ← level.roofOutline kernel r.overhang
  let slopes ← r.slopes level.elevation outline
  let left ← (slopes.buildSide kernel outline r.thickness .left).forRoof
  let right ← (slopes.buildSide kernel outline r.thickness .right).forRoof
  return .gable r.id (.merge (left.toList ++ right.toList))

/-! ## Multi-ridge roofs -/

/-- One half of a roof that is split at `splitX`: it falls from the ridge to the eaves at
the farthest vertex. -/
structure SplitSlope (α : Type) where
  splitX : α
  reach : α
  ridgeHeight : α
  drop : α

/-- The height over a point. -/
def SplitSlope.heightAt (s : SplitSlope α) (p : Point α) : Computed α := do
  if s.reach ≤ Tolerance.geometry then return s.ridgeHeight
  else return s.ridgeHeight - s.drop * (← Scalar.divide (Scalar.abs (p.x - s.splitX)) s.reach)

/-- One side of the vertical line at `splitX`; on the left of it lie the greater `x`. -/
def splitSide (splitX : α) (keep : Side) : HalfPlane α :=
  ⟨⟨splitX, -Tolerance.referenceExtent⟩, ⟨splitX, Tolerance.referenceExtent⟩, keep⟩

/-- How far a ring reaches from the vertical line at `splitX`. -/
def Ring.reachFrom (r : Ring α) (splitX : α) : α :=
  match r.map fun p => Scalar.abs (p.x - splitX) with
  | [] => 0.0
  | d :: rest => rest.foldl Scalar.greatest d

/-- The plate on one side of the split, if there is any area on it. -/
def MultiRidgeRoof.buildHalf (kernel : AreaKernel α) (r : MultiRidgeRoof α) (ridge : Ridge α)
    (base : α) (outline : Ring α) (keep : Side) : Computed (Option (Mesh α)) := do
  let splitX := ridge.start.x
  let half ← outline.clip (splitSide splitX keep) Tolerance.geometry
  if half.length < 3 ∨ Scalar.abs half.signedArea ≤ Tolerance.geometry then return none
  let slope : SplitSlope α :=
    ⟨splitX, half.reachFrom splitX, base + ridge.height, ridge.height - r.eaveHeight⟩
  return some (← buildPlate kernel half slope.heightAt r.thickness fun _ _ => false)

/-- The two halves of a roof that is split at its first ridge. -/
def House.buildMultiRidgeRoof (kernel : AreaKernel α) (h : House α) (r : MultiRidgeRoof α) :
    RoofResult (BuiltRoof α) := do
  let level ← h.baseLevel (.multiRidge r)
  match r.ridges with
  | [] => throw (.noRidges r.id)
  | ridge :: _ =>
    let outline ← level.roofOutline kernel r.overhang
    let west ← (r.buildHalf kernel ridge level.elevation outline .right).forRoof
    let east ← (r.buildHalf kernel ridge level.elevation outline .left).forRoof
    return .multiRidge r.id ridge.start.x west east

/-! ## Multi-plane roofs -/

/-- A face with its region resolved.  A cap face belongs to the ridge it caps unless it
names another one. -/
def RoofFace.resolve (roof : MultiPlaneRoof α) (f : RoofFace α) : Computed (ResolvedFace α) := do
  match f.region with
  | .ridgeCap ridgeId cap =>
    let named := f.ridgeId.filter fun id => !id.isEmpty
    return ⟨f.id, f.kind, some (named.getD ridgeId), .cap ridgeId cap⟩
  | region =>
    match ← region.resolve roof with
    | some planes => return ⟨f.id, f.kind, f.ridgeId, .planes planes⟩
    | none => return ⟨f.id, f.kind, f.ridgeId, .unresolved⟩

/-- The faces of a roof, resolved after its dividers were written out, with its report. -/
def House.buildMultiPlaneRoof (h : House α) (r : MultiPlaneRoof α) :
    RoofResult (BuiltRoof α) := do
  let level ← h.baseLevel (.multiPlane r)
  let report ← r.normalize.report.forRoof
  let faces ← (r.normalize.faces.mapM (RoofFace.resolve r.normalize)).forRoof
  return .multiPlane r.id level.elevation report faces

/-! ## All roofs -/

/-- Builds a roof of any kind. -/
def House.buildRoof (kernel : AreaKernel α) (h : House α) : Roof α → RoofResult (BuiltRoof α)
  | .flat r => h.buildFlatRoof kernel r
  | .gable r => h.buildGableRoof kernel r
  | .multiRidge r => h.buildMultiRidgeRoof kernel r
  | .multiPlane r => h.buildMultiPlaneRoof r

/-- Builds every roof of a house, in order; the first fault stops the work. -/
def House.buildRoofs (kernel : AreaKernel α) (h : House α) : RoofResult (List (BuiltRoof α)) :=
  h.roofs.mapM (h.buildRoof kernel)

end Housewright
