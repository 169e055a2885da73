import Housewright.Description.Roof

/-!
# The half-planes of a face region

`FaceRegion.resolve` turns a region into half-planes, in order: dividers and cuts are
resolved against the ridges of the roof.  The triangle that caps a ridge has no
half-planes, and neither has a region that refers to a ridge the roof does not have.

`MultiPlaneRoof.normalize` writes the dividers of ridge-side faces out, so that they
become half-planes of their own that still name their ridge.
-/

namespace Housewright

variable {α : Type} [Scalar α]

namespace Ridge

/-- From the start of the ridge to its end. -/
def direction (r : Ridge α) : Vec α := .between r.start r.finish

/-- The point at a parameter along the ridge, which is zero at its start and one at its
end. -/
def pointAt (r : Ridge α) (t : α) : Point α := r.start.shift r.direction t

/-- The direction divided by its length; a ridge without length keeps its direction. -/
def unitDirection (r : Ridge α) : Computed (Vec α) :=
  let length := r.direction.length
  r.direction.divide (if length == 0.0 then 1.0 else length)

/-- One side of the line across the ridge at a parameter.  Which side lies ahead is found
by probing just past the line. -/
def perpCut (r : Ridge α) (t : α) (keep : CutSide) : Computed (HalfPlane α) := do
  let u ← r.unitDirection
  let foot := r.pointAt t
  let a := foot.shift u.left (-Tolerance.referenceExtent)
  let b := foot.shift u.left Tolerance.referenceExtent
  let probe := foot.shift u Tolerance.cutProbe
  let ahead := if 0.0 ≤ sideOfLine probe a b then Side.left else Side.right
  return ⟨a, b, match keep with
    | .ahead => ahead
    | .behind => ahead.opposite⟩

/-- One side of the ridge's own line. -/
def divider (r : Ridge α) (keep : Side) : HalfPlane α := ⟨r.start, r.finish, keep⟩

end Ridge

/-- The half-plane of an item; none if it refers to an unknown ridge. -/
def RegionItem.resolve (roof : MultiPlaneRoof α) :
    RegionItem α → Computed (Option (HalfPlane α))
  | .explicit plane => .ok (some plane)
  | .materialized plane _ => .ok (some plane)
  | .divider ridgeId keep => .ok ((roof.ridge? ridgeId).map (·.divider keep))
  | .perpCut ridgeId t keep => (roof.ridge? ridgeId).mapM (·.perpCut t keep)

/-- The half-planes of all items; none if one of them refers to an unknown ridge. -/
def resolveItems (roof : MultiPlaneRoof α) :
    List (RegionItem α) → Computed (Option (List (HalfPlane α)))
  | [] => .ok (some [])
  | item :: rest => do
    match ← item.resolve roof with
    | none => return none
    | some plane => return (← resolveItems roof rest).map (plane :: ·)

/-- The half-planes of a region, in order. -/
def FaceRegion.resolve (roof : MultiPlaneRoof α) :
    FaceRegion α → Computed (Option (List (HalfPlane α)))
  | .halfPlanes planes => .ok (some planes)
  | .ridgeCap _ _ => .ok none
  | .compound items => resolveItems roof items

/-! ## Writing dividers out -/

/-- An item with its divider written out, if the roof has the ridge. -/
def RegionItem.writeOut (roof : MultiPlaneRoof α) : RegionItem α → RegionItem α
  | .divider ridgeId keep =>
    match roof.ridge? ridgeId with
    | some ridge => .materialized (ridge.divider keep) (some ridge.id)
    | none => .divider ridgeId keep
  | item => item

/-- A ridge-side face with the dividers of its compound region written out. -/
def RoofFace.writeOut (roof : MultiPlaneRoof α) (f : RoofFace α) : RoofFace α :=
  match f.kind, f.region with
  | .ridgeSide, .compound items => { f with region := .compound (items.map (·.writeOut roof)) }
  | _, _ => f

/-- The roof with the dividers of its ridge-side faces written out. -/
def MultiPlaneRoof.normalize (roof : MultiPlaneRoof α) : MultiPlaneRoof α :=
  { roof with faces := roof.faces.map (·.writeOut roof) }

end Housewright
