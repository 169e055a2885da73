import Housewright.Description.Words
import Housewright.Json.Writer

/-!
# Writing house files

One encoder for every described thing, beside the decoder of the same name.  Every field
is written under its camel-case name, with its default if it was never given and `null`
if it is unset, and tagged things carry their tag.  `House.save` is the text of a house
file, in which numbers that are not finite have become `null`.
-/

namespace Housewright

open Json

/-- A point. -/
def Point.encode (p : Point Float) : Json := .obj [("x", .num p.x), ("y", .num p.y)]

/-- A plan point with a height. -/
def PlanePoint.encode (p : PlanePoint Float) : Json :=
  .obj [("x", .num p.x), ("y", .num p.y), ("h", .num p.h)]

/-- The members of a half-plane. -/
def HalfPlane.members (h : HalfPlane Float) : List (String × Json) :=
  [("a", h.a.encode), ("b", h.b.encode), ("keep", .str h.keep.word)]

/-- A half-plane. -/
def HalfPlane.encode (h : HalfPlane Float) : Json := .obj h.members

/-- A ridge line. -/
def RidgeLine.encode (r : RidgeLine Float) : Json :=
  .obj [("start", r.start.encode), ("end", r.finish.encode)]

/-- A ridge. -/
def Ridge.encode (r : Ridge Float) : Json :=
  .obj [("id", .str r.id), ("start", r.start.encode), ("end", r.finish.encode),
    ("height", .num r.height), ("hipStart", .bool r.hipStart), ("hipEnd", .bool r.hipFinish)]

/-- The members of a region item. -/
def RegionItem.members : RegionItem Float → List (String × Json)
  | .explicit h => h.members
  | .materialized h ridgeId => h.members ++ [("ridgeId", ofOption .str ridgeId)]
  | .divider ridgeId keep => [("ridgeId", .str ridgeId), ("keep", .str keep.word)]
  | .perpCut ridgeId t keep =>
    [("ridgeId", .str ridgeId), ("t", .num t), ("keep", .str keep.word)]

/-- A region item. -/
def RegionItem.encode (i : RegionItem Float) : Json := .obj (("type", .str i.tag) :: i.members)

/-- The members of a face region. -/
def FaceRegion.members : FaceRegion Float → List (String × Json)
  | .halfPlanes planes => [("planes", ofList HalfPlane.encode planes)]
  | .ridgeCap ridgeId cap => [("ridgeId", .str ridgeId), ("end", .str cap.word)]
  | .compound items => [("items", ofList RegionItem.encode items)]

/-- A face region. -/
def FaceRegion.encode (r : FaceRegion Float) : Json := .obj (("type", .str r.tag) :: r.members)

/-- A roof face. -/
def RoofFace.encode (f : RoofFace Float) : Json :=
  .obj [("id", .str f.id), ("kind", .str f.kind.word), ("ridgeId", ofOption .str f.ridgeId),
    ("ridgeT0", ofOption .num f.ridgeT0), ("ridgeT1", ofOption .num f.ridgeT1),
    ("side", ofOption (.str ∘ Side.word) f.side),
    ("capEnd", ofOption (.str ∘ RidgeEnd.word) f.capEnd),
    ("p1", ofOption PlanePoint.encode f.p1), ("p2", ofOption PlanePoint.encode f.p2),
    ("p3", ofOption PlanePoint.encode f.p3), ("region", f.region.encode)]

/-- The members of a roof. -/
def Roof.members : Roof Float → List (String × Json)
  | .flat r =>
    [("id", .str r.id), ("baseLevelId", .str r.baseLevelId),
      ("subtractAboveLevelId", ofOption .str r.subtractAboveLevelId),
      ("thickness", .num r.thickness), ("overhang", .num r.overhang)]
  | .gable r =>
    [("id", .str r.id), ("baseLevelId", .str r.baseLevelId), ("eaveHeight", .num r.eaveHeight),
      ("ridgeHeight", .num r.ridgeHeight), ("ridge", r.ridge.encode),
      ("overhang", .num r.overhang), ("thickness", .num r.thickness)]
  | .multiRidge r =>
    [("id", .str r.id), ("baseLevelId", .str r.baseLevelId), ("eaveHeight", .num r.eaveHeight),
      ("thickness", .num r.thickness), ("overhang", .num r.overhang),
      ("ridgeSegments", ofList Ridge.encode r.ridges)]
  | .multiPlane r =>
    [("id", .str r.id), ("baseLevelId", .str r.baseLevelId), ("eaveHeight", .num r.eaveHeight),
      ("thickness", .num r.thickness), ("overhang", .num r.overhang),
      ("ridgeSegments", ofList Ridge.encode r.ridges), ("faces", ofList RoofFace.encode r.faces)]

/-- A roof. -/
def Roof.encode (r : Roof Float) : Json := .obj (("type", .str r.tag) :: r.members)

/-- A ring. -/
def Ring.encode (r : Ring Float) : Json := ofList Point.encode r

/-- A footprint. -/
def Footprint.encode (f : Footprint Float) : Json :=
  .obj [("outer", Ring.encode f.outer), ("holes", ofList Ring.encode f.holes)]

/-- A slab. -/
def SlabSpec.encode (s : SlabSpec Float) : Json :=
  .obj [("thickness", .num s.thickness), ("inset", .num s.inset)]

/-- A level. -/
def Level.encode (l : Level Float) : Json :=
  .obj [("id", .str l.id), ("elevation", .num l.elevation), ("height", .num l.height),
    ("footprint", l.footprint.encode), ("slab", ofOption SlabSpec.encode l.slab)]

/-- An edge reference. -/
def EdgeRef.encode (e : EdgeRef) : Json :=
  .obj [("edgeIndex", .int e.edgeIndex), ("fromEnd", .bool e.fromEnd),
    ("outwardSide", ofOption (.str ∘ Side.word) e.outwardSide)]

/-- An opening. -/
def Opening.encode (o : Opening Float) : Json :=
  .obj [("id", .str o.id), ("kind", .str o.kind.word), ("levelId", .str o.levelId),
    ("edge", o.edge.encode), ("offset", .num o.offset), ("width", .num o.width),
    ("height", .num o.height), ("sillHeight", .num o.sillHeight),
    ("style", ofOption .obj o.style)]

/-- A house. -/
def House.encode (h : House Float) : Json :=
  .obj [("name", .str h.name), ("wallThickness", .num h.wallThickness),
    ("elevationConvention", .str h.elevationConvention.word),
    ("allowGroundSupport", .bool h.allowGroundSupport),
    ("supportGapLevelIds", ofList .str h.supportGapLevelIds),
    ("levels", ofList Level.encode h.levels), ("roofs", ofList Roof.encode h.roofs),
    ("openings", ofList Opening.encode h.openings)]

/-- The text of the house's file. -/
def House.save (h : House Float) : String := Json.render .page h.encode.finiteOnly

end Housewright
