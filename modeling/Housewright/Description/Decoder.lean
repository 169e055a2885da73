import Housewright.Description.Words
import Housewright.Json.Fields
import Housewright.Json.Reader
import Housewright.Scalar.Binary64

/-!
# Reading house files

One decoder for every described thing, each listing its fields in the order in which
complaints about them are made.  `House.decode` decodes a whole house, `House.load` a
text, and `MultiPlaneRoof.decode` a roof given by itself.

A region item without a tag is a divider that was written out.
-/

namespace Housewright

open Json

/-- A point. -/
def Point.decode : Decoder (Point Float) := thing fun o =>
  Point.mk <$> required o "x" number <*> required o "y" number

/-- A plan point with a height. -/
def PlanePoint.decode : Decoder (PlanePoint Float) := thing fun o =>
  PlanePoint.mk <$> required o "x" number <*> required o "y" number <*> required o "h" number

/-- The fields of a half-plane. -/
def HalfPlane.decodeFields (o : List (String × Json)) : Decoded (HalfPlane Float) :=
  HalfPlane.mk <$> required o "a" Point.decode <*> required o "b" Point.decode
    <*> required o "keep" (word Side.words)

/-- A half-plane. -/
def HalfPlane.decode : Decoder (HalfPlane Float) := thing HalfPlane.decodeFields

/-- A ridge line. -/
def RidgeLine.decode : Decoder (RidgeLine Float) := thing fun o =>
  RidgeLine.mk <$> required o "start" Point.decode <*> required o "end" Point.decode

/-- A ridge. -/
def Ridge.decode : Decoder (Ridge Float) := thing fun o =>
  Ridge.mk <$> required o "id" string <*> required o "start" Point.decode
    <*> required o "end" Point.decode <*> required o "height" number
    <*> withDefault o "hipStart" false boolean <*> withDefault o "hipEnd" false boolean

/-- The variants of region items. -/
def RegionItem.variants : List (Variant (RegionItem Float)) :=
  [⟨"explicit", fun o => RegionItem.explicit <$> HalfPlane.decodeFields o⟩,
    ⟨"materializedDivider", fun o =>
      RegionItem.materialized <$> HalfPlane.decodeFields o <*> maybe o "ridgeId" string⟩,
    ⟨"ridgeDivider", fun o =>
      RegionItem.divider <$> required o "ridgeId" string <*> required o "keep" (word Side.words)⟩,
    ⟨"ridgePerpCut", fun o =>
      RegionItem.perpCut <$> required o "ridgeId" string <*> required o "t" number
        <*> required o "keep" (word CutSide.words)⟩]

/-- The rule that finds the tag of a region item. -/
def RegionItem.tagRule : Discriminator := .rule "_region_item_tag"

/-- A region item; without a tag it is a divider that was written out. -/
def RegionItem.decode : Decoder (RegionItem Float)
  | .obj o =>
    match member? "type" o with
    | none => selectVariant tagRule variants (.str "materializedDivider") o
    | some .null => .refuse (.tagNotFound tagRule)
    | some tag => selectVariant tagRule variants tag o
  | _ => .refuse (.tagNotFound tagRule)

/-- The variants of face regions. -/
def FaceRegion.variants : List (Variant (FaceRegion Float)) :=
  [⟨"halfPlanes", fun o =>
      FaceRegion.halfPlanes <$> required o "planes" (list HalfPlane.decode)⟩,
    ⟨"ridgeCapTriangle", fun o =>
      FaceRegion.ridgeCap <$> required o "ridgeId" string
        <*> required o "end" (word RidgeEnd.words)⟩,
    ⟨"compound", fun o =>
      FaceRegion.compound <$> required o "items" (list RegionItem.decode)⟩]

/-- A face region. -/
def FaceRegion.decode : Decoder (FaceRegion Float) := tagged variants

/-- A roof face. -/
def RoofFace.decode : Decoder (RoofFace Float) := thing fun o =>
  RoofFace.mk <$> required o "id" string <*> required o "kind" (word FaceKind.words)
    <*> maybe o "ridgeId" string <*> maybe o "ridgeT0" number <*> maybe o "ridgeT1" number
    <*> maybe o "side" (word Side.words) <*> maybe o "capEnd" (word RidgeEnd.words)
    <*> maybe o "p1" PlanePoint.decode <*> maybe o "p2" PlanePoint.decode
    <*> maybe o "p3" PlanePoint.decode <*> required o "region" FaceRegion.decode

/-- The fields of a flat roof. -/
def FlatRoof.decodeFields (o : List (String × Json)) : Decoded (FlatRoof Float) :=
  FlatRoof.mk <$> required o "id" string <*> required o "baseLevelId" string
    <*> maybe o "subtractAboveLevelId" string
    <*> withDefault o "thickness" Tolerance.roofThickness number
    <*> withDefault o "overhang" 0.0 number

/-- The fields of a gable roof. -/
def GableRoof.decodeFields (o : List (String × Json)) : Decoded (GableRoof Float) :=
  GableRoof.mk <$> required o "id" string <*> required o "baseLevelId" string
    <*> required o "eaveHeight" number <*> required o "ridgeHeight" number
    <*> required o "ridge" RidgeLine.decode <*> withDefault o "overhang" 0.0 number
    <*> withDefault o "thickness" Tolerance.roofThickness number

/-- The fields of a roof that is split through its first ridge. -/
def MultiRidgeRoof.decodeFields (o : List (String × Json)) : Decoded (MultiRidgeRoof Float) :=
  MultiRidgeRoof.mk <$> required o "id" string <*> required o "baseLevelId" string
    <*> required o "eaveHeight" number <*> withDefault o "thickness" Tolerance.roofThickness number
    <*> withDefault o "overhang" 0.0 number <*> required o "ridgeSegments" (list Ridge.decode)

/-- The fields of a multi-plane roof. -/
def MultiPlaneRoof.decodeFields (o : List (String × Json)) : Decoded (MultiPlaneRoof Float) :=
  MultiPlaneRoof.mk <$> required o "id" string <*> required o "baseLevelId" string
    <*> withDefault o "eaveHeight" 0.0 number
    <*> withDefault o "thickness" Tolerance.roofThickness number
    <*> withDefault o "overhang" 0.0 number <*> withDefault o "ridgeSegments" [] (list Ridge.decode)
    <*> withDefault o "faces" [] (list RoofFace.decode)

/-- A multi-plane roof given by itself; its tag may be left out. -/
def MultiPlaneRoof.decode : Decoder (MultiPlaneRoof Float) := thing fun o =>
  (fun _ r => r) <$> withDefault o "type" () (word [("multi-plane", ())])
    <*> MultiPlaneRoof.decodeFields o

/-- The variants of roofs. -/
def Roof.variants : List (Variant (Roof Float)) :=
  [⟨"flat", fun o => Roof.flat <$> FlatRoof.decodeFields o⟩,
    ⟨"gable", fun o => Roof.gable <$> GableRoof.decodeFields o⟩,
    ⟨"multi-ridge", fun o => Roof.multiRidge <$> MultiRidgeRoof.decodeFields o⟩,
    ⟨"multi-plane", fun o => Roof.multiPlane <$> MultiPlaneRoof.decodeFields o⟩]

/-- A roof. -/
def Roof.decode : Decoder (Roof Float) := tagged variants

/-- A footprint. -/
def Footprint.decode : Decoder (Footprint Float) := thing fun o =>
  Footprint.mk <$> required o "outer" (list Point.decode)
    <*> withDefault o "holes" [] (list (list Point.decode))

/-- A slab. -/
def SlabSpec.decode : Decoder (SlabSpec Float) := thing fun o =>
  SlabSpec.mk <$> required o "thickness" number <*> withDefault o "inset" 0.0 number

/-- A level. -/
def Level.decode : Decoder (Level Float) := thing fun o =>
  Level.mk <$> required o "id" string <*> required o "elevation" number
    <*> required o "height" number <*> required o "footprint" Footprint.decode
    <*> maybe o "slab" SlabSpec.decode

/-- An edge reference. -/
def EdgeRef.decode : Decoder EdgeRef := thing fun o =>
  EdgeRef.mk <$> required o "edgeIndex" integer <*> withDefault o "fromEnd" false boolean
    <*> maybe o "outwardSide" (word Side.words)

/-- An opening. -/
def Opening.decode : Decoder (Opening Float) := thing fun o =>
  Opening.mk <$> required o "id" string
    <*> withDefault o "kind" .window (namedKind OpeningKind.words)
    <*> required o "levelId" string <*> required o "edge" EdgeRef.decode
    <*> required o "offset" number <*> required o "width" number <*> required o "height" number
    <*> withDefault o "sillHeight" 0.0 number <*> maybe o "style" anyObject

/-- A house. -/
def House.decode : Decoder (House Float) := thing fun o =>
  House.mk <$> withDefault o "name" "Untitled House" string
    <*> withDefault o "wallThickness" 0.3 number
    <*> withDefault o "elevationConvention" .topOfSlab (namedKind ElevationConvention.words)
    <*> withDefault o "allowGroundSupport" true boolean
    <*> withDefault o "supportGapLevelIds" [] (list string)
    <*> withDefault o "levels" [] (list Level.decode)
    <*> withDefault o "roofs" [] (list Roof.decode)
    <*> withDefault o "openings" [] (list Opening.decode)

/-- Why a house file was refused: it is no JSON text, or these things are wrong with it. -/
inductive LoadError where
  | noJson
  | complaints (cs : List Complaint)

/-- How many things are wrong. -/
def LoadError.count : LoadError → Nat
  | .noJson => 1
  | .complaints cs => cs.length

/-- The house that a text describes. -/
def House.load (text : String) : Except LoadError (House Float) :=
  match Json.parse? text with
  | none => .error .noJson
  | some j =>
    match House.decode j with
    | .value h => .ok h
    | .refused cs => .error (.complaints cs)

end Housewright
