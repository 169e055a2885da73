import Housewright.Json.Fields
import Housewright.Sample.Box
import Housewright.Scalar.Binary64

/-!
# Box houses as asked for

`BoxPlan.decode` reads the wishes for a box house, all of which have the standard plan's
value as their default.  Measures are settled in the order in which the house is put up,
and one that is refused hides the wishes that come after it; it is complained about under
the name that it has in the house.
-/

namespace Housewright

open Json

namespace BoxPlan

/-- A wish, which complaints place under the name `target`. -/
def wish {β : Type} (ms : List (String × Json)) (key target : String) (default : β)
    (d : Decoder β) : Decoded β :=
  match member? key ms with
  | some v => (d v).below (.key target)
  | none => .value default

/-- The number of levels; fewer than none are none. -/
def decodeLevelCount (ms : List (String × Json)) : Nat :=
  match member? "num_levels" ms with
  | some (.int n) => n.toNat
  | _ => (standard : BoxPlan Float).levelCount

/-- The words for roofs of box houses. -/
def roofWords : List (String × BoxRoof) := [("flat", .flat), ("gable", .gable)]

/-- The roof; a word that stands for none asks for a house without a roof. -/
def decodeRoof (ms : List (String × Json)) : Option BoxRoof :=
  match member? "roof" ms with
  | some v => lookupWord? roofWords v
  | none => (standard : BoxPlan Float).roof

/-- The outline of the box. -/
def decodeOutline (ms : List (String × Json)) (p : BoxPlan Float) : Decoded (BoxPlan Float) :=
  (wish ms "width" "x" p.width number).andThen fun width =>
    (wish ms "depth" "y" p.depth number).map fun depth => { p with width, depth }

/-- The measures of the levels, which matter only if there are some. -/
def decodeLevels (ms : List (String × Json)) (p : BoxPlan Float) : Decoded (BoxPlan Float) :=
  if p.levelCount = 0 then .value p
  else
    (wish ms "slab_thickness" "thickness" p.slabThickness number).andThen fun slabThickness =>
      (wish ms "level_height" "height" p.levelHeight number).map fun levelHeight =>
        { p with slabThickness, levelHeight }

/-- What concerns the house as a whole. -/
def decodeWhole (ms : List (String × Json)) (p : BoxPlan Float) : Decoded (BoxPlan Float) :=
  (fun name wallThickness => { p with name, wallThickness })
    <$> wish ms "name" "name" p.name string
    <*> wish ms "wall_thickness" "wall_thickness" p.wallThickness number

/-- The height of the ridge above the eaves. -/
def decodeRidgeRise (ms : List (String × Json)) (p : BoxPlan Float) : Decoded (BoxPlan Float) :=
  (wish ms "ridge_rise" "ridge_rise" p.ridgeRise number).map fun ridgeRise =>
    { p with ridgeRise }

/-- The box house that some wishes ask for. -/
def decode (ms : List (String × Json)) : Decoded (BoxPlan Float) :=
  let plan := { (standard : BoxPlan Float) with
    levelCount := decodeLevelCount ms, roof := decodeRoof ms }
  ((decodeOutline ms plan).andThen (decodeLevels ms)).andThen fun plan =>
    (decodeRidgeRise ms plan).andThen (decodeWhole ms)

end BoxPlan

end Housewright
