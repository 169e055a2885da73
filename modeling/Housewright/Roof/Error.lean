import Housewright.Scalar

/-!
# Why a roof cannot be derived

`RoofError` lists the causes.  Most of them say something about the roof; `failure?`
picks out the failures of the arithmetic, which do not.
-/

namespace Housewright

/-- Why a roof cannot be derived. -/
inductive RoofError where
  | baseLevelMissing (roofId levelId : String)
  /-- The base level's outline, grown by the overhang, is no usable shape. -/
  | degenerateOutline (levelId : String) (cause : GeometryError)
  | zeroLengthRidge (roofId : String)
  | noRidges (roofId : String)
  | geometry (cause : GeometryError)
  deriving DecidableEq, Repr

namespace RoofError

/-- The failure of the arithmetic, if that is the cause and not the roof. -/
def failure? : RoofError → Option GeometryError
  | geometry cause => if cause.concernsShape then none else some cause
  | _ => none

/-- The cause in words. -/
def message : RoofError → String
  | baseLevelMissing roof level => s!"Roof '{roof}' base level '{level}' not found"
  | degenerateOutline level cause =>
    "Level '" ++ level ++ "' roof outline is degenerate: " ++ cause.message
  | zeroLengthRidge roof => s!"Gable roof '{roof}' has a zero-length ridge"
  | noRidges roof => s!"Multi-ridge roof '{roof}' has no ridge segments"
  | geometry cause => cause.message

end RoofError

end Housewright
