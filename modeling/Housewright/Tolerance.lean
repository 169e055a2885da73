import Housewright.Scalar

/-!
# Tolerances, limits and defaults

All lengths are in metres.
-/

namespace Housewright.Tolerance

variable {α : Type} [Scalar α]

/-- Below this, lengths count as zero and lines as parallel. -/
def geometry : α := 1e-6

/-- Points this close to an edge lie on it. -/
def onEdge : α := 1e-9

/-- A mitre may be this many times the offset distance away from its corner. -/
def mitreLimit : α := 6.0

/-- Vertical mismatch that slabs and walls may have. -/
def support : α := 0.002

/-- Width and height that an opening has at least. -/
def openingSize : α := 0.05

/-- How far an opening may overrun its host. -/
def openingFit : α := 1e-6

/-- How far from a wall the outside is probed. -/
def outwardProbe : α := 0.05

/-- Thickness of a facade panel. -/
def panelThickness : α := 0.025

/-- Panels and holes that are not larger are left out. -/
def holeSize : α := 1e-4

/-- Half the side of the square that face regions are clipped from. -/
def referenceExtent : α := 1000.0

/-- How far past a perpendicular cut its side is probed. -/
def cutProbe : α := 0.01

/-- A ridge range that comes this close to a ridge end is suspicious. -/
def ridgeMargin : α := 0.01

/-- A ridge range shorter than this is suspicious. -/
def ridgeSpan : α := 0.02

/-- Thickness of a roof plate. -/
def roofThickness : α := 0.2

end Housewright.Tolerance
