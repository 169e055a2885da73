import Housewright.Geometry.Ring

/-!
# Marks on a plan

A drawing is a list of marks: filled areas, lines, words and dots.  Marks lie on numbered
layers, and those of a higher layer cover those of a lower one.  Widths of lines and sizes
of letters are in points.
-/

namespace Housewright

/-- A colour, by its name or its hexadecimal code. -/
structure Color where
  code : String
  deriving DecidableEq, Repr

/-- No colour at all. -/
def Color.clear : Color := ⟨"none"⟩

/-- How a line is broken up. -/
inductive Dash where
  | solid
  | dashed
  | dotted
  deriving DecidableEq, Repr

/-- How a line is drawn. -/
structure Stroke (α : Type) where
  color : Color
  width : α
  dash : Option Dash

/-- How an area is filled.  What is not settled is left to whoever draws. -/
structure Fill (α : Type) where
  color : Color
  opacity : Option α
  outline : Option Color
  hatched : Bool

/-- Where words stand at their point: around it, or above it on its right. -/
inductive Anchor where
  | center
  | corner
  deriving DecidableEq, Repr

/-- How words are lettered. -/
structure Lettering where
  size : Nat
  color : Color
  anchor : Anchor
  deriving DecidableEq, Repr

/-- What is drawn. -/
inductive Shape (α : Type) where
  | area (outline : Ring α) (fill : Fill α)
  /-- A line from point to point; a label puts it into the legend. -/
  | line (points : List (Point α)) (stroke : Stroke α) (label : Option String)
  | words (place : Point α) (text : String) (lettering : Lettering)
  | dot (place : Point α) (color : Color) (size : Nat)

/-- A shape on its layer. -/
structure Mark (α : Type) where
  layer : Nat
  shape : Shape α

/-- The points of a ring with the first one again at the end. -/
def Ring.closed {α : Type} (r : Ring α) : List (Point α) := r ++ r.take 1

/-- The point halfway between two points. -/
def Point.middle {α : Type} [Scalar α] (p q : Point α) : Point α :=
  ⟨(p.x + q.x) / 2.0, (p.y + q.y) / 2.0⟩

end Housewright
