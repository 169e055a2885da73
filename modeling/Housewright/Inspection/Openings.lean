import Housewright.Description.House

/-!
# Do the openings fit their walls?

An opening has to name a level and one of its outer edges, be large enough, and lie
within the wall on that edge.  `openingFault?` gives the first of these conditions that
one opening breaks, `House.refusedOpening?` the first opening of a house that breaks one.

Where two levels share an id, openings are checked against the last of them.
-/

namespace Housewright

/-- Why an opening does not fit. -/
inductive OpeningFault (α : Type) where
  | unknownLevel (levelId : String)
  | noOutline
  | unknownEdge (index : Int) (edges : Nat)
  | sizeNotPositive
  | tooSmall (width height : α)
  | sillBelowFloor
  | aboveWall (sill height levelHeight : α)
  | edgeTooShort
  | offsetNegative
  | beyondEdge (offset width length : α)

/-- An opening that does not fit. -/
structure RefusedOpening (α : Type) where
  openingId : String
  fault : OpeningFault α

variable {α : Type} [Scalar α]

/-- What is wrong with the size and height of an opening in a wall of the given height. -/
def Opening.sizeFault? (tolerance levelHeight : α) (o : Opening α) : Option (OpeningFault α) :=
  if ¬ (0.0 < o.width ∧ 0.0 < o.height) then some .sizeNotPositive
  else if o.width < Tolerance.openingSize ∨ o.height < Tolerance.openingSize then
    some (.tooSmall o.width o.height)
  else if o.sillHeight < -tolerance then some .sillBelowFloor
  else if levelHeight + tolerance < o.sillHeight + o.height then
    some (.aboveWall o.sillHeight o.height levelHeight)
  else none

/-- What is wrong with the place of an opening on an edge of the given length. -/
def Opening.placeFault? (tolerance length : α) (o : Opening α) : Option (OpeningFault α) :=
  if length < tolerance then some .edgeTooShort
  else if o.offset < -tolerance then some .offsetNegative
  else if length + tolerance < o.offset + o.width then
    some (.beyondEdge o.offset o.width length)
  else none

/-- Why an opening does not fit the level it names. -/
def Opening.fault? (tolerance : α) (level? : Option (Level α)) (o : Opening α) :
    Computed (Option (OpeningFault α)) :=
  match level? with
  | none => .ok (some (.unknownLevel o.levelId))
  | some level =>
    let edges := level.footprint.outer.length
    if edges = 0 then .ok (some .noOutline)
    else if o.edge.edgeIndex < 0 ∨ edges ≤ o.edge.edgeIndex then
      .ok (some (.unknownEdge o.edge.edgeIndex edges))
    else
      match o.sizeFault? tolerance level.height with
      | some fault => .ok (some fault)
      | none => do
        let (a, b) ← level.footprint.edge o.edge.edgeIndex
        return o.placeFault? tolerance (Vec.between a b).length

/-- The first of some openings that does not fit the level that `levelOf` finds for it. -/
def firstRefused? (tolerance : α) (levelOf : String → Option (Level α)) :
    List (Opening α) → Computed (Option (RefusedOpening α))
  | [] => .ok none
  | o :: rest => do
    match ← o.fault? tolerance (levelOf o.levelId) with
    | some fault => return some ⟨o.id, fault⟩
    | none => firstRefused? tolerance levelOf rest

/-- The first opening of a house that does not fit. -/
def House.refusedOpening? (h : House α) (tolerance : α) : Computed (Option (RefusedOpening α)) :=
  firstRefused? tolerance h.lastLevel? h.openings

end Housewright
