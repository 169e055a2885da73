import Housewright.Description.Decoder
import Housewright.Json.Edit

/-!
# Editing the document of a house

A `HouseDocument` is a JSON document together with the house that it describes.  An edit
that leaves no house is refused, and the document stays what it was.
-/

namespace Housewright

/-- A document and the house that it describes. -/
structure HouseDocument where
  json : Json
  house : House Float

/-- A change of a document at one place. -/
inductive DocumentEdit where
  | put (place : List Json.Step) (value : Json)
  | append (place : List Json.Step) (value : Json)
  | remove (place : List Json.Step)

/-- The document after an edit, if the place exists. -/
def DocumentEdit.apply? : DocumentEdit → Json → Option Json
  | .put place value, j => j.put? value place
  | .append place value, j => j.append? value place
  | .remove place, j => j.remove? place

/-- Why an edit was refused. -/
inductive EditError where
  | noSuchPlace
  | refused (complaints : List Json.Complaint)

namespace HouseDocument

/-- The document of a house. -/
def ofJson (j : Json) : Except EditError HouseDocument :=
  match House.decode j with
  | .value h => .ok ⟨j, h⟩
  | .refused cs => .error (.refused cs)

/-- The document after an edit. -/
def edit (d : HouseDocument) (e : DocumentEdit) : Except EditError HouseDocument :=
  match e.apply? d.json with
  | some j => ofJson j
  | none => .error .noSuchPlace

end HouseDocument

end Housewright
