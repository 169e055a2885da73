import Housewright.Json.Value

/-!
# Editing a JSON document in place

A place is reached from the root by member names and array indices.  `put` writes the
value at a place, `append` adds an element to the array there, `remove` takes the value
away.  An index below zero counts from the end.  An edit of a place that does not exist
gives nothing.
-/

namespace Housewright.Json

/-- One step from a value to a part of it. -/
inductive Step where
  | member (key : String)
  | element (index : Int)
  deriving DecidableEq, Repr

/-- The position an index stands for in a list of the given length. -/
def position? (length : Nat) (index : Int) : Option Nat :=
  let i := if index < 0 then index + length else index
  if 0 ≤ i ∧ i < length then some i.toNat else none

/-- Changes the part of a value that one step leads to. -/
def atStep? (f : Json → Option Json) : Step → Json → Option Json
  | .member key, .obj members => do
    let v ← member? key members
    return .obj (set key (← f v) members)
  | .element index, .arr elements => do
    let i ← position? elements.length index
    let v ← elements[i]?
    return .arr (elements.set i (← f v))
  | _, _ => none

/-- The document with a value written at a place.  The last step may name a new member. -/
def put? (document value : Json) (place : List Step) : Option Json :=
  match place, document with
  | [], _ => some value
  | [.member key], .obj members => some (.obj (set key value members))
  | step :: rest, v => atStep? (fun part => put? part value rest) step v

/-- The document with an element added to the array at a place. -/
def append? (document value : Json) (place : List Step) : Option Json :=
  match place, document with
  | [], .arr elements => some (.arr (elements ++ [value]))
  | [], _ => none
  | step :: rest, v => atStep? (fun part => append? part value rest) step v

/-- The document without the value at a place. -/
def remove? (document : Json) (place : List Step) : Option Json :=
  match place, document with
  | [], _ => none
  | [.member key], .obj members =>
    if (member? key members).isSome then some (.obj (without key members)) else none
  | [.element index], .arr elements =>
    (position? elements.length index).map fun i => .arr (elements.eraseIdx i)
  | step :: rest, v => atStep? (fun part => remove? part rest) step v

end Housewright.Json
