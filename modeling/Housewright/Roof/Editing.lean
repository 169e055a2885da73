import Housewright.Roof.RidgeSync

/-!
# Editing a multi-plane roof

`RoofEditor` is the state of an editing session: the roof as it is now, the roof as it
was when it was last marked, and a plan that brings dividers back onto ridges that moved
in between.  The plan can be edited before it is applied.
-/

namespace Housewright

/-- The state of an editing session. -/
structure RoofEditor (α : Type) where
  current : MultiPlaneRoof α
  marked : MultiPlaneRoof α
  plan : SyncPlan α

variable {α : Type}

namespace MultiPlaneRoof

/-- Changes every ridge with the given id. -/
def changeRidges (roof : MultiPlaneRoof α) (id : String) (f : Ridge α → Ridge α) :
    MultiPlaneRoof α :=
  { roof with ridges := roof.ridges.map fun r => if r.id == id then f r else r }

/-- Takes away every face with the given id. -/
def dropFace (roof : MultiPlaneRoof α) (id : String) : MultiPlaneRoof α :=
  { roof with faces := roof.faces.filter (·.id != id) }

/-- Takes away every ridge with the given id. -/
def dropRidge (roof : MultiPlaneRoof α) (id : String) : MultiPlaneRoof α :=
  { roof with ridges := roof.ridges.filter (·.id != id) }

/-- Adds a face in place of all faces with its id. -/
def putFace (roof : MultiPlaneRoof α) (f : RoofFace α) : MultiPlaneRoof α :=
  let roof := roof.dropFace f.id
  { roof with faces := roof.faces ++ [f] }

/-- Adds a ridge. -/
def putRidge (roof : MultiPlaneRoof α) (r : Ridge α) : MultiPlaneRoof α :=
  { roof with ridges := roof.ridges ++ [r] }

end MultiPlaneRoof

/-- The ridge with new end points or a new height, where they are given. -/
def Ridge.moved (r : Ridge α) (start? finish? : Option (Point α)) (height? : Option α) :
    Ridge α :=
  { r with
    start := start?.getD r.start
    finish := finish?.getD r.finish
    height := height?.getD r.height }

namespace RoofEditor

/-- The start of a session. -/
def start (roof : MultiPlaneRoof α) : RoofEditor α := ⟨roof, roof, .empty⟩

/-- Changes the roof. -/
def change (e : RoofEditor α) (f : MultiPlaneRoof α → MultiPlaneRoof α) : RoofEditor α :=
  { e with current := f e.current }

/-- Remembers the roof as it is now. -/
def mark (e : RoofEditor α) : RoofEditor α := { e with marked := e.current }

/-- Plans what is to be done since the roof was marked. -/
def makePlan [Scalar α] (e : RoofEditor α) : Computed (RoofEditor α) := do
  return { e with plan := ← e.marked.planSync e.current }

/-- Lets a planned patch name another item or face; an error if there is no such patch.
Indices below zero count from the end. -/
def retarget (e : RoofEditor α) (index : Int) (itemIndex? : Option Int)
    (faceId? : Option String) : Computed (RoofEditor α) :=
  let i := if index < 0 then index + e.plan.patches.length else index
  if 0 ≤ i ∧ i < e.plan.patches.length then
    let retargeted (p : DividerPatch α) : DividerPatch α :=
      { p with itemIndex := itemIndex?.getD p.itemIndex, faceId := faceId?.getD p.faceId }
    .ok { e with plan := { e.plan with patches := e.plan.patches.modify i.toNat retargeted } }
  else .error .indexOutOfRange

/-- Applies the plan. -/
def applyPlan (e : RoofEditor α) : RoofEditor α := e.change e.plan.applyTo

end RoofEditor

end Housewright
