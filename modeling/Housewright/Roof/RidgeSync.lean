import Housewright.Roof.Region

/-!
# Keeping written-out dividers on their ridges

When a ridge is moved, the faces that hold its divider written out still show the old
line.  `MultiPlaneRoof.planSync` compares a roof before and after the edit and plans one
patch for every divider that has to follow; `SyncPlan.applyTo` carries a plan out.  The
two steps are separate, so that a plan can be looked at, and changed, in between.

A ridge that was moved to a line without length has no divider; its dividers stay, and
the plan says so.  A patch whose face or divider is gone is skipped.
-/

namespace Housewright

/-- Puts one divider on a new line. -/
structure DividerPatch (α : Type) where
  faceId : String
  ridgeId : String
  itemIndex : Int
  a : Point α
  b : Point α

/-- What is to be done after ridges were moved. -/
structure SyncPlan (α : Type) where
  patches : List (DividerPatch α)
  /-- Ridges moved to a line without length. -/
  lostRidges : List String

namespace SyncPlan

variable {α : Type}

/-- The plan with nothing to do. -/
def empty : SyncPlan α := ⟨[], []⟩

/-- One plan after the other. -/
def append (p q : SyncPlan α) : SyncPlan α :=
  ⟨p.patches ++ q.patches, p.lostRidges ++ q.lostRidges⟩

/-- What the plan says about a ridge that was lost. -/
def lostMessage (ridgeId : String) : String :=
  s!"Ridge '{ridgeId}' moved to a zero-length line; dividers not synchronized."

/-- The problems of a plan, in words. -/
def errors (p : SyncPlan α) : List String := p.lostRidges.map lostMessage

end SyncPlan

/-! ## Planning -/

section Planning

variable {α : Type}

/-- Whether an item is a divider that follows the ridge: one that names the ridge, or an
older one that names none. -/
def RegionItem.follows (ridgeId : String) : RegionItem α → Bool
  | .materialized _ none => true
  | .materialized _ (some id) => id == ridgeId
  | _ => false

/-- The items of a face that follow the ridge, by their indices. -/
def RoofFace.followers (ridgeId : String) (f : RoofFace α) : List Nat :=
  match f.kind, f.region with
  | .ridgeSide, .compound items =>
    if f.ridgeId == some ridgeId then
      items.zipIdx.filterMap fun (item, i) => if item.follows ridgeId then some i else none
    else []
  | _, _ => []

/-- The patches that put the dividers of some faces on the ridge. -/
def Ridge.patches (faces : List (RoofFace α)) (r : Ridge α) : List (DividerPatch α) :=
  faces.flatMap fun f =>
    (f.followers r.id).map fun i => ⟨f.id, r.id, Int.ofNat i, r.start, r.finish⟩

variable [Scalar α]

/-- Whether the end points of a ridge changed. -/
def Ridge.movedFrom (before after : Ridge α) : Bool :=
  !(before.start == after.start && before.finish == after.finish)

/-- What is to be done about one ridge.  A ridge that was not there before did not move. -/
def Ridge.sync (before? : Option (Ridge α)) (faces : List (RoofFace α)) (r : Ridge α) :
    Computed (SyncPlan α) := do
  if before?.any (·.movedFrom r) then
    if (← r.length) ≤ Tolerance.geometry then return ⟨[], [r.id]⟩
    else return ⟨r.patches faces, []⟩
  else return .empty

/-- What is to be done about some ridges, in order. -/
def syncRidges (before after : MultiPlaneRoof α) : List (Ridge α) → Computed (SyncPlan α)
  | [] => .ok .empty
  | r :: rest => do
    let first ← r.sync (before.ridge? r.id) after.faces
    return first.append (← syncRidges before after rest)

/-- What is to be done after `before` was edited to `after`. -/
def MultiPlaneRoof.planSync (before after : MultiPlaneRoof α) : Computed (SyncPlan α) :=
  syncRidges before after after.ridges

end Planning

/-! ## Carrying a plan out -/

section Applying

variable {α : Type}

/-- A written-out divider on a new line; other items stay. -/
def RegionItem.onLine (a b : Point α) : RegionItem α → RegionItem α
  | .materialized plane ridgeId => .materialized ⟨a, b, plane.keep⟩ ridgeId
  | item => item

/-- Changes the element at an index, if there is one. -/
def changeAt {β : Type} (f : β → β) (index : Int) (xs : List β) : List β :=
  if index < 0 then xs else xs.modify index.toNat f

@[simp] theorem length_changeAt {β : Type} (f : β → β) (index : Int) (xs : List β) :
    (changeAt f index xs).length = xs.length := by
  unfold changeAt
  split <;> simp

/-- A ridge-side face with the patch applied to its compound region. -/
def RoofFace.patched (p : DividerPatch α) (f : RoofFace α) : RoofFace α :=
  match f.kind, f.region with
  | .ridgeSide, .compound items =>
    { f with region := .compound (changeAt (.onLine p.a p.b) p.itemIndex items) }
  | _, _ => f

/-- Patches the face that the patch names; of several with that id the last. -/
def DividerPatch.applyTo (p : DividerPatch α) : List (RoofFace α) → List (RoofFace α)
  | [] => []
  | f :: rest =>
    if rest.any (·.id == p.faceId) then f :: p.applyTo rest
    else if f.id == p.faceId then f.patched p :: rest
    else f :: rest

/-- A patch neither adds nor drops a face. -/
@[simp] theorem DividerPatch.length_applyTo (p : DividerPatch α) (faces : List (RoofFace α)) :
    (p.applyTo faces).length = faces.length := by
  induction faces with
  | nil => rfl
  | cons f rest ih =>
    unfold applyTo
    split
    · simp [ih]
    · split <;> simp

/-- The roof with all patches of a plan applied, in order. -/
def SyncPlan.applyTo (plan : SyncPlan α) (roof : MultiPlaneRoof α) : MultiPlaneRoof α :=
  { roof with faces := plan.patches.foldl (fun faces p => p.applyTo faces) roof.faces }

end Applying

end Housewright
