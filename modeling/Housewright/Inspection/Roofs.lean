import Housewright.Roof.Error
import Housewright.Roof.Region

/-!
# Do the ridges and faces of a multi-plane roof make sense?

Ridges have distinct ids, a length and a finite height above zero.  Ridge-side faces
name a ridge and a range on it, other faces close no ridge end, and the half-planes of
every region leave a polygon of the reference square.  A range that nearly reaches a
ridge end, or is very short, is suspicious.

`inspectRidges` and `inspectFaces` give one verdict for each ridge and face, in order;
`MultiPlaneRoof.report` gathers them.
-/

namespace Housewright

/-- What is wrong with a ridge. -/
inductive RidgeFault where
  | duplicated
  | zeroLength
  | heightInvalid
  deriving DecidableEq, Repr

/-- What is wrong with a face. -/
inductive FaceFault (α : Type) where
  | ridgeMissing
  | rangeMissing
  | rangeOrder (t0 t1 : α)
  | rangeBounds
  | capEndMisplaced
  | regionInvalid
  deriving Repr

/-- A problem of a roof. -/
inductive RoofProblem (α : Type) where
  | ridge (ridgeId : String) (fault : RidgeFault)
  | face (faceId : String) (ridgeId : Option String) (fault : FaceFault α)
  | suspiciousRange (faceId : String) (ridgeId : Option String) (t0 t1 : α)
  | baseLevelMissing (levelId : String)
  | underivable (cause : RoofError)

/-- A problem, with the roof it was found on. -/
structure RoofIssue (α : Type) where
  roofId : String
  problem : RoofProblem α

/-- What was found on a roof.  The ridges, faces and clipped regions that gave rise to a
problem are kept, so that they can be shown. -/
structure RoofReport (α : Type) where
  errors : List (RoofIssue α)
  warnings : List (RoofIssue α)
  invalidRidges : List (Ridge α)
  invalidFaces : List (RoofFace α)
  suspiciousFaces : List (RoofFace α)
  /-- What was left of each invalid region, by the id of its face. -/
  invalidPolygons : List (String × Ring α)

namespace RoofReport

variable {α : Type}

/-- The report of a roof on which nothing was found. -/
def clean : RoofReport α := ⟨[], [], [], [], [], []⟩

/-- The report of a roof with one error. -/
def ofError (roofId : String) (problem : RoofProblem α) : RoofReport α :=
  { (clean : RoofReport α) with errors := [⟨roofId, problem⟩] }

/-- A roof is accepted if it has no errors. -/
def ok (r : RoofReport α) : Bool := r.errors.isEmpty

end RoofReport

variable {α : Type}

/-- A list of pairs with the value of a key replaced, or added at the end. -/
def upsert {β : Type} (key : String) (value : β) : List (String × β) → List (String × β)
  | [] => [(key, value)]
  | (k, v) :: rest => if k = key then (k, value) :: rest else (k, v) :: upsert key value rest

/-- An `upsert` keeps the keys, and adds its own at the end if it is new. -/
theorem keys_upsert {β : Type} (key : String) (value : β) (xs : List (String × β)) :
    (upsert key value xs).map (·.1)
      = if key ∈ xs.map (·.1) then xs.map (·.1) else xs.map (·.1) ++ [key] := by
  induction xs with
  | nil => simp [upsert]
  | cons x rest ih =>
    by_cases h : x.1 = key
    · simp [upsert, h]
    · have h' : ¬ key = x.1 := fun e => h e.symm
      by_cases m : key ∈ rest.map (·.1) <;> simp_all [upsert]

variable [Scalar α]

/-! ## Ridges -/

/-- A ridge and what is wrong with it. -/
structure RidgeVerdict (α : Type) where
  ridge : Ridge α
  faults : List RidgeFault

/-- Judges a ridge that follows ridges with the ids `earlier`. -/
def Ridge.inspect (earlier : List String) (r : Ridge α) : Computed (RidgeVerdict α) := do
  let length ← r.length
  return ⟨r, (if earlier.contains r.id then [.duplicated] else [])
    ++ (if length ≤ Tolerance.geometry then [.zeroLength] else [])
    ++ (if Scalar.isPositive r.height then [] else [.heightInvalid])⟩

/-- Judges ridges in order. -/
def inspectRidges (earlier : List String) : List (Ridge α) → Computed (List (RidgeVerdict α))
  | [] => .ok []
  | r :: rest => do
    let verdict ← r.inspect earlier
    return verdict :: (← inspectRidges (earlier ++ [r.id]) rest)

/-! ## Faces -/

/-- What half-planes leave of a ring.  Cutting stops at fewer than three vertices. -/
def clipWhileArea (r : Ring α) : List (HalfPlane α) → Computed (Ring α)
  | [] => .ok r
  | plane :: rest => do
    let clipped ← r.clip plane Tolerance.geometry
    if clipped.length < 3 then return clipped else clipWhileArea clipped rest

/-- What is left of the region of a face if the region is invalid: nothing if it cannot
be resolved, and otherwise the few points that the half-planes leave. -/
def RoofFace.invalidRest? (roof : MultiPlaneRoof α) (f : RoofFace α) :
    Computed (Option (Ring α)) := do
  match f.region with
  | .ridgeCap ridgeId _ => return if (roof.ridge? ridgeId).isSome then none else some []
  | region =>
    match ← region.resolve roof with
    | none => return some []
    | some planes =>
      let rest ← clipWhileArea (Ring.referenceSquare Tolerance.referenceExtent) planes
      return if rest.length < 3 then some rest else none

/-- The range of a face on its ridge, if both ends are given and are numbers. -/
def RoofFace.range? (f : RoofFace α) : Option (α × α) :=
  match f.ridgeT0, f.ridgeT1 with
  | some t0, some t1 => if Scalar.isNaN t0 || Scalar.isNaN t1 then none else some (t0, t1)
  | _, _ => none

/-- Whether a parameter lies between the ends of a ridge. -/
def onRidge (t : α) : Bool := decide (0.0 ≤ t) && decide (t ≤ 1.0)

/-- What is wrong with the range of a ridge-side face. -/
def RoofFace.rangeFaults (f : RoofFace α) : List (FaceFault α) :=
  match f.range? with
  | none => [.rangeMissing]
  | some (t0, t1) =>
    (if t0 < t1 then [] else [.rangeOrder t0 t1])
      ++ (if onRidge t0 && onRidge t1 then [] else [.rangeBounds])

/-- What is wrong with the ridge a face names, its range on it, and the end it closes. -/
def RoofFace.faults (ridgeIds : List String) (f : RoofFace α) : List (FaceFault α) :=
  match f.kind with
  | .ridgeSide =>
    let named := f.ridgeId.any fun id => id ≠ "" && ridgeIds.contains id
    (if named then [] else [.ridgeMissing]) ++ f.rangeFaults
  | .hipCap => if f.capEnd.isSome then [.capEndMisplaced] else []

/-- The range of a ridge-side face, if it nearly reaches an end of the ridge or is very
short. -/
def RoofFace.suspiciousRange? (f : RoofFace α) : Option (α × α) :=
  match f.kind with
  | .ridgeSide => f.range?.filter fun (t0, t1) =>
    decide (t0 ≤ Tolerance.ridgeMargin) || decide (1.0 - Tolerance.ridgeMargin ≤ t1)
      || decide (t1 - t0 < Tolerance.ridgeSpan)
  | .hipCap => none

/-- A face and what was found on it. -/
structure FaceVerdict (α : Type) where
  face : RoofFace α
  faults : List (FaceFault α)
  suspicious : Option (α × α)
  invalidRest : Option (Ring α)

/-- Judges a face. -/
def RoofFace.inspect (roof : MultiPlaneRoof α) (f : RoofFace α) : Computed (FaceVerdict α) := do
  let invalidRest ← f.invalidRest? roof
  return ⟨f, f.faults (roof.ridges.map (·.id))
    ++ (if invalidRest.isSome then [.regionInvalid] else []), f.suspiciousRange?, invalidRest⟩

/-- Judges all faces of a roof, in order. -/
def inspectFaces (roof : MultiPlaneRoof α) : Computed (List (FaceVerdict α)) :=
  roof.faces.mapM (·.inspect roof)

/-! ## The report -/

/-- A face's fault as a problem.  A misplaced cap end has nothing to do with a ridge. -/
def RoofFace.problem (f : RoofFace α) (fault : FaceFault α) : RoofProblem α :=
  match fault with
  | .capEndMisplaced => .face f.id none fault
  | _ => .face f.id f.ridgeId fault

/-- The report that collects some verdicts. -/
def RoofReport.ofVerdicts (roofId : String) (ridges : List (RidgeVerdict α))
    (faces : List (FaceVerdict α)) : RoofReport α where
  errors :=
    (ridges.flatMap fun v => v.faults.map fun fault => ⟨roofId, .ridge v.ridge.id fault⟩)
      ++ faces.flatMap fun v => v.faults.map fun fault => ⟨roofId, v.face.problem fault⟩
  warnings := faces.filterMap fun v => v.suspicious.map fun (t0, t1) =>
    ⟨roofId, .suspiciousRange v.face.id v.face.ridgeId t0 t1⟩
  invalidRidges := ridges.filterMap fun v => if v.faults.isEmpty then none else some v.ridge
  invalidFaces := faces.filterMap fun v => if v.faults.isEmpty then none else some v.face
  suspiciousFaces := faces.filterMap fun v => v.suspicious.map fun _ => v.face
  invalidPolygons := faces.foldl
    (fun polygons v => match v.invalidRest with
      | some rest => upsert v.face.id rest polygons
      | none => polygons) []

/-- Everything found on a multi-plane roof. -/
def MultiPlaneRoof.report (roof : MultiPlaneRoof α) : Computed (RoofReport α) := do
  let ridges ← inspectRidges [] roof.ridges
  let faces ← inspectFaces roof
  return .ofVerdicts roof.id ridges faces

end Housewright
