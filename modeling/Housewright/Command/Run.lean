import Housewright.Command.Answer
import Housewright.Command.Request
import Housewright.Description.Decoder
import Housewright.Description.Encoder
import Housewright.Planar.Binary64
import Housewright.Sample.Box
import Housewright.Sample.Reference

/-!
# Carrying out requests

`Request.run` carries a request out.  It is told by `look` what stands at every path, and
its outcome says what to print and which file to write, so that it touches no file itself.

A command that cannot do what it was asked for stops with a failure, which is an answer.  A
breakdown is none: a file that cannot be read or written, or an arithmetic failure.
-/

namespace Housewright

/-- The house with fixed roofs in place of the roofs with their ids, the last one for each
id. -/
def House.withFixedRoofs (h : House Float) (fixed : List (MultiPlaneRoof Float)) : House Float :=
  { h with roofs := h.roofs.map fun r =>
      ((fixed.reverse.find? (·.id == r.id)).map Roof.multiPlane).getD r }

namespace Command

/-- Why a command ends without an answer. -/
inductive Breakdown where
  | geometry (cause : GeometryError)
  | file (fault : FileFault)
  deriving DecidableEq, Repr

/-- What stops a command. -/
inductive Stop where
  | failure (why : Failure)
  | breakdown (cause : Breakdown)

/-- A text to be written to a file. -/
structure Written where
  path : Path
  text : String
  deriving DecidableEq, Repr

/-- What a command leads to. -/
structure Done where
  answer : Answer
  written : Option Written

/-- A step of a command. -/
abbrev Step (β : Type) := Except Stop β

/-- A computation on coordinates as a step; its failure breaks the command down. -/
def compute {β : Type} (c : Computed β) : Step β :=
  c.mapError fun cause => .breakdown (.geometry cause)

/-- An answer without a file to write. -/
def Answer.done (answer : Answer) : Done := ⟨answer, none⟩

/-- The version of the program. -/
def versionNumber : String := "0.1.0"

/-! ## Files -/

/-- The house that the file at a path describes. -/
def loadHouse (look : Path → Entry) (path : Path) : Step (House Float) :=
  match look path with
  | .absent => .error (.failure (.fileMissing path))
  | .directory => .error (.breakdown (.file (.isDirectory path)))
  | .file text => (House.load text).mapError fun e => .failure (.unreadableHouse e.count)

/-- A house to be written to a file. -/
def saveHouse (look : Path → Entry) (path : Path) (h : House Float) : Step Written :=
  match writeFault? look path with
  | some fault => .error (.breakdown (.file fault))
  | none => .ok ⟨path, h.save⟩

/-! ## Multi-plane roofs -/

/-- The multi-plane roofs of a house, or those with an id, of which there has to be one. -/
def selectRoofs (h : House Float) : Option String → Step (List (MultiPlaneRoof Float))
  | none => .ok h.multiPlaneRoofs
  | some id =>
    let roofs := h.multiPlaneRoofs.filter (·.id == id)
    if roofs.isEmpty then .error (.failure (.unknownRoof id)) else .ok roofs

/-- The reports of some roofs, by their ids, made after their dividers were written out.  Of
several roofs with one id the last report counts. -/
def reportRoofs (roofs : List (MultiPlaneRoof Float)) :
    Computed (List (String × RoofReport Float)) := do
  let reports ← roofs.mapM fun r => return (r.id, ← r.normalize.report)
  return reports.foldl (fun kept r => upsert r.1 r.2 kept) []

/-- The first roof with an id before the edit, if it is a multi-plane roof. -/
def roofBefore? (before : House Float) (id : String) : Option (MultiPlaneRoof Float) :=
  (before.roof? id).bind Roof.multiPlane?

/-- A roof after its dividers were brought back, with what was done about it.  A roof that
was no multi-plane roof before is left alone. -/
def fixRoof (before : House Float) (after : MultiPlaneRoof Float) :
    Computed (Option (RoofFix × MultiPlaneRoof Float)) := do
  match roofBefore? before after.id with
  | none => return none
  | some roof =>
    let plan ← roof.planSync after
    return some (⟨after.id, plan⟩, plan.applyTo after)

/-! ## Commands -/

/-- What there is to say about a house. -/
def checkHouse (h : House Float) (tolerance : Float) : Computed HouseCheck := do
  return {
    name := h.name
    structureReport := h.structureReport tolerance
    refusedOpening := ← h.refusedOpening? Tolerance.openingFit
    roofs := ← reportRoofs h.multiPlaneRoofs }

/-- What stops the work on a house. -/
def stopOfBuild : BuildError Float → Stop
  | .structureRefused report => .failure (.structureRefused report)
  | .openingRefused refused => .failure (.openingRefused refused)
  | .geometry cause => .breakdown (.geometry cause)

/-- Builds a house, and measures its wall shells. -/
def buildHouse (h : House Float) (mode : ReportMode) (tolerance : Float) : Step HouseReport := do
  let built ← (h.build .binary64 mode tolerance).mapError stopOfBuild
  return ⟨h.name, built, ← compute (built.shells.mapM WallShell.area)⟩

/-- What stops the drawing of a plan. -/
def stopOfPlan : PlanError → Stop
  | .geometry cause => .breakdown (.geometry cause)
  | why => .failure (.noPlan why)

/-- The sample house of a generator. -/
def sampleHouse (generator : String) : Step (House Float) :=
  if generator = "reference" then .ok (ReferenceHouse.house true)
  else if generator = "box" then .ok (BoxPlan.standard : BoxPlan Float).house
  else .error (.failure (.unknownGenerator generator))

/-- Checks a house. -/
def runValidate (look : Path → Entry) (house : Path) (tolerance : Float) : Step Done := do
  let h ← loadHouse look house
  return (Answer.checked (← compute (checkHouse h tolerance))).done

/-- Builds a house.  The mode is looked at first. -/
def runDerive (look : Path → Entry) (house : Path) (mode : String) (tolerance : Float) :
    Step Done :=
  match Json.lookupWord? ReportMode.words (.str mode) with
  | none => .error (.failure (.unknownMode mode))
  | some reportMode => do
    let h ← loadHouse look house
    return (Answer.built (← buildHouse h reportMode tolerance)).done

/-- Checks multi-plane roofs. -/
def runRoofCheck (look : Path → Entry) (house : Path) (roofId : Option String) : Step Done := do
  let h ← loadHouse look house
  let roofs ← selectRoofs h roofId
  return (Answer.roofsChecked (← compute (reportRoofs roofs))).done

/-- Plans how dividers follow ridges that were moved, and writes the house with the plans
carried out if there is a place to write it. -/
def runRoofFix (look : Path → Entry) (before after : Path) (roofId : Option String)
    (output : Option Path) : Step Done := do
  let before ← loadHouse look before
  let after ← loadHouse look after
  let roofs ← selectRoofs after roofId
  let fixes := (← compute (roofs.mapM (fixRoof before))).filterMap id
  let fixed := after.withFixedRoofs (fixes.map (·.2))
  let written ← output.mapM fun path => saveHouse look path fixed
  return ⟨.roofsFixed (fixes.map (·.1)) output, written⟩

/-- Draws the plan of a house. -/
def runRender (look : Path → Entry) (house output : Path) (levelId : Option String) :
    Step Done := do
  let h ← loadHouse look house
  let _ ← (h.plan { PlanOptions.standard with levelId }).mapError stopOfPlan
  return (Answer.drawn output).done

/-- Writes a sample house. -/
def runSample (look : Path → Entry) (output : Path) (generator : String) : Step Done := do
  let h ← sampleHouse generator
  let written ← saveHouse look output h
  return ⟨.sampled ⟨generator, output, h.levels.length, h.structureReport Tolerance.support⟩,
    some written⟩

/-! ## Outcomes -/

/-- What a run of the program leads to. -/
inductive Outcome where
  /-- The arguments make no request. -/
  | misused
  | helped
  | broken (cause : Breakdown)
  | answered (done : Done)

/-- A stopped command has failed or broken down. -/
def Outcome.ofStep : Step Done → Outcome
  | .ok done => .answered done
  | .error (.failure why) => .answered (Answer.failed why).done
  | .error (.breakdown cause) => .broken cause

/-- The exit code of the program. -/
def Outcome.exitCode : Outcome → Nat
  | misused => 2
  | helped => 0
  | broken _ => 1
  | answered done => done.answer.exitCode

/-- Carries out a request. -/
def Request.run (look : Path → Entry) : Request → Outcome
  | .help => .helped
  | .validate house tolerance => .ofStep (runValidate look house tolerance)
  | .derive house mode tolerance => .ofStep (runDerive look house mode tolerance)
  | .roofCheck house roofId => .ofStep (runRoofCheck look house roofId)
  | .roofFix before after roofId output =>
    .ofStep (runRoofFix look before after roofId output)
  | .render house output levelId => .ofStep (runRender look house output levelId)
  | .sample output generator => .ofStep (runSample look output generator)
  | .version => .answered (Answer.version versionNumber).done

/-- Carries out what arguments ask for. -/
def run (look : Path → Entry) (arguments : List String) : Outcome :=
  match Request.ofArguments? arguments with
  | some request => request.run look
  | none => .misused

end Command

end Housewright
