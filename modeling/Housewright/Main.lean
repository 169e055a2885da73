import Housewright.Command.Run
import Housewright.Json.Writer

/-!
# The program

Reads the command line, looks up what stands at the paths that the request names, and
prints the outcome of `Command.run`: the answer on standard output, everything else on
standard error.  A plan is worked out but not painted.
-/

namespace Housewright.Command

/-- How the program is used. -/
def usage : String :=
  "Usage: housewright [-v] COMMAND [ARGUMENTS]\n\n"
    ++ "  validate FILE [-t TOLERANCE]\n"
    ++ "  derive FILE [-m throw|report] [-t TOLERANCE]\n"
    ++ "  roof-check FILE [-r ROOF]\n"
    ++ "  roof-fix BEFORE AFTER [-r ROOF] [-o FILE]\n"
    ++ "  render FILE [-o FILE] [-l LEVEL]\n"
    ++ "  sample FILE [-g reference|box]\n"
    ++ "  version"

/-- The paths that matter to a request. -/
def pathsOf : Request → List Path
  | .validate house _ | .derive house _ _ | .roofCheck house _ | .render house _ _ => [house]
  | .roofFix before after _ output =>
    [before, after] ++ output.elim [] fun p => p :: p.ancestors
  | .sample output _ => output :: output.ancestors
  | .help | .version => []

/-- What stands at a path: a file that can be read, a directory, or nothing.  Reading a
directory is the error with the number 21. -/
def entryAt (p : Path) : IO Entry := do
  try
    return .file (← IO.FS.readFile p.text)
  catch
    | .inappropriateType _ 21 _ => return .directory
    | _ => return .absent

/-- Writes a file, and the directories on its path before it. -/
def writeOut (w : Written) : IO Unit := do
  IO.FS.createDirAll w.path.parent.text
  IO.FS.writeFile w.path.text w.text

/-- What broke a command down, in words. -/
def Breakdown.message : Breakdown → String
  | .geometry cause => cause.message
  | .file (.isDirectory p) => "Is a directory: " ++ p.text
  | .file (.directoryIsFile p) => "File exists: " ++ p.text
  | .file (.directoryBelowFile p) => "Not a directory: " ++ p.text

/-- Prints an outcome, after its file was written. -/
def report : Outcome → IO Unit
  | .misused => IO.eprintln usage
  | .helped => IO.println usage
  | .broken cause => IO.eprintln cause.message
  | .answered done => do
    if let some w := done.written then writeOut w
    IO.println (Json.render .page done.answer.json)

end Housewright.Command

open Housewright Command in
/-- Runs the program. -/
def main (arguments : List String) : IO UInt32 := do
  let paths := (Request.ofArguments? arguments).elim [] pathsOf
  let entries ← paths.mapM fun p => return (p, ← entryAt p)
  let outcome := run (fun p => ((entries.find? (·.1 == p)).map (·.2)).getD .absent) arguments
  report outcome
  return outcome.exitCode.toUInt32
