import Housewright.Command.Path
import Housewright.Json.Fields
import Housewright.Scalar.Binary64
import Housewright.Tolerance

/-!
# Requests

What the program can be asked for on its command line, and `Request.ofArguments?`, which
reads it.  A command takes a fixed number of operands, and options that may stand before,
between and behind them: `--long value`, `--long=value`, `-s value` or `-svalue`.  Of an
option given twice the last value counts, and `--` ends the options.  Arguments that fit
no command are no request.
-/

namespace Housewright.Command

/-- What the program is asked for. -/
inductive Request where
  | help
  | validate (house : Path) (tolerance : Float)
  | derive (house : Path) (mode : String) (tolerance : Float)
  | roofCheck (house : Path) (roofId : Option String)
  | roofFix (before after : Path) (roofId : Option String) (output : Option Path)
  | render (house output : Path) (levelId : Option String)
  | sample (output : Path) (generator : String)
  | version

/-! ## Arguments -/

/-- An option that takes a value. -/
structure OptionForm where
  long : String
  short : Char
  deriving DecidableEq, Repr

/-- What was given to a command: its operands, and the values of options by their long
names, the last one first. -/
structure Given where
  operands : List String
  options : List (String × String)
  help : Bool

namespace Given

/-- Nothing at all. -/
def nothing : Given := ⟨[], [], false⟩

/-- The value of an option. -/
def option? (g : Given) (long : String) : Option String :=
  (g.options.find? (·.1 == long)).map (·.2)

/-- One more operand. -/
def addOperand (g : Given) (s : String) : Given := { g with operands := g.operands ++ [s] }

/-- One more option. -/
def addOption (g : Given) (form : OptionForm) (value : String) : Given :=
  { g with options := (form.long, value) :: g.options }

end Given

/-- How an argument reads: an operand, or an option with the value that is joined to it. -/
inductive Token where
  | operand (s : String)
  | long (name : String) (joined : Option String)
  | short (name : Char) (joined : Option String)
  | endOfOptions
  deriving DecidableEq, Repr

/-- Reads an argument.  A single dash is an operand. -/
def Token.ofArgument (s : String) : Token :=
  match s.toList with
  | ['-', '-'] => .endOfOptions
  | '-' :: '-' :: cs =>
    let name := String.ofList (cs.takeWhile (· ≠ '='))
    match cs.dropWhile (· ≠ '=') with
    | [] => .long name none
    | _ :: value => .long name (some (String.ofList value))
  | ['-', c] => .short c none
  | '-' :: c :: cs => .short c (some (String.ofList cs))
  | _ => .operand s

/-- The option that a token names, with the value that is joined to it. -/
def Token.option? (forms : List OptionForm) : Token → Option (OptionForm × Option String)
  | .long name joined => (forms.find? (·.long == name)).map (·, joined)
  | .short name joined => (forms.find? (·.short == name)).map (·, joined)
  | _ => none

/-- Reads arguments on top of what was given before.  An unknown option, or one without a
value, cannot be read. -/
def Given.read (forms : List OptionForm) (g : Given) : List String → Option Given
  | [] => some g
  | s :: rest =>
    match Token.ofArgument s with
    | .endOfOptions => some { g with operands := g.operands ++ rest }
    | .operand s => Given.read forms (g.addOperand s) rest
    | .long "help" none => Given.read forms { g with help := true } rest
    | token =>
      match token.option? forms, rest with
      | some (form, some value), rest => Given.read forms (g.addOption form value) rest
      | some (form, none), value :: rest => Given.read forms (g.addOption form value) rest
      | _, _ => none

/-! ## Values -/

/-- Whether every underscore stands between two digits. -/
def underscoresGroupDigits (cs : List Char) : Bool :=
  ((' ' :: cs).zip (cs.zip (cs.drop 1 ++ [' ']))).all fun (before, c, after) =>
    c ≠ '_' || (before.isDigit && after.isDigit)

/-- A number on the command line; underscores may group its digits. -/
def number? (s : String) : Option Float :=
  let cs := trimSpace s.toList
  if underscoresGroupDigits cs then Json.signedNumber? (cs.filter (· ≠ '_')) else none

/-- The tolerance that was given. -/
def Given.tolerance? (g : Given) : Option Float :=
  match g.option? "tolerance" with
  | some s => number? s
  | none => some Tolerance.support

/-! ## Commands -/

/-- A command: its word, its options, and the request it makes. -/
structure Form where
  word : String
  options : List OptionForm
  request : Given → Option Request

/-- The tolerance of support. -/
def OptionForm.tolerance : OptionForm := ⟨"tolerance", 't'⟩

/-- The id of a roof. -/
def OptionForm.roof : OptionForm := ⟨"roof", 'r'⟩

/-- Where to write. -/
def OptionForm.output : OptionForm := ⟨"output", 'o'⟩

/-- Checks a house. -/
def Form.validate : Form where
  word := "validate"
  options := [.tolerance]
  request g :=
    match g.operands with
    | [house] => g.tolerance?.map (.validate (.ofText house) ·)
    | _ => none

/-- Builds a house. -/
def Form.derive : Form where
  word := "derive"
  options := [⟨"mode", 'm'⟩, .tolerance]
  request g :=
    match g.operands with
    | [house] => g.tolerance?.map (.derive (.ofText house) ((g.option? "mode").getD "throw") ·)
    | _ => none

/-- Checks multi-plane roofs. -/
def Form.roofCheck : Form where
  word := "roof-check"
  options := [.roof]
  request g :=
    match g.operands with
    | [house] => some (.roofCheck (.ofText house) (g.option? "roof"))
    | _ => none

/-- Brings dividers back onto ridges that were moved.  An empty output is none. -/
def Form.roofFix : Form where
  word := "roof-fix"
  options := [.roof, .output]
  request g :=
    match g.operands with
    | [before, after] =>
      let output := (g.option? "output").filter (· ≠ "")
      some (.roofFix (.ofText before) (.ofText after) (g.option? "roof") (output.map .ofText))
    | _ => none

/-- Draws a plan. -/
def Form.render : Form where
  word := "render"
  options := [.output, ⟨"level", 'l'⟩]
  request g :=
    match g.operands with
    | [house] =>
      let output := (g.option? "output").getD "plan.png"
      some (.render (.ofText house) (.ofText output) (g.option? "level"))
    | _ => none

/-- Writes a sample house. -/
def Form.sample : Form where
  word := "sample"
  options := [⟨"generator", 'g'⟩]
  request g :=
    match g.operands with
    | [output] => some (.sample (.ofText output) ((g.option? "generator").getD "reference"))
    | _ => none

/-- Tells the version. -/
def Form.version : Form where
  word := "version"
  options := []
  request g := if g.operands.isEmpty then some .version else none

/-- All commands. -/
def forms : List Form :=
  [.validate, .derive, .roofCheck, .roofFix, .render, .sample, .version]

namespace Request

/-- The request that the arguments of a command make. -/
def ofForm? (form : Form) (arguments : List String) : Option Request := do
  let g ← Given.nothing.read form.options arguments
  if g.help then return .help else form.request g

/-- The request of a command and its arguments. -/
def ofCommand? : List String → Option Request
  | [] => none
  | word :: arguments => do ofForm? (← forms.find? (·.word == word)) arguments

/-- Whether an argument before the command asks for more to be told while working. -/
def isVerbose (s : String) : Bool :=
  match s.toList with
  | '-' :: c :: cs => s == "--verbose" || (c :: cs).all (· == 'v')
  | _ => false

/-- The request that arguments make. -/
def ofArguments? : List String → Option Request
  | [] => none
  | s :: rest =>
    if isVerbose s then ofArguments? rest
    else
      match Token.ofArgument s with
      | .operand _ => ofCommand? (s :: rest)
      | .endOfOptions => ofCommand? rest
      | .long "help" none => some .help
      | _ => none

end Request

end Housewright.Command
