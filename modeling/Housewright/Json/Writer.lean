import Housewright.Decimal.Shortest
import Housewright.Json.Value

/-!
# Writing JSON text

`TextStyle` says how values are laid out; `render` writes them.  Numbers are written with
the fewest digits that read back.  Numbers that are not finite have no standard spelling:
a style writes them as tokens, and `finiteOnly` is the value in which each of them has
become `null`, as saved files have it.
-/

namespace Housewright.Json

/-- How a value is laid out: how many blanks each level is indented by, everything on one
line if none are given, and whether characters outside ASCII are escaped. -/
structure TextStyle where
  indent : Option Nat
  asciiOnly : Bool

/-- Everything on one line, in ASCII. -/
def TextStyle.line : TextStyle := ⟨none, true⟩

/-- Indented by two, characters as they are. -/
def TextStyle.page : TextStyle := ⟨some 2, false⟩

/-- A digit in base sixteen. -/
def hexDigit (n : Nat) : Char := (Nat.digitChar (n % 16))

/-- The escape of a unit of sixteen bits. -/
def unitEscape (u : Nat) : List Char :=
  ['\\', 'u', hexDigit (u / 4096), hexDigit (u / 256), hexDigit (u / 16), hexDigit u]

/-- A character inside a string. -/
def escapeChar (asciiOnly : Bool) (c : Char) : List Char :=
  if c = '"' then ['\\', '"']
  else if c = '\\' then ['\\', '\\']
  else if c = '\n' then ['\\', 'n']
  else if c = '\r' then ['\\', 'r']
  else if c = '\t' then ['\\', 't']
  else if c = '\x08' then ['\\', 'b']
  else if c = '\x0c' then ['\\', 'f']
  else if c.toNat < 0x20 then unitEscape c.toNat
  else if asciiOnly && 0x7E < c.toNat then
    if c.toNat < 0x10000 then unitEscape c.toNat
    else
      let v := c.toNat - 0x10000
      unitEscape (0xD800 + v / 0x400) ++ unitEscape (0xDC00 + v % 0x400)
  else [c]

/-- A string with its quotes. -/
def quote (style : TextStyle) (s : String) : String :=
  String.ofList ('"' :: (s.toList.flatMap (escapeChar style.asciiOnly) ++ ['"']))

/-- The text between two items at the given depth. -/
def TextStyle.break (style : TextStyle) (depth : Nat) : String :=
  match style.indent with
  | none => ""
  | some n => "\n" ++ String.ofList (List.replicate (n * depth) ' ')

/-- Items between brackets, each on a line of its own if the style indents. -/
def bracket (style : TextStyle) (depth : Nat) (opening closing : String) (items : List String) :
    String :=
  if items.isEmpty then opening ++ closing
  else
    opening ++ style.break (depth + 1) ++
      String.intercalate ((if style.indent.isSome then "," else ", ") ++ style.break (depth + 1))
        items ++
      style.break depth ++ closing

mutual

/-- The text of a value at the given depth. -/
def renderAt (style : TextStyle) (depth : Nat) : Json → String
  | .null => "null"
  | .bool true => "true"
  | .bool false => "false"
  | .int n => toString n
  | .num x => (Decimal.Layout.plain .tokens).render x
  | .str s => quote style s
  | .arr elements => bracket style depth "[" "]" (renderElements style (depth + 1) elements)
  | .obj members => bracket style depth "\x7b" "\x7d" (renderMembers style (depth + 1) members)

/-- The texts of the elements of an array. -/
def renderElements (style : TextStyle) (depth : Nat) : List Json → List String
  | [] => []
  | v :: rest => renderAt style depth v :: renderElements style depth rest

/-- The texts of the members of an object. -/
def renderMembers (style : TextStyle) (depth : Nat) : List (String × Json) → List String
  | [] => []
  | (k, v) :: rest =>
    (quote style k ++ ": " ++ renderAt style depth v) :: renderMembers style depth rest

end

/-- The text of a value. -/
def render (style : TextStyle) (v : Json) : String := renderAt style 0 v

mutual

/-- The value with `null` for every number that is not finite. -/
def finiteOnly : Json → Json
  | .num x => if x.isFinite then .num x else .null
  | .arr elements => .arr (finiteElements elements)
  | .obj members => .obj (finiteMembers members)
  | v => v

/-- The elements with `null` for every number that is not finite. -/
def finiteElements : List Json → List Json
  | [] => []
  | v :: rest => finiteOnly v :: finiteElements rest

/-- The members with `null` for every number that is not finite. -/
def finiteMembers : List (String × Json) → List (String × Json)
  | [] => []
  | (k, v) :: rest => (k, finiteOnly v) :: finiteMembers rest

end

end Housewright.Json
