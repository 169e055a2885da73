import Housewright.Decimal.Reading
import Housewright.Json.Value

/-!
# Reading JSON text

`Json.parse?` accepts exactly one value, with blanks around it.  Beyond the standard
grammar it takes the number tokens `NaN`, `Infinity` and `-Infinity`.  It refuses
whole numbers of more than 4300 digits, raw control characters and unpaired surrogates in
strings, and values nested more than 201 deep.

Each reader takes the text that is left and gives back what follows the thing it read.
The readers of values, elements and members share one measure.  Twice the length of the
text is enough of it, for every second step takes a character away.
-/

namespace Housewright.Json

/-- How deep arrays and objects may be nested. -/
def depthLimit : Nat := 201

/-- How many digits a whole number may have. -/
def digitLimit : Nat := 4300

/-- The blanks of JSON. -/
def isBlank (c : Char) : Bool := c = ' ' || c = '\t' || c = '\n' || c = '\r'

/-- The text without the blanks at its front. -/
def skipBlanks (cs : List Char) : List Char := cs.dropWhile isBlank

/-- What follows a word at the front of the text. -/
def afterWord? : List Char → List Char → Option (List Char)
  | [], cs => some cs
  | _ :: _, [] => none
  | w :: ws, c :: cs => if w = c then afterWord? ws cs else none

/-- The value of a hexadecimal digit. -/
def hexDigit? (c : Char) : Option Nat :=
  if '0' ≤ c ∧ c ≤ '9' then some (c.toNat - '0'.toNat)
  else if 'a' ≤ c ∧ c ≤ 'f' then some (c.toNat - 'a'.toNat + 10)
  else if 'A' ≤ c ∧ c ≤ 'F' then some (c.toNat - 'A'.toNat + 10)
  else none

/-- The value of four hexadecimal digits. -/
def hexUnit? (a b c d : Char) : Option Nat := do
  let a ← hexDigit? a
  let b ← hexDigit? b
  let c ← hexDigit? c
  let d ← hexDigit? d
  return ((a * 16 + b) * 16 + c) * 16 + d

/-- The character of a one-letter escape. -/
def shortEscape? : Char → Option Char
  | '"' => some '"'
  | '\\' => some '\\'
  | '/' => some '/'
  | 'b' => some '\x08'
  | 'f' => some '\x0c'
  | 'n' => some '\n'
  | 'r' => some '\r'
  | 't' => some '\t'
  | _ => none

/-- The rest of a string after its opening quote, and what follows its closing quote.
`acc` holds the characters read so far, last one first. -/
def readString (acc : List Char) : List Char → Option (String × List Char)
  | [] => none
  | '"' :: rest => some (String.ofList acc.reverse, rest)
  | '\\' :: 'u' :: a :: b :: c :: d :: rest =>
    match hexUnit? a b c d with
    | none => none
    | some u =>
      if u < 0xD800 ∨ 0xDFFF < u then readString (Char.ofNat u :: acc) rest
      else if 0xDC00 ≤ u then none
      else
        match rest with
        | '\\' :: 'u' :: e :: f :: g :: h :: rest' =>
          match hexUnit? e f g h with
          | none => none
          | some v =>
            if 0xDC00 ≤ v ∧ v ≤ 0xDFFF then
              readString (Char.ofNat (0x10000 + (u - 0xD800) * 0x400 + (v - 0xDC00)) :: acc) rest'
            else none
        | _ => none
  | '\\' :: c :: rest =>
    match shortEscape? c with
    | some e => readString (e :: acc) rest
    | none => none
  | c :: rest => if c.toNat < 0x20 then none else readString (c :: acc) rest

/-- A string ends at a quote that is not escaped. -/
theorem readString_closing (acc rest : List Char) :
    readString acc ('"' :: rest) = some (String.ofList acc.reverse, rest) := by
  rw [readString]

/-- The value of some digits with a sign, and what follows them. -/
def readDigits? (negative : Bool) (cs : List Char) : Option (Int × List Char) :=
  let (ds, rest) := Decimal.spanDigits cs
  if ds.isEmpty then none
  else
    let n : Int := Decimal.digitsValue ds
    some (if negative then -n else n, rest)

/-- The value of an exponent, and what follows it. -/
def readExponent? : List Char → Option (Int × List Char)
  | '-' :: cs => readDigits? true cs
  | '+' :: cs => readDigits? false cs
  | cs => readDigits? false cs

/-- The digits after the point of a number, if it has one, and what follows them. -/
def readFraction? : List Char → Option (Option (List Char) × List Char)
  | '.' :: cs =>
    let (ds, rest) := Decimal.spanDigits cs
    if ds.isEmpty then none else some (some ds, rest)
  | cs => some (none, cs)

/-- The exponent of a number, if it has one, and what follows it. -/
def readExponentPart? : List Char → Option (Option Int × List Char)
  | [] => some (none, [])
  | c :: cs =>
    if c = 'e' ∨ c = 'E' then (readExponent? cs).map fun e => (some e.1, e.2)
    else some (none, c :: cs)

/-- The number with the given parts; with neither a fraction nor an exponent it is whole. -/
def numberOfParts? (negative : Bool) (whole : List Char) :
    Option (List Char) → Option Int → Option Json
  | none, none =>
    let n : Int := Decimal.digitsValue whole
    if digitLimit < whole.length then none else some (.int (if negative then -n else n))
  | fraction, exponent =>
    let ds := fraction.getD []
    some (.num (Decimal.ofDecimal negative (Decimal.digitsValue (whole ++ ds))
      (-(ds.length : Int) + exponent.getD 0)))

/-- A number without its sign, and what follows it. -/
def readUnsigned? (negative : Bool) (cs : List Char) : Option (Json × List Char) := do
  let (whole, rest) := Decimal.spanDigits cs
  if whole.isEmpty ∨ (whole.head? = some '0' ∧ 1 < whole.length) then none
  else
    let (fraction, rest) ← readFraction? rest
    let (exponent, rest) ← readExponentPart? rest
    let v ← numberOfParts? negative whole fraction exponent
    return (v, rest)

/-- A number, and what follows it. -/
def readNumber? : List Char → Option (Json × List Char)
  | '-' :: cs =>
    match afterWord? "Infinity".toList cs with
    | some rest => some (.num (-1.0 / 0.0), rest)
    | none => readUnsigned? true cs
  | cs => readUnsigned? false cs

mutual

/-- A value at the front of the text, and what follows it. -/
def readValue (depth : Nat) : Nat → List Char → Option (Json × List Char)
  | 0, _ => none
  | n + 1, cs =>
    match cs with
    | [] => none
    | '{' :: rest =>
      if depth = 0 then none
      else
        match skipBlanks rest with
        | '}' :: rest' => some (.obj [], rest')
        | rest' => (readMembers (depth - 1) n [] rest').map fun r => (ofMembers r.1, r.2)
    | '[' :: rest =>
      if depth = 0 then none
      else
        match skipBlanks rest with
        | ']' :: rest' => some (.arr [], rest')
        | rest' => (readElements (depth - 1) n [] rest').map fun r => (.arr r.1, r.2)
    | '"' :: rest => (readString [] rest).map fun r => (.str r.1, r.2)
    | 't' :: _ => (afterWord? "true".toList cs).map (.bool true, ·)
    | 'f' :: _ => (afterWord? "false".toList cs).map (.bool false, ·)
    | 'n' :: _ => (afterWord? "null".toList cs).map (.null, ·)
    | 'N' :: _ => (afterWord? "NaN".toList cs).map (.num (0.0 / 0.0), ·)
    | 'I' :: _ => (afterWord? "Infinity".toList cs).map (.num (1.0 / 0.0), ·)
    | _ => readNumber? cs

/-- The elements of an array up to its closing bracket; `acc` holds those already read,
last one first. -/
def readElements (depth : Nat) : Nat → List Json → List Char → Option (List Json × List Char)
  | 0, _, _ => none
  | n + 1, acc, cs =>
    match readValue depth n (skipBlanks cs) with
    | none => none
    | some (v, rest) =>
      match skipBlanks rest with
      | ',' :: rest' => readElements depth n (v :: acc) rest'
      | ']' :: rest' => some ((v :: acc).reverse, rest')
      | _ => none

/-- The members of an object up to its closing brace; `acc` holds those already read, last
one first. -/
def readMembers (depth : Nat) :
    Nat → List (String × Json) → List Char → Option (List (String × Json) × List Char)
  | 0, _, _ => none
  | n + 1, acc, cs =>
    match skipBlanks cs with
    | '"' :: rest =>
      match readString [] rest with
      | none => none
      | some (key, rest) =>
        match skipBlanks rest with
        | ':' :: rest =>
          match readValue depth n (skipBlanks rest) with
          | none => none
          | some (v, rest) =>
            match skipBlanks rest with
            | ',' :: rest' => readMembers depth n ((key, v) :: acc) rest'
            | '}' :: rest' => some (((key, v) :: acc).reverse, rest')
            | _ => none
        | _ => none
    | _ => none

end

/-- The one value that a text holds. -/
def parse? (text : String) : Option Json :=
  let cs := text.toList
  match readValue depthLimit (2 * cs.length + 2) (skipBlanks cs) with
  | some (v, rest) => if (skipBlanks rest).isEmpty then some v else none
  | none => none

end Housewright.Json
