import Housewright.Decimal.Reading
import Housewright.Json.Blank
import Housewright.Json.Decoded

/-!
# Decoding the parts of a description

The decoders of plain values are lenient: numbers and truth values may be given as
strings, truth values as numbers, and whole numbers as numbers without a fraction.

A field is looked up under its name in camel case, else under the same name in snake case
(`wallThickness`, `wall_thickness`).  Members that name no field are ignored.  Complaints
name the key that was found, and the camel-case name if none was.
-/

namespace Housewright.Json

/-- Decodes a value. -/
abbrev Decoder (α : Type) := Json → Decoded α

/-! ## Plain values -/

/-- A string, and nothing else. -/
def string : Decoder String
  | .str s => .value s
  | _ => .refuse .expectedString

/-- A number without its sign: digits, maybe with a point and an exponent. -/
def unsignedNumber? (negative : Bool) (cs : List Char) : Option Float :=
  let word := cs.map Char.toLower
  if word = "inf".toList ∨ word = "infinity".toList then
    some (if negative then -1.0 / 0.0 else 1.0 / 0.0)
  else if word = "nan".toList then some (0.0 / 0.0)
  else
    let (whole, rest) := Decimal.spanDigits cs
    let (fraction, rest) := match rest with
      | '.' :: r => Decimal.spanDigits r
      | r => ([], r)
    if whole.isEmpty ∧ fraction.isEmpty then none
    else
      let coefficient := Decimal.digitsValue (whole ++ fraction)
      let exponent : Int := -(fraction.length : Int)
      let exponentOf (negativeExponent : Bool) (r : List Char) : Option Float :=
        let (ds, r) := Decimal.spanDigits r
        if ds.isEmpty ∨ ¬ r.isEmpty then none
        else
          let n : Int := Decimal.digitsValue ds
          some (Decimal.ofDecimal negative coefficient
            (exponent + if negativeExponent then -n else n))
      match rest with
      | [] => some (Decimal.ofDecimal negative coefficient exponent)
      | c :: r =>
        if c = 'e' ∨ c = 'E' then
          match r with
          | '-' :: r => exponentOf true r
          | '+' :: r => exponentOf false r
          | r => exponentOf false r
        else none

/-- A number with an optional sign. -/
def signedNumber? : List Char → Option Float
  | '-' :: cs => unsignedNumber? true cs
  | '+' :: cs => unsignedNumber? false cs
  | cs => unsignedNumber? false cs

/-- The text without underscores, if it has some and each of them stands alone between two
other characters. -/
def withoutUnderscores? (cs : List Char) : Option (List Char) :=
  let alone := (cs.zip (cs.drop 1)).all fun p => ¬ (p.1 = '_' ∧ p.2 = '_')
  if cs.contains '_' ∧ cs.head? ≠ some '_' ∧ cs.getLast? ≠ some '_' ∧ alone then
    some (cs.filter (· ≠ '_'))
  else none

/-- The number a string holds. -/
def numberOfText? (s : String) : Option Float :=
  match signedNumber? (trimSpace s.toList) with
  | some x => some x
  | none => (withoutUnderscores? s.toList).bind signedNumber?

/-- A number; truth values count as one and zero, and strings may hold a number. -/
def number : Decoder Float
  | .num x => .value x
  | .int n => .value (Decimal.ofInt n)
  | .bool b => .value (if b then 1.0 else 0.0)
  | .str s =>
    match numberOfText? s with
    | some x => .value x
    | none => .refuse .unreadableNumber
  | _ => .refuse .expectedNumber

/-- The integer a string holds: a sign, digits with single underscores between them, and a
fraction of zeros. -/
def integerOfText (s : String) : Decoded Int :=
  let (negative, cs) := match trimSpace s.toList with
    | '-' :: cs => (true, cs)
    | '+' :: cs => (false, cs)
    | cs => (false, cs)
  let (whole, rest) := cs.span fun c => c.isDigit || c = '_'
  let ds := if whole.contains '_' then withoutUnderscores? whole else some whole
  let fractionOfZeros : Bool := match rest with
    | [] => true
    | '.' :: zeros => !zeros.isEmpty && zeros.all (· = '0')
    | _ => false
  match ds with
  | none => .refuse .unreadableInteger
  | some ds =>
    if ds.isEmpty ∨ ¬ fractionOfZeros then .refuse .unreadableInteger
    else if 4300 < ds.length then .refuse .oversizedInteger
    else
      let n : Int := Decimal.digitsValue ds
      .value (if negative then -n else n)

/-- The whole number that a number is. -/
def integerOfNumber (x : Float) : Decoded Int :=
  match Decimal.BinaryForm.ofFloat? x with
  | none => .refuse .infiniteInteger
  | some b =>
    let (top, bottom) := b.ratio
    if top % bottom ≠ 0 then .refuse .fractionalInteger
    else
      let n : Int := Int.ofNat (top / bottom)
      if n < Nat.pow 2 63 then .value (if b.negative then -n else n) else .refuse .oversizedInteger

/-- An integer. -/
def integer : Decoder Int
  | .int n => .value n
  | .num x => integerOfNumber x
  | .bool b => .value (if b then 1 else 0)
  | .str s => integerOfText s
  | _ => .refuse .expectedInteger

/-- The truth value that an integer stands for. -/
def truthOfInteger (n : Int) : Decoded Bool :=
  if n = 0 then .value false else if n = 1 then .value true else .refuse .unreadableBoolean

/-- Words for true. -/
def wordsForTrue : List String := ["1", "on", "t", "true", "y", "yes"]

/-- Words for false. -/
def wordsForFalse : List String := ["0", "off", "f", "false", "n", "no"]

/-- A truth value; words, zero and one stand for truth values too. -/
def boolean : Decoder Bool
  | .bool b => .value b
  | .int n => if n.natAbs < Nat.pow 2 63 then truthOfInteger n else .refuse .expectedBoolean
  | .num x =>
    match integerOfNumber x with
    | .value n => truthOfInteger n
    | .refused _ => .refuse .expectedBoolean
  | .str s =>
    let w := String.ofList (s.toList.map Char.toLower)
    if wordsForTrue.contains w then .value true
    else if wordsForFalse.contains w then .value false
    else .refuse .unreadableBoolean
  | _ => .refuse .expectedBoolean

/-- The value that a word stands for. -/
def lookupWord? {α : Type} (table : List (String × α)) : Json → Option α
  | .str s => (table.find? (·.1 == s)).map (·.2)
  | _ => none

/-- One of some words. -/
def word {α : Type} (table : List (String × α)) : Decoder α := fun j =>
  match lookupWord? table j with
  | some a => .value a
  | none => .refuse (.unknownWord (table.map (·.1)))

/-- The name of one of some kinds. -/
def namedKind {α : Type} (table : List (String × α)) : Decoder α := fun j =>
  match lookupWord? table j with
  | some a => .value a
  | none => .refuse (.unknownName (table.map (·.1)))

/-- Anything that `null` may stand in for. -/
def nullable {α : Type} (d : Decoder α) : Decoder (Option α)
  | .null => .value none
  | j => (d j).map some

/-- Decodes elements from the given index on. -/
def elementsFrom {α : Type} (d : Decoder α) : Nat → List Json → Decoded (List α)
  | _, [] => .value []
  | i, j :: rest => List.cons <$> (d j).below (.index i) <*> elementsFrom d (i + 1) rest

/-- An array whose elements are all alike. -/
def list {α : Type} (d : Decoder α) : Decoder (List α)
  | .arr xs => elementsFrom d 0 xs
  | _ => .refuse .expectedArray

/-- An object as it is. -/
def anyObject : Decoder (List (String × Json))
  | .obj ms => .value ms
  | _ => .refuse .expectedObject

/-! ## Objects with fields -/

/-- The name of a field in snake case. -/
def snakeCase (camel : String) : String :=
  String.ofList (camel.toList.flatMap fun c => if c.isUpper then ['_', c.toLower] else [c])

/-- The member that holds a field, with the key it was found under. -/
def field? (key : String) (ms : List (String × Json)) : Option (String × Json) :=
  match member? key ms with
  | some v => some (key, v)
  | none => (member? (snakeCase key) ms).map (snakeCase key, ·)

/-- A field that has to be there. -/
def required {α : Type} (ms : List (String × Json)) (key : String) (d : Decoder α) :
    Decoded α :=
  match field? key ms with
  | some (k, v) => (d v).below (.key k)
  | none => .refused [⟨[.key key], .missing⟩]

/-- A field that has a default. -/
def withDefault {α : Type} (ms : List (String × Json)) (key : String) (default : α)
    (d : Decoder α) : Decoded α :=
  match field? key ms with
  | some (k, v) => (d v).below (.key k)
  | none => .value default

/-- A field that may be missing or `null`. -/
def maybe {α : Type} (ms : List (String × Json)) (key : String) (d : Decoder α) :
    Decoded (Option α) :=
  withDefault ms key none (nullable d)

/-- A described thing: an object whose members are fields. -/
def thing {α : Type} (d : List (String × Json) → Decoded α) : Decoder α
  | .obj ms => d ms
  | _ => .refuse .expectedThing

/-! ## Tagged values -/

/-- A variant of a tagged value: its tag, and the decoder of the fields. -/
structure Variant (α : Type) where
  tag : String
  decode : List (String × Json) → Decoded α

/-- Decodes with the variant of the given tag; complaints are placed below the tag. -/
def selectVariant {α : Type} (d : Discriminator) (variants : List (Variant α)) (tag : Json)
    (ms : List (String × Json)) : Decoded α :=
  let found : Option (Variant α) := match tag with
    | .str s => variants.find? fun v => v.tag == s
    | _ => none
  match found with
  | some v => (v.decode ms).below (.key v.tag)
  | none => .refuse (.tagUnknown tag d (variants.map fun v => v.tag))

/-- A value whose member `type` is its tag. -/
def tagged {α : Type} (variants : List (Variant α)) : Decoder α
  | .obj ms =>
    match member? "type" ms with
    | some tag => selectVariant (.member "type") variants tag ms
    | none => .refuse (.tagNotFound (.member "type"))
  | _ => .refuse .expectedObject

end Housewright.Json
