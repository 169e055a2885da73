import Housewright.Decimal.Shortest
import Housewright.Json.Value

/-!
# Decoding with all complaints

Decoding a JSON value either gives a result or refuses, with one complaint for everything
that is wrong.  `Decoded` is that outcome; it is an applicative and not a monad, so that
the complaints about one field never hide those about the next.

A complaint names the place, from the root down, and the reason.
-/

namespace Housewright.Json

/-- A part of a value: the member of an object, the element of an array, or the variant
that a tag selected. -/
inductive Place where
  | key (name : String)
  | index (n : Nat)
  deriving DecidableEq, Repr

/-- How the variant of a tagged value is found: by a member, or by a named rule. -/
inductive Discriminator where
  | member (key : String)
  | rule (name : String)

/-- The discriminator in a message. -/
def Discriminator.text : Discriminator → String
  | .member key => "'" ++ key ++ "'"
  | .rule name => name ++ "()"

/-- Why a value was refused. -/
inductive Reason where
  | missing
  /-- A described thing was expected, which is an object. -/
  | expectedThing
  /-- Any object was expected. -/
  | expectedObject
  | expectedArray
  | expectedString
  | expectedNumber
  | unreadableNumber
  | expectedInteger
  | unreadableInteger
  | fractionalInteger
  | oversizedInteger
  | infiniteInteger
  | expectedBoolean
  | unreadableBoolean
  /-- None of the names of a kind of thing. -/
  | unknownName (names : List String)
  /-- None of the words that may stand here. -/
  | unknownWord (words : List String)
  | tagNotFound (discriminator : Discriminator)
  | tagUnknown (tag : Json) (discriminator : Discriminator) (tags : List String)

/-- What was refused, and why. -/
structure Complaint where
  place : List Place
  reason : Reason

/-- Words in quotes. -/
def quoted (w : String) : String := "'" ++ w ++ "'"

/-- Alternatives: commas between all but the last two, which are joined by `or`. -/
def alternatives : List String → String
  | [] => ""
  | [w] => quoted w
  | [v, w] => quoted v ++ " or " ++ quoted w
  | w :: rest => quoted w ++ ", " ++ alternatives rest

mutual

/-- A tag in a message; strings inside arrays and objects are quoted. -/
def tagText (nested : Bool) : Json → String
  | .null => "None"
  | .bool true => "True"
  | .bool false => "False"
  | .int n => toString n
  | .num x => Decimal.shortest x
  | .str s => if nested then quoted s else s
  | .arr xs => "[" ++ String.intercalate ", " (tagTexts xs) ++ "]"
  | .obj ms => "\x7b" ++ String.intercalate ", " (memberTexts ms) ++ "\x7d"

/-- The elements of an array in a message. -/
def tagTexts : List Json → List String
  | [] => []
  | x :: xs => tagText true x :: tagTexts xs

/-- The members of an object in a message. -/
def memberTexts : List (String × Json) → List String
  | [] => []
  | (k, v) :: ms => (quoted k ++ ": " ++ tagText true v) :: memberTexts ms

end

/-- The reason in words. -/
def Reason.message : Reason → String
  | .missing => "Field required"
  | .expectedThing | .expectedObject => "Input should be an object"
  | .expectedArray => "Input should be a valid array"
  | .expectedString => "Input should be a valid string"
  | .expectedNumber => "Input should be a valid number"
  | .unreadableNumber =>
    "Input should be a valid number, unable to parse string as a number"
  | .expectedInteger => "Input should be a valid integer"
  | .unreadableInteger =>
    "Input should be a valid integer, unable to parse string as an integer"
  | .fractionalInteger =>
    "Input should be a valid integer, got a number with a fractional part"
  | .oversizedInteger =>
    "Unable to parse input string as an integer, exceeded maximum size"
  | .infiniteInteger => "Input should be a finite number"
  | .expectedBoolean => "Input should be a valid boolean"
  | .unreadableBoolean => "Input should be a valid boolean, unable to interpret input"
  | .unknownName names => "Input should be " ++ alternatives names
  | .unknownWord words => "Input should be " ++ alternatives words
  | .tagNotFound d => "Unable to extract tag using discriminator " ++ d.text
  | .tagUnknown tag d tags =>
    "Input tag '" ++ tagText false tag ++ "' found using " ++ d.text ++
      " does not match any of the expected tags: " ++ String.intercalate ", " (tags.map quoted)

/-- The outcome of decoding. -/
inductive Decoded (α : Type) where
  | value (a : α)
  | refused (complaints : List Complaint)

namespace Decoded

variable {α β : Type}

/-- Changes the result. -/
def map (f : α → β) : Decoded α → Decoded β
  | value a => value (f a)
  | refused cs => refused cs

/-- Applies a decoded function to a decoded argument; the complaints about both are kept,
those about the function first. -/
def apply : Decoded (α → β) → Decoded α → Decoded β
  | value f, value a => value (f a)
  | value _, refused cs => refused cs
  | refused cs, value _ => refused cs
  | refused cs, refused ds => refused (cs ++ ds)

instance : Applicative Decoded where
  pure := value
  map := map
  seq f a := f.apply (a ())

/-- Decodes on with the result.  A refusal stands alone: what comes after it is not looked
at. -/
def andThen (f : α → Decoded β) : Decoded α → Decoded β
  | value a => f a
  | refused cs => refused cs

/-- Refuses for one reason, at the value itself. -/
def refuse (r : Reason) : Decoded α := refused [⟨[], r⟩]

/-- The outcome for a part of a value: complaints are placed below it. -/
def below (p : Place) : Decoded α → Decoded α
  | value a => value a
  | refused cs => refused (cs.map fun c => ⟨p :: c.place, c.reason⟩)

/-- The result, if there is one. -/
def toOption : Decoded α → Option α
  | value a => some a
  | refused _ => none

end Decoded

end Housewright.Json
