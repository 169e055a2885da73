/-!
# JSON values

Whole numbers and other numbers are kept apart: `5` is a `Json.int` of any size, `5.0`
and `5e0` are `Json.num`.  The members of an object have distinct keys and keep the order
in which the keys first appeared; `Json.set` is how a member is written.
-/

namespace Housewright

/-- A JSON value. -/
inductive Json where
  | null
  | bool (b : Bool)
  | int (n : Int)
  | num (x : Float)
  | str (s : String)
  | arr (elements : List Json)
  | obj (members : List (String × Json))
  deriving Inhabited

namespace Json

/-- The value of a member. -/
def member? (key : String) : List (String × Json) → Option Json
  | [] => none
  | (k, v) :: rest => if k = key then some v else member? key rest

/-- The members with one of them written: in place if the key is there, else at the end. -/
def set (key : String) (value : Json) : List (String × Json) → List (String × Json)
  | [] => [(key, value)]
  | (k, v) :: rest => if k = key then (k, value) :: rest else (k, v) :: set key value rest

/-- A member that was written is found. -/
@[simp] theorem member?_set_self (key : String) (value : Json) (members : List (String × Json)) :
    member? key (set key value members) = some value := by
  induction members with
  | nil => simp [set, member?]
  | cons m rest ih =>
    by_cases h : m.1 = key
    · simp [set, member?, h]
    · simp [set, member?, h, ih]

/-- Writing a member leaves the others alone. -/
theorem member?_set_of_ne {key other : String} (h : other ≠ key) (value : Json)
    (members : List (String × Json)) :
    member? other (set key value members) = member? other members := by
  induction members with
  | nil => simp [set, member?, h.symm]
  | cons m rest ih =>
    by_cases hk : m.1 = key
    · simp [set, member?, hk, h.symm]
    · by_cases ho : m.1 = other <;> simp [set, member?, hk, ho, h, ih]

/-- The members without one of them. -/
def without (key : String) (members : List (String × Json)) : List (String × Json) :=
  members.filter fun m => m.1 ≠ key

/-- The last value given for a key counts, in the place of the first. -/
def ofMembers (members : List (String × Json)) : Json :=
  .obj (members.foldl (fun acc m => set m.1 m.2 acc) [])

/-- A value that may be missing, with `null` for a missing one. -/
def ofOption {α : Type} (f : α → Json) : Option α → Json
  | none => .null
  | some a => f a

/-- An array of encoded values. -/
def ofList {α : Type} (f : α → Json) (xs : List α) : Json := .arr (xs.map f)

/-- A count or an index. -/
def nat (n : Nat) : Json := .int (Int.ofNat n)

end Json

end Housewright
