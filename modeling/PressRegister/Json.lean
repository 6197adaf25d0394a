import PressRegister.Number.Double
import PressRegister.Table

/-!
# JSON values

Whole numbers and fractional numbers are kept apart. The members of an object
stand in the order of their names, each name once.

## Main definitions

* `Json`: the values.
* `Json.ofMembers`: objects by name order, the last value of a name counting.
* `Json.member?`: the member of an object with a name.
* `Json.double?`: a number as a double.
-/

namespace PressRegister

open Number

/-- A JSON value. -/
inductive Json where
  | null
  | bool (b : Bool)
  | int (n : Int)
  | float (d : Double)
  | string (s : String)
  | array (items : List Json)
  | object (members : List (String × Json))
  deriving Repr, Inhabited

namespace Json

/-- An object with the given members; of two with one name the later counts. -/
def ofMembers (members : List (String × Json)) : Json :=
  .object (Table.ofList members).entries

/-- The member of an object with a name. -/
def member? (name : String) : Json → Option Json
  | .object members => members.lookup name
  | _ => none

/-- The items of an array. -/
def items? : Json → Option (List Json)
  | .array items => some items
  | _ => none

/-- The text of a string. -/
def string? : Json → Option String
  | .string s => some s
  | _ => none

/-- A number as the nearest double. -/
def double? : Json → Option Double
  | .int n => some (Double.ofInt n)
  | .float d => some d
  | _ => none

/-- An array of strings. -/
def ofStrings (texts : List String) : Json :=
  .array (texts.map .string)

end Json

end PressRegister
