import PressRegister.Json
import PressRegister.Number.Double.Text
import PressRegister.Text.Quoted

/-!
# Written JSON

## Main definitions

* `Json.numberText?`: the text of a number.
* `Json.compact`: a value on one line, without blanks.
* `Json.pretty`: a value with one item a line, indented by two blanks a level.
-/

namespace PressRegister.Json

open Number

/-- A double as a JSON number; infinities and what is no number are written `null`. -/
def doubleChars (d : Double) : List Char :=
  if d.isFinite then d.chars .scientific else "null".toList

/-- A member's name and the colon after it. -/
def nameChars (name : String) : List Char :=
  Text.quoteChars name.toList ++ [':']

mutual

/-- A value on one line. -/
def compactChars : Json → List Char
  | .null => "null".toList
  | .bool true => "true".toList
  | .bool false => "false".toList
  | .int n => intChars n
  | .float d => doubleChars d
  | .string s => Text.quoteChars s.toList
  | .array items => '[' :: compactItems items
  | .object members => '{' :: compactMembers members

/-- The items of an array and the bracket that closes it. -/
def compactItems : List Json → List Char
  | [] => [']']
  | [v] => compactChars v ++ [']']
  | v :: rest => compactChars v ++ ',' :: compactItems rest

/-- The members of an object and the brace that closes it. -/
def compactMembers : List (String × Json) → List Char
  | [] => ['}']
  | [m] => nameChars m.1 ++ compactChars m.2 ++ ['}']
  | m :: rest => nameChars m.1 ++ compactChars m.2 ++ ',' :: compactMembers rest

end

/-- A value on one line. -/
def compact (v : Json) : String :=
  String.ofList v.compactChars

/-- A line break and the indentation of a level. -/
def newLine (level : Nat) : List Char :=
  '\n' :: List.replicate (2 * level) ' '

mutual

/-- A value that starts at a level, one item a line. -/
def prettyChars (level : Nat) : Json → List Char
  | .array (v :: rest) =>
    '[' :: newLine (level + 1) ++ prettyChars (level + 1) v ++ prettyItems level rest
  | .object (m :: rest) =>
    '{' :: newLine (level + 1) ++ nameChars m.1 ++ ' ' :: prettyChars (level + 1) m.2 ++
      prettyMembers level rest
  | v => v.compactChars

/-- The further items of an array and the bracket that closes it. -/
def prettyItems (level : Nat) : List Json → List Char
  | [] => newLine level ++ [']']
  | v :: rest =>
    ',' :: newLine (level + 1) ++ prettyChars (level + 1) v ++ prettyItems level rest

/-- The further members of an object and the brace that closes it. -/
def prettyMembers (level : Nat) : List (String × Json) → List Char
  | [] => newLine level ++ ['}']
  | m :: rest =>
    ',' :: newLine (level + 1) ++ nameChars m.1 ++ ' ' :: prettyChars (level + 1) m.2 ++
      prettyMembers level rest

end

/-- A value with one item a line. -/
def pretty (v : Json) : String :=
  String.ofList (v.prettyChars 0)

/-- The text of a number, a string or a truth value. -/
def scalarText? : Json → Option String
  | .string s => some s
  | .int n => some (intText n)
  | .float d => some (String.ofList (doubleChars d))
  | .bool true => some "true"
  | .bool false => some "false"
  | _ => none

end PressRegister.Json
