import PressRegister.Query
import PressRegister.Schema
import PressRegister.Supply

/-!
# Consulting the store

Steps of a submission ask the store questions and draw random names. A step ends
with a value or an error; what was asked and drawn before an error stays asked
and drawn.

## Main definitions

* `Directory`: the schema and the answers of a store.
* `Desk`: the questions asked so far, and the supply of random names.
* `Consult`: steps that consult a store.
-/

namespace PressRegister

/-- A question to a store: the text of a query and the values of its variables. -/
structure Question where
  text : String
  bindings : Table String
  deriving DecidableEq, Repr

/-- What can be known of a store: its schema, and its answers to questions. -/
structure Directory where
  schema : Schema
  answer : Question → Except Error Json

/-- The questions asked so far, in order, and the supply of random names. -/
structure Desk where
  asked : List Question
  supply : Supply

/-- A step that consults a store. -/
abbrev Consult (α : Type) := ExceptT Error (StateM Desk) α

namespace Consult

/-- Goes on with the value of a computation, or ends with its error. -/
def settle {α : Type} (x : Except Error α) : Consult α :=
  fun desk => (x, desk)

/-- Ends with an error. -/
def fail {α : Type} (e : Error) : Consult α :=
  settle (.error e)

/-- Draws on the supply of random names. -/
def draw {α : Type} (f : Supply → α × Supply) : Consult α :=
  fun desk => (.ok (f desk.supply).1, { desk with supply := (f desk.supply).2 })

/-- Draws on the supply of random names in a computation that may fail. -/
def tryDraw {α : Type} (f : Supply → Except Error (α × Supply)) : Consult α :=
  fun desk => match f desk.supply with
    | .ok (value, supply) => (.ok value, { desk with supply })
    | .error e => (.error e, desk)

/-- Asks a question. -/
def ask (d : Directory) (q : Question) : Consult Json :=
  fun desk => (d.answer q, { desk with asked := desk.asked ++ [q] })

end Consult

end PressRegister
