import PressRegister.Consult
import PressRegister.Store
import PressRegister.Text.Word

/-!
# Answers of the node table

Two kinds of questions are answered from the nodes: which node has a value under a
predicate, and what the fields of a node are. Any other question gets one fixed
answer.

## Main definitions

* `Store.row?`: what an answer tells of a node.
* `Store.valueField?`: the predicate that a question looks a value up in.
* `Store.answer`: the answer to a question.
-/

namespace PressRegister.Store

open Text

/-- The predicates whose values are told as nodes. -/
def nodeFields : List String := ["entry_added", "reviewed_by"]

/-- How an answer tells the values of a predicate. A single value stands for itself. -/
def fieldJson (name : String) (values : List String) : Json :=
  if nodeFields.contains name then
    .object [("uid", match values.head? with
      | some u => .string u
      | none => .null)]
  else match values with
    | [value] => .string value
    | values => Json.ofStrings values

/-- What an answer tells of a node. -/
def row? (s : Store) (uid : String) : Option Json :=
  (s.node? uid).map fun n =>
    Json.ofMembers ([("uid", .string uid), (Search.typeKey, Json.ofStrings n.types)] ++
      n.fields.entries.map fun f => (f.1, fieldJson f.1 f.2))

/-- The rest of a text after a given start. -/
def rest? : List Char → List Char → Option (List Char)
  | [], cs => some cs
  | p :: ps, c :: cs => if p = c then rest? ps cs else none
  | _ :: _, [] => none

/-- Whether a character may stand in the name of a predicate in a question. -/
def isFieldChar (c : Char) : Bool :=
  isWord c || c == '.'

/-- The predicate of a comparison with the value of a look-up, if a text starts with one. -/
def comparison? (cs : List Char) : Option String := do
  let cs ← rest? "eq(".toList cs
  let name := cs.takeWhile isFieldChar
  let _ ← rest? ", $value)".toList (cs.dropWhile isFieldChar)
  if name.isEmpty then none else some (String.ofList name)

/-- The predicate that a question looks a value up in. -/
def valueField? : List Char → Option String
  | [] => none
  | c :: cs => (comparison? (c :: cs)).or (valueField? cs)

/-- Whether a text occurs in another. -/
def occurs (part : List Char) : List Char → Bool
  | [] => part.isEmpty
  | c :: cs => (rest? part (c :: cs)).isSome || occurs part cs

/-- An answer with the given nodes. -/
def rowsJson (rows : List Json) : Json :=
  .object [("q", .array rows)]

/-- The answer to questions that nothing else answers. -/
def noResults : Json :=
  .object [("q", .array []), ("total", .array [.object [("count", .int 0)]])]

/-- The first node that has a value under a predicate. -/
def holder? (s : Store) (field value : String) : Option String :=
  s.nodes.findKey? fun _ n => (n.values field).contains value

/-- The answer to a question; `fixed` answers all questions but look-ups. -/
def answer (s : Store) (fixed : Option Json) (q : Question) : Json :=
  match valueField? q.text.toList with
  | some field =>
    let value := (q.bindings.get? "$value").getD ""
    rowsJson ((s.holder? field value).map fun u => Json.object [("uid", .string u)]).toList
  | none =>
    if occurs "uid($uid)".toList q.text.toList then
      rowsJson (s.row? ((q.bindings.get? "$uid").getD "")).toList
    else fixed.getD noResults

end PressRegister.Store
