import PressRegister.Consult
import PressRegister.Search

/-!
# Look-ups

Questions about single nodes. Every operand of a look-up travels beside the query
as the value of a variable, never inside its text.

## Main definitions

* `Lookup.Row`: what an answer tells of a node, with `Lookup.rows` as its reader.
* `EntryInfo`: what a change of an entry needs to know of it.
* `Lookup.findUid`, `Lookup.types`, `Lookup.uniqueName`, `Lookup.entryInfo`: the look-ups.
-/

namespace PressRegister

/-- What a change of an entry needs to know of it. -/
structure EntryInfo where
  uid : Uid
  uniqueName : Option String
  types : List String
  status : Option ReviewStatus
  /-- The account that submitted the entry. -/
  submitter : Option Uid
  deriving DecidableEq, Repr

namespace Lookup

/-! ### Answers -/

/-- What an answer tells of a node. -/
structure Row where
  uid : String
  uniqueName : Option String
  types : List String
  status : Option String
  submitter : Option String
  deriving DecidableEq, Repr

/-- A text that must be there. -/
def textField? : Option Json → Option String
  | some (.string s) => some s
  | _ => none

/-- A text that may be missing. -/
def optionalText? : Option Json → Option (Option String)
  | none | some .null => some none
  | some (.string s) => some (some s)
  | some _ => none

/-- A list of texts that may be missing. -/
def textList? : Option Json → Option (List String)
  | none => some []
  | some (.array items) => items.mapM Json.string?
  | some _ => none

/-- The fields of a node, told by name or in a fixed order. -/
def fieldValues? (names : List String) : Json → Option (List (Option Json))
  | raw@(.object _) => some (names.map raw.member?)
  | .array items =>
    if items.length ≤ names.length then
      some ((List.range names.length).map fun i => items[i]?)
    else none
  | _ => none

/-- The identifier that an answer tells of a node. -/
def uidRow? (raw : Json) : Option String :=
  match fieldValues? ["uid"] raw with
  | some [u] => textField? u
  | _ => none

/-- The identifier of a node that may be missing. -/
def optionalUidRow? : Option Json → Option (Option String)
  | none | some .null => some none
  | some raw => (uidRow? raw).map some

/-- What an answer tells of a node. -/
def Row.read? (raw : Json) : Option Row :=
  match fieldValues?
    ["uid", "unique_name", "dgraph.type", "entry_review_status", "entry_added"] raw with
  | some [u, name, types, status, added] => do
    return ⟨← textField? u, ← optionalText? name, ← textList? types, ← optionalText? status,
      ← optionalUidRow? added⟩
  | _ => none

/-- The nodes of an answer. An answer without the block of nodes has none. -/
def rows {α : Type} (read? : Json → Option α) (answer : Json) : Except Error (List α) :=
  match (answer.member? "q").getD (.array []) with
  | .array items =>
    match items.mapM read? with
    | some rows => .ok rows
    | none => .error .malformedResponse
  | _ => .error .malformedResponse

/-! ### Questions -/

/-- The question for the node whose predicate has a value. -/
def valueQuestion (field value : String) : Question where
  text := Query.render ⟨"lookup", [("value", "string")],
    [{ Block.showing "q" (.compare .eq field (.param "value")) [.field "uid"] with
      first := some 1 }]⟩
  bindings := Table.empty.insert "$value" value

/-- The question for fields of a node. -/
def nodeQuestion (name : String) (body : List Selection) (u : Uid) : Question where
  text := Query.render ⟨name, [("uid", "string")],
    [Block.showing "q" (.isParam "uid") body]⟩
  bindings := Table.empty.insert "$uid" u.text

/-- Asks a question and reads the nodes of the answer. -/
def askRows {α : Type} (d : Directory) (read? : Json → Option α) (q : Question) :
    Consult (List α) := do
  let answer ← Consult.ask d q
  Consult.settle (rows read? answer)

/-- The node whose predicate has a value. -/
def findUid (d : Directory) (field value : String) : Consult (Option Uid) := do
  if (d.schema.predicate? field).isNone then
    Consult.fail (.unknownPredicate field)
  else
    let found ← askRows d uidRow? (valueQuestion field value)
    return found.head?.bind Uid.parse?

/-- The types of a node; a node that does not exist has none. -/
def types (d : Directory) (u : Uid) : Consult (List String) := do
  let found ← askRows d Row.read?
    (nodeQuestion "types" [.field "uid", .field "dgraph.type"] u)
  return (found.head?.map (·.types)).getD []

/-- The unique name of a node. -/
def uniqueName (d : Directory) (u : Uid) : Consult (Option String) := do
  let found ← askRows d Row.read?
    (nodeQuestion "unique_name" [.field "uid", .field "unique_name"] u)
  return found.head?.bind (·.uniqueName)

/-- What is asked about an entry that is to be changed. -/
def entrySelections : List Selection :=
  [.field "uid", .field "unique_name", .field "dgraph.type", .field "entry_review_status",
   .nested "entry_added" ["uid"]]

/-- The information in a row on a node, unless the node is no entry. -/
def Row.info? (row : Row) (u : Uid) : Except Error (Option EntryInfo) :=
  if row.types.isEmpty then .ok none
  else do
    let status ← row.status.mapM ReviewStatus.read
    return some ⟨(Uid.parse? row.uid).getD u, row.uniqueName, row.types, status,
      row.submitter.bind Uid.parse?⟩

/-- What a change of an entry needs to know of it, if it is an entry. -/
def entryInfo (d : Directory) (u : Uid) : Consult (Option EntryInfo) := do
  let found ← askRows d Row.read? (nodeQuestion "check_entry" entrySelections u)
  match found.head? with
  | none => return none
  | some row => Consult.settle (row.info? u)

/-- Runs a compiled search. -/
def run (d : Directory) (c : Search.Compiled) : Consult Json :=
  Consult.ask d ⟨c.text, c.bindings⟩

end Lookup

end PressRegister
