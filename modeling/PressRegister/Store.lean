import PressRegister.Mutation
import PressRegister.Search

/-!
# The node table

A store in memory: nodes with their types and the canonical texts of their values.
Facets are not kept. A mutation is committed by binding its prelude, deleting, and
then setting, statement by statement.

## Main definitions

* `Node`, `Store`: nodes, and all nodes by identifier.
* `Store.matches`: whether a node passes a filter.
* `Store.commit`: a mutation carried out.
-/

namespace PressRegister

/-- A stored node. -/
structure Node where
  types : List String
  fields : Table (List String)
  deriving DecidableEq, Repr

namespace Node

/-- A node without types and values. -/
def empty : Node := ⟨[], .empty⟩

/-- The values of a predicate. -/
def values (n : Node) (predicate : String) : List String :=
  (n.fields.get? predicate).getD []

/-- The first value of a predicate. -/
def first? (n : Node) (predicate : String) : Option String :=
  (n.values predicate).head?

mutual

/-- Whether a node passes a filter. Only the functions that preludes use are
understood; no node passes any other. -/
def passes (n : Node) : Filter → Bool
  | .has p => !(n.values p).isEmpty
  | .ofType t => n.types.contains t
  | .compare .uidIn p (.uid u) => (n.values p).contains u.text
  | .compare _ _ _ => false
  | .inVar _ => false
  | .isParam _ => false
  | .and parts => n.passesAll parts
  | .or parts => n.passesAny parts

/-- Whether a node passes every filter of a list. -/
def passesAll (n : Node) : List Filter → Bool
  | [] => true
  | f :: rest => n.passes f && n.passesAll rest

/-- Whether a node passes a filter of a list. -/
def passesAny (n : Node) : List Filter → Bool
  | [] => false
  | f :: rest => n.passes f || n.passesAny rest

end

/-- A node without a predicate. -/
def clear (n : Node) (predicate : String) : Node :=
  { n with fields := n.fields.erase predicate }

/-- A node without one value of a predicate. -/
def remove (n : Node) (predicate value : String) : Node :=
  { n with fields := n.fields.modify predicate fun values => values.filter (· != value) }

/-- A node with one more type. -/
def addType (n : Node) (name : String) : Node :=
  if n.types.contains name then n else { n with types := n.types ++ [name] }

/-- A node with a value of a predicate. A predicate that is no list holds nothing else. -/
def put (n : Node) (isList : Bool) (predicate value : String) : Node :=
  let old := if isList then n.values predicate else []
  let new := if old.contains value then old else old ++ [value]
  { n with fields := n.fields.insert predicate new }

end Node

/-- All nodes by identifier, and the number of the last one that was made. -/
structure Store where
  nodes : Table Node
  lastUid : Nat
  deriving DecidableEq, Repr

/-- The identifiers given to new nodes, by the names of the nodes. -/
abbrev NewUids := Table String

namespace Store

/-- The store without nodes. -/
def empty : Store := ⟨.empty, 0xff⟩

/-- The node with an identifier. -/
def node? (s : Store) (uid : String) : Option Node :=
  s.nodes.get? uid

/-! ### Commits -/

/-- The nodes that a block binds. -/
def boundBy (s : Store) (b : Block) : List String :=
  (s.nodes.filter fun _ n =>
    n.passes b.func && (b.filter.map n.passes).getD true).keys

/-- The nodes that a prelude binds, by variable. -/
def bind (s : Store) (prelude : List Block) : Table (List String) :=
  (prelude.filter (·.bindsVar)).foldl (fun vars b => vars.insert b.name (s.boundBy b)) .empty

/-- The identifier of a new node, which it is given when it is first named. -/
def uidOf (s : Store) (uids : NewUids) (b : BlankNode) : String × Store × NewUids :=
  match uids.get? b.name with
  | some u => (u, s, uids)
  | none =>
    let u := (Uid.ofNat (s.lastUid + 1)).text
    (u, { s with lastUid := s.lastUid + 1 }, uids.insert b.name u)

/-- Changes the nodes with given identifiers that are in the store. -/
def change (s : Store) (uids : List String) (f : Node → Node) : Store :=
  { s with nodes := uids.foldl (fun nodes u => nodes.modify u f) s.nodes }

/-- The nodes that a statement to be deleted is about. -/
def subjectsOf (vars : Table (List String)) : Subject → List String
  | .existing u => [u.text]
  | .var v => (vars.get? v.name).getD []
  | .new _ => []

/-- Deletes a statement. -/
def delete (s : Store) (vars : Table (List String)) (q : Statement) : Store :=
  let subjects := subjectsOf vars q.subject
  match q.object.value with
  | .wildcard => s.change subjects (·.clear q.predicate)
  | .existing u => s.change subjects (·.remove q.predicate u.text)
  | .literal v => s.change subjects (·.remove q.predicate v.canonical)
  | _ => s

/-- The stored text of an object, if it is stored at all. -/
def objectText (s : Store) (uids : NewUids) : Operand → Option String × Store × NewUids
  | .existing u => (some u.text, s, uids)
  | .new b =>
    let (u, s, uids) := s.uidOf uids b
    (some u, s, uids)
  | .literal v => (some v.canonical, s, uids)
  | .geo p => (some p.geometry.compact, s, uids)
  | .var _ | .wildcard => (none, s, uids)

/-- Whether a predicate holds several values at once. -/
def isList (schema : Schema) (predicate : String) : Bool :=
  ((schema.predicate? predicate).map Predicate.isList).getD false

/-- A node with one more statement. -/
def addStatement (schema : Schema) (predicate text : String) (n : Node) : Node :=
  if predicate = Search.typeKey then n.addType text
  else n.put (isList schema predicate) predicate text

/-- Changes a node, which is made if there is none. -/
def upsert (s : Store) (uid : String) (f : Node → Node) : Store :=
  { s with nodes := s.nodes.insert uid (f ((s.nodes.get? uid).getD .empty)) }

/-- The node that a statement to be set is about. -/
def subjectUid (s : Store) (uids : NewUids) : Subject → Option String × Store × NewUids
  | .existing u => (some u.text, s, uids)
  | .new b =>
    let (u, s, uids) := s.uidOf uids b
    (some u, s, uids)
  | .var _ => (none, s, uids)

/-- Sets a statement. -/
def set (schema : Schema) (st : Store × NewUids) (q : Statement) : Store × NewUids :=
  match st.1.subjectUid st.2 q.subject with
  | (none, s, uids) => (s, uids)
  | (some subject, s, uids) =>
    match s.objectText uids q.object.value with
    | (none, s, uids) => (s, uids)
    | (some text, s, uids) => (s.upsert subject (addStatement schema q.predicate text), uids)

/-- Carries out a mutation, and tells the identifiers of the nodes it made. -/
def commit (schema : Schema) (s : Store) (m : Mutation) : Store × NewUids :=
  let vars := s.bind m.prelude
  m.set.foldl (set schema) (m.delete.foldl (fun s q => s.delete vars q) s, .empty)

/-! ### Nodes put in by hand -/

/-- Adds a node with given types and values. -/
def addNode (s : Store) (types : List String) (fields : List (String × String)) : Uid × Store :=
  let u := Uid.ofNat (s.lastUid + 1)
  let values := fields.foldl (fun (t : Table (List String)) f =>
    t.insert f.1 (((t.get? f.1).getD []) ++ [f.2])) .empty
  (u, ⟨s.nodes.insert u.text ⟨types, values⟩, s.lastUid + 1⟩)

/-- Adds an entry, possibly with the user who submitted it and its review status. -/
def addEntry (s : Store) (typeName uniqueName : String)
    (submitted : Option (Uid × ReviewStatus)) : Uid × Store :=
  let review := match submitted with
    | some (user, status) =>
      [("entry_added", user.text), (ReviewStatus.predicateName, status.name)]
    | none => []
  s.addNode [typeName, "Entry"]
    ([("unique_name", uniqueName), ("name", uniqueName)] ++ review)

/-- The first node with a unique name. -/
def find? (s : Store) (uniqueName : String) : Option String :=
  s.nodes.findKey? fun _ n => n.first? "unique_name" == some uniqueName

end Store

end PressRegister
