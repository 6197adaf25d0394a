import PressRegister.Operand
import PressRegister.Schema

/-!
# Entities and their statements

An entity is a node with values for its predicates. Its statements write every
value where the schema stores it: an edge stored at its other end is written from
there, and a mutual edge is written from both ends.

## Main definitions

* `Statement`: subject, predicate and object.
* `Entity`, `Entity.statements`: nodes with their values, and what states them.
* `Satellite`, `Related`: nodes that an entry refers to by label.
-/

namespace PressRegister

/-- The statement that a subject has an object under a predicate. -/
structure Statement where
  subject : Subject
  predicate : String
  object : Object
  deriving DecidableEq, Repr

namespace Statement

/-- A statement without facets. -/
def plain (subject : Subject) (predicate : String) (value : Operand) : Statement :=
  ⟨subject, predicate, .plain value⟩

/-- The text of a statement. -/
def chars (s : Statement) : List Char :=
  s.subject.chars ++ " <".toList ++ s.predicate.toList ++ "> ".toList ++ s.object.chars ++
    " .".toList

/-- The text of a statement. -/
def render (s : Statement) : String :=
  String.ofList s.chars

end Statement

/-- Values by predicate. -/
abbrev Fields := Table (List Object)

/-- A node with its values. -/
structure Entity where
  subject : Subject
  fields : Fields
  deriving DecidableEq, Repr

namespace Entity

/-- The entity of fields that may name their node under `uid`; if they do not, the
node is a new one. -/
def ofFields (fields : Fields) (supply : Supply) : Entity × Supply :=
  let named := ((fields.get? "uid").bind List.head?).bind fun o => o.value.subject?
  match named with
  | some subject => (⟨subject, fields.erase "uid"⟩, supply)
  | none =>
    let (node, supply) := BlankNode.fresh supply
    (⟨.new node, fields.erase "uid"⟩, supply)

/-- Sets the values of a predicate. -/
def set (e : Entity) (predicate : String) (values : List Object) : Entity :=
  { e with fields := e.fields.insert predicate values }

/-- Adds a value to a predicate. -/
def push (e : Entity) (predicate : String) (value : Object) : Entity :=
  e.set predicate (((e.fields.get? predicate).getD []) ++ [value])

/-- The values of a predicate. -/
def get? (e : Entity) (predicate : String) : Option (List Object) :=
  e.fields.get? predicate

/-- The first value of a predicate. -/
def first? (e : Entity) (predicate : String) : Option Operand :=
  ((e.get? predicate).bind List.head?).map (·.value)

/-- The first value of a predicate, if it is a literal. -/
def text? (e : Entity) (predicate : String) : Option String :=
  (e.first? predicate).bind Operand.text?

/-- The identifier of an entity that is stored. -/
def uid? (e : Entity) : Option Uid :=
  match e.subject with
  | .existing u => some u
  | _ => none

/-- The statements of one value: one where the edge is stored, or two if it is
stored at both ends. -/
def valueStatements (subject : Subject) (name : String) (direction : Option Direction)
    (o : Object) : List Statement :=
  let back (edge : String) : List Statement :=
    match o.value.subject? with
    | some other => [⟨other, edge, ⟨subject.operand, o.facets⟩⟩]
    | none => []
  match direction with
  | some (.reverse edge) => back edge
  | some .mutual => ⟨subject, name, o⟩ :: back name
  | _ => [⟨subject, name, o⟩]

/-- The statements of an entity, by predicate and in the order of values. -/
def statements (s : Schema) (e : Entity) : List Statement :=
  e.fields.entries.flatMap fun f =>
    let direction := (s.predicate? f.1).bind Predicate.direction?
    f.2.flatMap (valueStatements e.subject f.1 direction)

end Entity

/-! ### Satellites -/

/-- A node that is created with the entry that refers to it. -/
structure Satellite where
  node : BlankNode
  typeName : String
  fields : Fields
  deriving DecidableEq, Repr

namespace Satellite

/-- The name of a satellite. -/
def name? (t : Satellite) : Option String :=
  (((t.fields.get? "name").bind List.head?).map (·.value)).bind Operand.text?

/-- A satellite as an entity, with the types of its lineage. -/
def entity (s : Schema) (t : Satellite) : Entity :=
  let lineage := (s.lineage? t.typeName).getD [t.typeName]
  ⟨.new t.node, t.fields.insert "dgraph.type"
    (lineage.map fun name => .plain (.ofText name))⟩

end Satellite

/-- What a label turned out to mean. -/
inductive Related where
  | existing (u : Uid)
  | new (satellite : Satellite)
  deriving DecidableEq, Repr

/-- The operand that refers to a related node. -/
def Related.operand : Related → Operand
  | .existing u => .existing u
  | .new t => .new t.node

end PressRegister
