import PressRegister.Mutation
import PressRegister.Naming
import PressRegister.Review.Workflow

/-!
# Submissions and their context

## Main definitions

* `Form`: what a user fills in, by predicate.
* `Context`: who submits, from where, and when.
* `Submission`: an entry that is ready to be written.
* `Resolver`: what labels of new nodes mean.
-/

namespace PressRegister

open Calendar

/-- What a user fills in: raw input by predicate, or by predicate and facet. -/
abbrev Form := Table Json

/-- The form of a JSON object. -/
def Form.ofJson? : Json → Option Form
  | .object members => some (Table.ofList members)
  | _ => none

/-- Who submits, from where, and when. -/
structure Context where
  user : Uid
  role : Role
  address : String
  now : Instant
  /-- Whether the entry is to be accepted at once. -/
  accept : Bool
  deriving Repr

namespace Context

/-- The facets that tell when and from where a submission came. -/
def stamp (c : Context) : Facets :=
  (Facets.empty.insert "timestamp" (.instant c.now)).insert "ip" (.text c.address)

/-- The stamped edge to the user who submits. -/
def userEdge (c : Context) : Object :=
  ⟨.existing c.user, c.stamp⟩

/-- The date of a submission as a value. -/
def date (c : Context) : Object :=
  .plain (.literal (.instant c.now))

end Context

/-- An entry that is ready to be written. -/
structure Submission where
  typeName : String
  status : ReviewStatus
  entry : Entity
  overwrites : Mutation.Overwrites
  related : List Related
  mutation : Mutation

/-- What the label of a new node means under a predicate. -/
abbrev Resolver := Predicate → BlankNode → Except Error Related

/-- Makes a node with nothing but a name, of the first type that the predicate allows. -/
def stubResolver : Resolver := fun p node =>
  match p.relationship? with
  | none => .error (.invalidValue p.name node.text "not a relationship")
  | some rel =>
    match rel.constraint with
    | [] => .error (.invalidValue p.name node.text "no target type to create")
    | typeName :: _ =>
      .ok (.new ⟨node, typeName, Table.empty.insert "name"
        [.plain (.ofText (node.label.getD node.name))]⟩)

/-- A resolver whose source of knowledge is out of reach. -/
def unavailableResolver : Resolver := fun _ node =>
  .error (.store ("lookup for " ++ node.text ++ " unavailable"))

end PressRegister
