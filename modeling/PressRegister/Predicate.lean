import PressRegister.Filter
import PressRegister.Json
import PressRegister.Review.Status

/-!
# Predicates

A predicate is a declared field of an entity type: what kind of values it takes,
how they are stored, who may set them, and which metadata its edges may carry.

## Main definitions

* `Choices`, `Relationship`, `Predicate.Kind`: the kinds of values.
* `Facet`: declared metadata of an edge.
* `Predicate`: a declaration.
* `Predicate.edge`, `Predicate.queryName`: the names a predicate is stored and queried under.
-/

namespace PressRegister

/-! ### Kinds of values -/

/-- A closed set of values, each with a label for readers. -/
abbrev Choices := List (String × String)

namespace Choices

/-- Whether a value is one of the choices. -/
def has (c : Choices) (value : String) : Bool :=
  c.any (·.1 == value)

/-- The values without their labels. -/
def names (c : Choices) : List String :=
  c.map (·.1)

/-- Why a value outside the choices is refused. -/
def reason (c : Choices) : String :=
  "has to be one of " ++ ", ".intercalate c.names

end Choices

/-- How many nodes a relationship may lead to. -/
inductive Cardinality where
  | single
  | list
  deriving DecidableEq, Repr

/-- Where the edges of a relationship are stored. -/
inductive Direction where
  /-- On the entry itself. -/
  | forward
  /-- On the related nodes, under the name of the edge, pointing at the entry. -/
  | reverse (edge : String)
  /-- On both ends, under one name. -/
  | mutual
  deriving DecidableEq, Repr

/-- A direction in words. -/
def Direction.describe : Direction → String
  | .forward => "forward"
  | .reverse edge => "reverse of " ++ edge
  | .mutual => "mutual"

/-- A predicate whose values are nodes. -/
structure Relationship where
  cardinality : Cardinality
  direction : Direction
  /-- The types a target may have; any type, if the list is empty. -/
  constraint : List String
  /-- Whether a label makes a new node. -/
  allowNew : Bool
  deriving DecidableEq, Repr

/-- What kind of values a predicate takes. -/
inductive Predicate.Kind where
  | uid
  | string
  | uniqueName
  | listString
  | integer (min max : Option Int)
  | boolean
  | dateTime
  | geo
  | singleChoice (choices : Choices)
  | multipleChoice (choices : Choices)
  | relationship (rel : Relationship)
  deriving DecidableEq, Repr

/-- How the values of a predicate are stored. -/
inductive StorageClass where
  | scalar
  | listScalar
  | relationship
  | reverseRelationship
  deriving DecidableEq, Repr

/-! ### Operators -/

/-- The operators on texts; the first one is the default. -/
def textOperators : List Operator := [.eq, .anyOfTerms, .allOfTerms, .regexp, .has]
/-- The operators on values with an order. -/
def orderedOperators : List Operator := [.eq, .gt, .lt, .ge, .le, .has]
/-- The operators on values that are only told apart. -/
def equalityOperators : List Operator := [.eq, .has]
/-- The operators on relationships. -/
def relationshipOperators : List Operator := [.uidIn, .has]

namespace Predicate.Kind

/-- The operators that a kind of values allows. -/
def operators : Kind → List Operator
  | .uid => []
  | .string | .uniqueName | .listString => textOperators
  | .integer _ _ | .dateTime => orderedOperators
  | .boolean | .singleChoice _ | .multipleChoice _ => equalityOperators
  | .geo => [.has]
  | .relationship _ => relationshipOperators

/-- Whether new values replace the old ones unless a declaration says otherwise. -/
def overwrites : Kind → Bool
  | .listString | .multipleChoice _ | .relationship _ => true
  | _ => false

/-- The word for a kind, whatever its parameters. -/
def name : Kind → String
  | .uid => "uid"
  | .string => "string"
  | .uniqueName => "unique_name"
  | .listString => "list_string"
  | .integer _ _ => "integer"
  | .boolean => "boolean"
  | .dateTime => "datetime"
  | .geo => "geo"
  | .singleChoice _ => "single_choice"
  | .multipleChoice _ => "multiple_choice"
  | .relationship _ => "relationship"

end Predicate.Kind

/-! ### Facets -/

/-- What kind of values a facet takes. -/
inductive FacetKind where
  | string
  | integer
  | float
  | dateTime
  | boolean
  | choice (choices : Choices)
  deriving DecidableEq, Repr

/-- The word for a kind of facet, whatever its parameters. -/
def FacetKind.name : FacetKind → String
  | .string => "string"
  | .integer => "integer"
  | .float => "float"
  | .dateTime => "datetime"
  | .boolean => "boolean"
  | .choice _ => "choice"

/-- Declared metadata on the edges of a predicate. -/
structure Facet where
  name : String
  kind : FacetKind
  queryable : Bool := false
  deriving DecidableEq, Repr

/-- The names of a predicate and of one of its facets in a key `predicate|facet`. -/
def Facet.splitKey? (key : String) : Option (String × String) :=
  match key.toList.dropWhile (· != '|') with
  | [] => none
  | _ :: facet =>
    some (String.ofList (key.toList.takeWhile (· != '|')), String.ofList facet)

/-- The operators that a facet allows. -/
def Facet.operators (f : Facet) : List Operator :=
  match f.kind with
  | .integer | .float | .dateTime => orderedOperators
  | .string | .boolean | .choice _ => equalityOperators

/-! ### Declarations -/

/-- A declared field of an entity type. -/
structure Predicate where
  name : String
  kind : Predicate.Kind
  label : Option String := none
  description : String := ""
  required : Bool := false
  queryable : Bool := false
  /-- The lowest role that may set the field on a new entry. -/
  permissionNew : Role := .contributor
  /-- The lowest role that may change the field. -/
  permissionEdit : Role := .contributor
  /-- Whether all values are cleared before new ones are written. -/
  overwrite : Bool
  /-- Names of further predicates that a filter on this one matches. -/
  aliases : List String := []
  default : Option Json := none
  facets : List Facet := []
  /-- Whether the field is offered for new entries. -/
  new : Bool := true
  /-- Whether the field stays open once an entry has left draft. -/
  edit : Bool := true
  /-- Whether only the system sets the field. -/
  readOnly : Bool := false
  deriving Repr

namespace Predicate

/-- A field with the defaults of its kind. -/
def ofKind (name : String) (kind : Kind) : Predicate :=
  { name, kind, overwrite := kind.overwrites }

/-- The identifier of an entry. -/
def uid : Predicate :=
  { ofKind "uid" .uid with new := false, readOnly := true }

/-- A text. -/
def string (name : String) : Predicate := ofKind name .string
/-- A text in lower case that names one entry. -/
def uniqueName (name : String) : Predicate := ofKind name .uniqueName
/-- Several texts. -/
def listString (name : String) : Predicate := ofKind name .listString
/-- A whole number. -/
def integer (name : String) : Predicate := ofKind name (.integer none none)
/-- A truth value. -/
def boolean (name : String) : Predicate := ofKind name .boolean
/-- A point in time. -/
def dateTime (name : String) : Predicate := ofKind name .dateTime
/-- A point on the map. -/
def geo (name : String) : Predicate := ofKind name .geo

/-- A whole number within bounds. -/
def integerIn (name : String) (min max : Int) : Predicate :=
  ofKind name (.integer (some min) (some max))

/-- One of several choices. -/
def singleChoice (name : String) (choices : Choices) : Predicate :=
  ofKind name (.singleChoice choices)

/-- Any of several choices. -/
def multipleChoice (name : String) (choices : Choices) : Predicate :=
  ofKind name (.multipleChoice choices)

/-- A relationship that makes no new nodes. -/
def relationship (name : String) (cardinality : Cardinality) (direction : Direction)
    (constraint : List String) : Predicate :=
  ofKind name (.relationship ⟨cardinality, direction, constraint, false⟩)

/-- A relationship to at most one node. -/
def singleRelationship (name : String) (constraint : List String) : Predicate :=
  relationship name .single .forward constraint

/-- A relationship to any number of nodes. -/
def listRelationship (name : String) (constraint : List String) : Predicate :=
  relationship name .list .forward constraint

/-- A relationship stored on the related nodes under the name of an edge. -/
def reverseListRelationship (name edge : String) (constraint : List String) : Predicate :=
  relationship name .list (.reverse edge) constraint

/-- A relationship stored on both ends. -/
def mutualListRelationship (name : String) (constraint : List String) : Predicate :=
  relationship name .list .mutual constraint

/-! ### Changes to a declaration -/

/-- Every new entry must have a value. -/
def beRequired (p : Predicate) : Predicate := { p with required := true }
/-- Filters may use the field. -/
def beQueryable (p : Predicate) : Predicate := { p with queryable := true }
/-- Shows the field to readers under a label. -/
def withLabel (p : Predicate) (label : String) : Predicate := { p with label := some label }
/-- Describes the field to readers. -/
def describe (p : Predicate) (text : String) : Predicate := { p with description := text }

/-- Sets the lowest role for new entries and for changes. -/
def permit (p : Predicate) (role : Role) : Predicate :=
  { p with permissionNew := role, permissionEdit := role }

/-- Sets the lowest role for changes. -/
def permitEdit (p : Predicate) (role : Role) : Predicate := { p with permissionEdit := role }
/-- Sets whether all values are cleared before new ones are written. -/
def withOverwrite (p : Predicate) (overwrite : Bool) : Predicate := { p with overwrite }
/-- Adds a name that a filter on the field matches as well. -/
def withAlias (p : Predicate) (name : String) : Predicate :=
  { p with aliases := p.aliases ++ [name] }
/-- Sets the raw input that stands for a field that is not given. -/
def withDefault (p : Predicate) (raw : Json) : Predicate := { p with default := some raw }
/-- Declares metadata on the edges of the field. -/
def withFacet (p : Predicate) (facet : Facet) : Predicate :=
  { p with facets := p.facets ++ [facet] }

/-- Lets labels make new nodes, if the field is a relationship. -/
def allowNew (p : Predicate) : Predicate :=
  match p.kind with
  | .relationship rel => { p with kind := .relationship { rel with allowNew := true } }
  | _ => p

/-- Not offered for new entries. -/
def notNew (p : Predicate) : Predicate := { p with new := false }
/-- Closed once an entry has left draft. -/
def notEdit (p : Predicate) : Predicate := { p with edit := false }
/-- Set by the system only. -/
def systemOnly (p : Predicate) : Predicate := { p with readOnly := true }

/-! ### What a declaration says -/

/-- The operators that filters on a field may use. -/
def operators (p : Predicate) : List Operator := p.kind.operators

/-- The operator of a filter that names none. -/
def defaultOperator? (p : Predicate) : Option Operator := p.operators.head?

/-- The parts of a name between its underscores. -/
def nameWords (name : String) : List (List Char) :=
  (name.toList.splitOn '_').filter (!·.isEmpty)

/-- The label of a field for readers; without a declared one, the words of its name. -/
def displayLabel (p : Predicate) : String :=
  match p.label with
  | some label => label
  | none => String.ofList ([' '].intercalate ((nameWords p.name).map Text.capitalize))

/-- The relationship that a field is. -/
def relationship? (p : Predicate) : Option Relationship :=
  match p.kind with
  | .relationship rel => some rel
  | _ => none

/-- Whether a field is a relationship. -/
def isRelationship (p : Predicate) : Bool := p.relationship?.isSome

/-- How the values of a field are stored. -/
def storageClass (p : Predicate) : StorageClass :=
  match p.kind with
  | .listString | .multipleChoice _ => .listScalar
  | .relationship rel =>
    match rel.direction with
    | .reverse _ => .reverseRelationship
    | _ => .relationship
  | _ => .scalar

/-- Whether a field holds several values at once. -/
def isList (p : Predicate) : Bool :=
  match p.kind with
  | .listString | .multipleChoice _ => true
  | .relationship rel => rel.cardinality == .list
  | _ => false

/-- The direction of the edges of a field that is a relationship. -/
def direction? (p : Predicate) : Option Direction :=
  p.relationship?.map (·.direction)

/-- The name of the edges that a field is stored under. -/
def edge (p : Predicate) : String :=
  match p.direction? with
  | some (.reverse edge) => edge
  | _ => p.name

/-- The name of a field in queries: an edge stored at its other end is asked for
against its direction. -/
def queryName (p : Predicate) : String :=
  match p.direction? with
  | some (.reverse edge) => "~" ++ edge
  | _ => p.name

/-- The declared facet with a name. -/
def facet? (p : Predicate) (name : String) : Option Facet :=
  p.facets.find? (·.name == name)

end Predicate

end PressRegister
