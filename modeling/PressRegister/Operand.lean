import PressRegister.Calendar.Instant
import PressRegister.Json.Printer
import PressRegister.Node.Blank
import PressRegister.Node.Uid

/-!
# Operands of statements

What can stand in a statement: nodes that are stored, nodes that are yet to be
created, literals, points on the map, and sets of nodes bound by a query.

## Main definitions

* `Scalar`: literals, with `Scalar.canonical` as their text.
* `Point`: points by longitude and latitude.
* `Operand`: what can be the object of a statement.
* `Subject`: what can be its subject.
* `Facets`: the metadata of an edge, in order of insertion.
* `Object`: an operand with the facets of its edge.
-/

namespace PressRegister

open Calendar Number

/-! ### Literals -/

/-- A literal. -/
inductive Scalar where
  | text (s : String)
  | int (n : Int)
  | float (d : Double)
  | bool (b : Bool)
  | instant (t : Instant)
  deriving DecidableEq, Repr

namespace Scalar

/-- Equality of literals, numbers being compared as numbers. -/
def same : Scalar → Scalar → Bool
  | .text s, .text t => s == t
  | .int m, .int n => m == n
  | .float d, .float e => d.same e
  | .bool a, .bool b => a == b
  | .instant t, .instant u => t == u
  | _, _ => false

instance : BEq Scalar := ⟨same⟩

/-- The text of a truth value. -/
def boolText (b : Bool) : String :=
  if b then "true" else "false"

/-- The canonical text of a literal. -/
def canonical : Scalar → String
  | .text s => s
  | .int n => intText n
  | .float d => d.plainText
  | .bool b => boolText b
  | .instant t => t.canonical

/-- A literal in a statement: its canonical text, quoted. -/
def chars (s : Scalar) : List Char :=
  Text.quoteChars s.canonical.toList

/-- A literal as the value of a facet: texts are quoted, everything else stands bare. -/
def facetChars : Scalar → List Char
  | .text s => Text.quoteChars s.toList
  | s => s.canonical.toList

end Scalar

/-! ### Points -/

/-- A point on the map. -/
structure Point where
  longitude : Double
  latitude : Double
  deriving DecidableEq, Repr

namespace Point

/-- Equality of points, coordinates being compared as numbers. -/
def same (p q : Point) : Bool :=
  p.longitude.same q.longitude && p.latitude.same q.latitude

instance : BEq Point := ⟨same⟩

/-- A point as a geometry, longitude first. -/
def geometry (p : Point) : Json :=
  let coordinate (d : Double) : Json := if d.isFinite then .float d else .null
  .object [("coordinates", .array [coordinate p.longitude, coordinate p.latitude]),
    ("type", .string "Point")]

/-- A point in a statement: the text of its geometry, quoted and marked. -/
def chars (p : Point) : List Char :=
  Text.quoteChars p.geometry.compactChars ++ "^^<geo:geojson>".toList

end Point

/-! ### Operands and subjects -/

/-- A set of nodes that a query block binds. -/
structure Variable where
  name : String
  /-- Whether the values bound to the name are meant, and not the nodes. -/
  ofValues : Bool
  deriving DecidableEq, Repr

/-- The variable in a statement. -/
def Variable.chars (v : Variable) : List Char :=
  (if v.ofValues then "val(" else "uid(").toList ++ v.name.toList ++ [')']

/-- What can be the object of a statement. -/
inductive Operand where
  | existing (u : Uid)
  | new (b : BlankNode)
  | literal (s : Scalar)
  | geo (p : Point)
  | var (v : Variable)
  /-- Every object; only statements that delete use it. -/
  | wildcard
  deriving DecidableEq, Repr

/-- What can be the subject of a statement. -/
inductive Subject where
  | existing (u : Uid)
  | new (b : BlankNode)
  | var (v : Variable)
  deriving DecidableEq, Repr

namespace Operand

/-- A text literal without the blanks at its ends. -/
def ofText (s : String) : Operand :=
  .literal (.text (Text.trim s))

/-- The word for what an operand is. -/
def kindName : Operand → String
  | .existing _ => "existing"
  | .new _ => "new"
  | .literal (.text _) => "text"
  | .literal (.int _) => "int"
  | .literal (.float _) => "float"
  | .literal (.bool _) => "bool"
  | .literal (.instant _) => "datetime"
  | .geo _ => "geo"
  | .var _ => "var"
  | .wildcard => "wildcard"

/-- Equality of operands: blank nodes are compared by name, numbers as numbers. -/
def same : Operand → Operand → Bool
  | .existing u, .existing v => u == v
  | .new a, .new b => a == b
  | .literal s, .literal t => s.same t
  | .geo p, .geo q => p.same q
  | .var v, .var w => v == w
  | .wildcard, .wildcard => true
  | _, _ => false

instance : BEq Operand := ⟨same⟩

/-- An operand in a statement. -/
def chars : Operand → List Char
  | .existing u => u.chars
  | .new b => b.chars
  | .literal s => s.chars
  | .geo p => p.chars
  | .var v => v.chars
  | .wildcard => ['*']

/-- The raw input that an operand is read from. -/
def raw : Operand → Json
  | .existing u => .string u.text
  | .new b => .string b.text
  | .literal s => .string s.canonical
  | .geo p => p.geometry
  | .var v => .string (String.ofList v.chars)
  | .wildcard => .string "*"

/-- The canonical text of a literal. -/
def text? : Operand → Option String
  | .literal s => some s.canonical
  | _ => none

/-- An operand as a subject, if it stands for nodes. -/
def subject? : Operand → Option Subject
  | .existing u => some (.existing u)
  | .new b => some (.new b)
  | .var v => some (.var v)
  | _ => none

end Operand

namespace Subject

/-- A subject as an operand. -/
def operand : Subject → Operand
  | .existing u => .existing u
  | .new b => .new b
  | .var v => .var v

/-- A subject in a statement. -/
def chars (s : Subject) : List Char :=
  s.operand.chars

/-- A subject in a statement. -/
def text (s : Subject) : String :=
  String.ofList s.chars

end Subject

/-! ### Facets -/

/-- The metadata of an edge, in order of insertion, each key once. -/
structure Facets where
  entries : List (String × Scalar)
  deriving DecidableEq, Repr

namespace Facets

/-- No metadata. -/
def empty : Facets := ⟨[]⟩

/-- Sets the value of a key where the key stands, or at the end. -/
def put (key : String) (value : Scalar) :
    List (String × Scalar) → List (String × Scalar)
  | [] => [(key, value)]
  | e :: rest => if e.1 = key then (key, value) :: rest else e :: put key value rest

/-- Sets the value of a key. -/
def insert (f : Facets) (key : String) (value : Scalar) : Facets :=
  ⟨put key value f.entries⟩

/-- The value of a key. -/
def get? (f : Facets) (key : String) : Option Scalar :=
  (f.entries.find? (·.1 == key)).map (·.2)

/-- Whether there is no metadata. -/
def isEmpty (f : Facets) : Bool :=
  f.entries.isEmpty

/-- One key with its value. -/
def entryChars (e : String × Scalar) : List Char :=
  e.1.toList ++ '=' :: e.2.facetChars

/-- The facets behind an object; nothing if there are none. -/
def chars (f : Facets) : List Char :=
  if f.entries.isEmpty then []
  else " (".toList ++ ", ".toList.intercalate (f.entries.map entryChars) ++ [')']

end Facets

/-- An operand with the facets of the edge that leads to it. -/
structure Object where
  value : Operand
  facets : Facets
  deriving DecidableEq, Repr

namespace Object

/-- An operand without facets. -/
def plain (value : Operand) : Object := ⟨value, .empty⟩

/-- An object with its facets in a statement. -/
def chars (o : Object) : List Char :=
  o.value.chars ++ o.facets.chars

end Object

end PressRegister
