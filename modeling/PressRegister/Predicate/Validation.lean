import PressRegister.Predicate.Token

/-!
# Validation of raw input

Validation turns raw input into operands. Input without a token gives no
operands, which clears the field. Only labels of new nodes may draw on the
supply of random names.

## Main definitions

* `Facet.validate`: the value of a facet.
* `Predicate.validate`: the operands of a field.
* `Predicate.serialize`: raw input that gives operands back.
* `Predicate.checkTarget`: whether a node may be the target of a relationship.
-/

namespace PressRegister

open Calendar Number Predicate

/-- Reads a token among choices. -/
def Choices.read (c : Choices) (predicate token : String) : Except Error String :=
  if c.has token then .ok token else .error (.invalidValue predicate token c.reason)

/-- A text without the signs that may group the digits of a number. -/
def ungrouped (s : String) : String :=
  String.ofList (s.toList.filter fun c => c != '_' && c != ' ')

/-- Reads a finite number. -/
def readFinite? (s : String) : Option Double :=
  (Double.read? s.toList).filter Double.isFinite

/-- Reads a token as the value of a facet; `key` is named in errors. -/
def FacetKind.read (key token : String) : FacetKind → Except Error Scalar
  | .string => .ok (.text token)
  | .integer =>
    match readInt64? (ungrouped token) with
    | some n => .ok (.int n)
    | none => .error (.invalidValue key token "not an integer")
  | .float =>
    match readFinite? token with
    | some d => .ok (.float d)
    | none => .error (.invalidValue key token "not a number")
  | .dateTime => (readInstant key token).map .instant
  | .boolean => (readBool key token).map .bool
  | .choice choices => (choices.read key token).map .text

/-- The value of a facet on an edge of the predicate `parent`. -/
def Facet.validate (f : Facet) (parent : String) (raw : Json) : Except Error Scalar := do
  let key := parent ++ "|" ++ f.name
  match ← singleToken key raw with
  | none => .error (.invalidValue key raw.compact "facet value is empty")
  | some token => f.kind.read key token

namespace Predicate

/-- The choice that clears a field of several choices. -/
def notApplicable : String := "NA"

/-- Reads the one token of a field; without a token the field is cleared. -/
def readSingle (p : Predicate) (raw : Json) (read : String → Except Error Operand) :
    Except Error (List Operand) := do
  match ← singleToken p.name raw with
  | none => return []
  | some token => return [← read token]

/-- Reads the identifier of a node. -/
def readUid (p : Predicate) (token : String) : Except Error Operand :=
  match Uid.parse? token with
  | some u => .ok (.existing u)
  | none => .error (.invalidValue p.name token "not a uid")

/-- The text of a bound; an absent one leaves a gap. -/
def boundText (bound : Option Int) : String :=
  match bound with
  | some n => intText n
  | none => ""

/-- Reads a whole number within bounds. -/
def readInteger (p : Predicate) (min max : Option Int) (token : String) : Except Error Operand :=
  match readInt64? token with
  | none => .error (.invalidValue p.name token "not an integer")
  | some n =>
    if min.any (n < ·) || max.any (· < n) then
      .error (.invalidValue p.name (intText n)
        ("out of range [" ++ boundText min ++ ", " ++ boundText max ++ "]"))
    else .ok (.literal (.int n))

/-- The truth value of raw input: numbers above zero are true. -/
def readTruth (p : Predicate) : Json → Except Error (List Operand)
  | .bool b => .ok [.literal (.bool b)]
  | .int n => .ok [.literal (.bool (decide (0 < n)))]
  | .float d => .ok [.literal (.bool d.isPositive)]
  | raw => p.readSingle raw fun token =>
    (readBool p.name token).map fun b => .literal (.bool b)

/-- Reads several choices. The choice that does not apply clears the field. -/
def readChoices (p : Predicate) (choices : Choices) (raw : Json) :
    Except Error (List Operand) :=
  let items := withoutRepeats (tokens true raw)
  if items.contains notApplicable then .ok []
  else items.mapM fun token => (choices.read p.name token).map Operand.ofText

/-- The tokens of a relationship. They are identifiers, or labels where these are allowed. -/
def relationshipTokens (p : Predicate) (rel : Relationship) (raw : Json) :
    Except Error (List String) :=
  let items := withoutRepeats (tokens (rel.cardinality == .list) raw)
  if rel.cardinality == .single && 1 < items.length then
    .error (.invalidValue p.name (joined items) "expects a single value")
  else
    match items.find? fun token => (Uid.parse? token).isNone && !rel.allowNew with
    | some token => .error (.invalidValue p.name token
        "not a uid and new entries are not allowed here")
    | none => .ok items

/-- The nodes that tokens stand for: a stored node, or the new node of a label. -/
def nodesOf : List String → Supply → List Operand × Supply
  | [], supply => ([], supply)
  | token :: rest, supply =>
    match Uid.parse? token with
    | some u =>
      let (nodes, supply) := nodesOf rest supply
      (.existing u :: nodes, supply)
    | none =>
      let (node, supply) := BlankNode.ofLabel token supply
      let (nodes, supply) := nodesOf rest supply
      (.new node :: nodes, supply)

/-- The operands of a field that is no relationship. -/
def validateLiteral (p : Predicate) (raw : Json) : Except Error (List Operand) :=
  match p.kind with
  | .uid => p.readSingle raw p.readUid
  | .string => p.readSingle raw fun token => .ok (.ofText token)
  | .uniqueName => p.readSingle raw fun token => .ok (.ofText (Text.lower token))
  | .listString => .ok ((withoutRepeats (tokens true raw)).map .ofText)
  | .integer min max => p.readSingle raw (p.readInteger min max)
  | .boolean => p.readTruth raw
  | .dateTime => p.readSingle raw fun token =>
    (readInstant p.name token).map fun t => .literal (.instant t)
  | .geo => (readPoint p.name raw).map fun point => (point.map Operand.geo).toList
  | .singleChoice choices => p.readSingle raw fun token =>
    (choices.read p.name token).map Operand.ofText
  | .multipleChoice choices => p.readChoices choices raw
  | .relationship _ => .ok []

/-- The operands that raw input stands for. -/
def validate (p : Predicate) (raw : Json) (supply : Supply) :
    Except Error (List Operand × Supply) :=
  match p.kind with
  | .relationship rel => (p.relationshipTokens rel raw).map fun items => nodesOf items supply
  | _ => (p.validateLiteral raw).map fun values => (values, supply)

/-- Raw input that gives operands back. -/
def serialize (p : Predicate) (values : List Operand) : Json :=
  if p.isList then .array (values.map Operand.raw)
  else match values with
    | [] => .null
    | v :: _ => v.raw

/-- Whether a node with the given types may be the target of a field. A node
without types does not exist; `target` names it in errors. -/
def checkTargetTypes (p : Predicate) (target : String) (types : List String) :
    Except Error Unit :=
  match p.relationship? with
  | none => .ok ()
  | some rel =>
    if types.isEmpty then .error (.constraintViolation p.name (target ++ " does not exist"))
    else if rel.constraint.isEmpty || types.any rel.constraint.contains then .ok ()
    else .error (.constraintViolation p.name
      (target ++ " is a " ++ "/".intercalate types ++ " but has to be a " ++
        " or ".intercalate rel.constraint))

/-- Whether a stored node with the given types may be the target of a field. -/
def checkTarget (p : Predicate) (u : Uid) (types : List String) : Except Error Unit :=
  p.checkTargetTypes ("uid <" ++ u.text ++ ">") types

end Predicate

end PressRegister
