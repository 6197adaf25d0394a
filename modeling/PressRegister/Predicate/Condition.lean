import PressRegister.Predicate.Validation

/-!
# Conditions on predicates

A filter on a field compares its values with given texts. Texts that do not fit
the field are left out, and nothing remains if none fits.

## Main definitions

* `Facet.condition?`: the condition that a facet has a value.
* `Predicate.condition?`: the condition that a field, or one of its aliases, has given values.
* `Predicate.dateCondition?`: conditions on dates, in which a year means all of its days.
-/

namespace PressRegister

open Calendar Number Predicate

/-- A text as the argument of a condition on a facet. -/
def Facet.arg? (f : Facet) (value : String) : Option Arg :=
  match f.kind with
  | .string => some (.text value)
  | .choice choices => if choices.has value then some (.text value) else none
  | .integer => (readInt64? value).map fun n => .number (intText n)
  | .float => (readFinite? value).map fun d => .number d.plainText
  | .dateTime => (Instant.read? value).map fun t => .text t.canonical
  | .boolean =>
    match readBool f.name value with
    | .ok b => some (.number (Scalar.boolText b))
    | .error _ => none

/-- The operator of a condition on a facet: the asked one, if the facet allows it. -/
def Facet.operatorFor (f : Facet) (asked : Option Operator) : Operator :=
  match asked with
  | some op => if f.operators.contains op && op != .has then op else .eq
  | none => .eq

/-- The condition that a facet compares with a text. -/
def Facet.condition? (f : Facet) (value : String) (asked : Option Operator) : Option Filter :=
  (f.arg? (Text.trim value)).map fun arg => .compare (f.operatorFor asked) f.name arg

namespace Predicate

/-- The condition that dates compare with a year: a year stands for all its days, so
later than a year is at least the next one. The last year of four digits has no
next one and makes no condition. -/
def yearCondition? (name : String) (op : Operator) (year : Nat) : Option Filter :=
  if year = 9999 then none
  else
    let first : Arg := .text (Instant.ofYear year).canonical
    let next : Arg := .text (Instant.ofYear (year + 1)).canonical
    some (match op with
      | .eq => .and [.compare .ge name first, .compare .lt name next]
      | .gt => .compare .ge name next
      | .le => .compare .lt name next
      | op => .compare op name first)

/-- The condition that dates compare with a text. -/
def dateCondition? (name : String) (op : Operator) (value : String) : Option Filter :=
  if isYear value.toList then yearCondition? name op (digitsValue value.toList)
  else (Instant.read? value).map fun t => .compare op name (.text t.canonical)

/-- The condition that a name's values compare with a text. -/
def valueCondition? (p : Predicate) (name : String) (op : Operator) (value : String) :
    Option Filter :=
  let value := Text.trim value
  if value.isEmpty then none
  else match p.kind with
    | .uid | .geo => none
    | .relationship _ => (Uid.parse? value).map fun u => .compare op name (.uid u)
    | .string | .uniqueName | .listString =>
      some (.compare op name (if op == .regexp then .pattern value else .text value))
    | .singleChoice choices | .multipleChoice choices =>
      if choices.has value then some (.compare op name (.text value)) else none
    | .integer _ _ => (readInt64? value).map fun n => .compare op name (.number (intText n))
    | .boolean =>
      match readBool name value with
      | .ok b => some (.compare op name (.number (Scalar.boolText b)))
      | .error _ => none
    | .dateTime => dateCondition? name op value

/-- The operator of a condition: the asked one, if the field allows it. -/
def operatorFor? (p : Predicate) (asked : Option Operator) : Option Operator :=
  p.defaultOperator?.map fun default =>
    match asked with
    | some op => if p.operators.contains op then op else default
    | none => default

/-- How the values of a condition are joined: a list holds all of them at once. -/
def connectorFor (p : Predicate) (asked : Option Connector) : Connector :=
  asked.getD (if p.isList then .and else .or)

/-- The condition on the values under one name. -/
def nameCondition? (p : Predicate) (op : Operator) (connector : Connector)
    (values : List String) (name : String) : Option Filter :=
  if op == .has then some (.has name)
  else Filter.join? connector (values.filterMap (p.valueCondition? name op))

/-- The condition that a field, or one of its aliases, has given values. -/
def condition? (p : Predicate) (values : List String) (operator : Option Operator)
    (connector : Option Connector) : Option Filter := do
  let op ← p.operatorFor? operator
  Filter.anyOf? ((p.queryName :: p.aliases).filterMap
    (p.nameCondition? op (p.connectorFor connector) values))

end Predicate

end PressRegister
