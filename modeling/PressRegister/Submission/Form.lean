import PressRegister.Submission.Context

/-!
# Reading forms

Every key of a form must be known to the type of the entry, and the user must be
allowed to set it. A key of the form `predicate|facet` sets a facet on all values
of the predicate.

## Main definitions

* `Form.requestedStatus`: the review status that a form asks for.
* `Form.read`: the values of a form.
* `applyDefaults`, `checkRequired`: declared defaults, and fields that must be there.
-/

namespace PressRegister

namespace Form

/-- The review status that a form asks for. -/
def requestedStatus (t : TypeDef) (form : Form) : Consult (Option ReviewStatus) := do
  match form.get? ReviewStatus.predicateName with
  | none => return none
  | some raw =>
    match t.predicate? ReviewStatus.predicateName with
    | none => Consult.fail (.unknownPredicate ReviewStatus.predicateName)
    | some p =>
      let values ← Consult.tryDraw (p.validate raw)
      match values.head?.bind Operand.text? with
      | none => return none
      | some name => return some (← Consult.settle (ReviewStatus.read name))

/-- The refusal of a key that the user may not set. -/
def refusal (key : String) : Error :=
  .permissionDenied ("'" ++ key ++ "' cannot be set here")

/-- The values of one key. -/
def readField (t : TypeDef) (writable : Predicate → Bool) (key : String) (raw : Json) :
    Consult (List Object) := do
  match t.predicate? key with
  | none => Consult.fail (.unknownPredicate key)
  | some p =>
    if !writable p then Consult.fail (refusal key)
    else
      let values ← Consult.tryDraw (p.validate raw)
      return values.map Object.plain

/-- The values of all keys that name a predicate. -/
def readFields (t : TypeDef) (writable : Predicate → Bool) :
    List (String × Json) → Fields → Consult Fields
  | [], fields => return fields
  | (key, raw) :: rest, fields => do
    let values ← readField t writable key raw
    readFields t writable rest (fields.insert key values)

/-- Sets a facet on all values of its predicate. -/
def applyFacet (t : TypeDef) (writable : Predicate → Bool) (fields : Fields)
    (key parent facet : String) (raw : Json) : Except Error Fields :=
  match t.predicate? parent with
  | none => .error (.unknownPredicate key)
  | some p =>
    match p.facet? facet with
    | none => .error (.unknownPredicate key)
    | some declared =>
      if !writable p then .error (refusal key)
      else do
        let value ← declared.validate parent raw
        match fields.get? parent with
        | none => .error (.constraintViolation key
            ("facet given without a value for '" ++ parent ++ "'"))
        | some objects =>
          return fields.insert parent
            (objects.map fun o => { o with facets := o.facets.insert facet value })

/-- Sets the facets of all keys that name one. -/
def applyFacets (t : TypeDef) (writable : Predicate → Bool) :
    List (String × Json) → Fields → Except Error Fields
  | [], fields => .ok fields
  | (key, raw) :: rest, fields =>
    match Facet.splitKey? key with
    | none => applyFacets t writable rest fields
    | some (parent, facet) => do
      applyFacets t writable rest (← applyFacet t writable fields key parent facet raw)

/-- The keys of a form that set something: the review status and the keys to skip do not. -/
def settingKeys (form : Form) (skip : List String) : List (String × Json) :=
  form.entries.filter fun e => e.1 != ReviewStatus.predicateName && !skip.contains e.1

/-- The values of a form, each with its facets. -/
def read (t : TypeDef) (form : Form) (skip : List String) (writable : Predicate → Bool) :
    Consult Fields := do
  let keys := settingKeys form skip
  let fields ← readFields t writable (keys.filter fun e => (Facet.splitKey? e.1).isNone) .empty
  Consult.settle (applyFacets t writable keys fields)

end Form

/-- Gives fields that are not set their declared defaults. -/
def applyDefaults : List Predicate → Entity → Consult Entity
  | [], e => return e
  | p :: rest, e =>
    match p.default with
    | none => applyDefaults rest e
    | some raw =>
      if p.name == ReviewStatus.predicateName || p.readOnly || e.fields.contains p.name then
        applyDefaults rest e
      else do
        let values ← Consult.tryDraw (p.validate raw)
        applyDefaults rest (e.set p.name (values.map Object.plain))

/-- Whether a required field has no value. -/
def isMissing (e : Entity) (p : Predicate) : Bool :=
  p.required && !p.readOnly && ((e.get? p.name).getD []).isEmpty

/-- Checks that every required field has a value. -/
def checkRequired (t : TypeDef) (e : Entity) : Except Error Unit :=
  match t.predicates.find? (isMissing e) with
  | some p => .error (.constraintViolation p.name "is required")
  | none => .ok ()

end PressRegister
