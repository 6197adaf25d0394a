import PressRegister.Submission.Form
import PressRegister.Inventory

/-!
# Related nodes

The relationships of an entry lead to stored nodes or to labels. Stored nodes are
checked against the types that the relationship allows. A label becomes a node:
one that has its unique name already, or a new satellite. A label that is said
twice becomes one node.

## Main definitions

* `resolveLabel`: the node of a label.
* `Resolution`: the labels resolved so far.
* `resolveRelated`: an entry with all its labels resolved, and the related nodes.
-/

namespace PressRegister

/-- Checks that a stored node may be the target of a predicate. -/
def checkStored (d : Directory) (p : Predicate) (u : Uid) : Consult Unit := do
  let types ← Lookup.types d u
  Consult.settle (p.checkTarget u types)

/-- The error of a label, as an error of its predicate. -/
def labelError (p : Predicate) (node : BlankNode) (e : Error) : Error :=
  if e.isValidation then e
  else .invalidValue p.name node.text ("could not be resolved: " ++ e.message)

/-- A satellite with what every new node is given: a unique name unless it has
one, the status of satellites, the user who submits, and the date. -/
def completeSatellite (c : Context) (t : Satellite) (uniqueName : String) : Satellite :=
  let named := if t.fields.contains "unique_name" then t.fields
    else t.fields.insert "unique_name" [.plain (.ofText uniqueName)]
  { t with fields :=
    ((named.insert ReviewStatus.predicateName
      [.plain (.ofText ReviewStatus.ofSatellites.name)]).insert "entry_added"
      [c.userEdge]).insert "creation_date" [c.date] }

/-- The node of a label that may become a satellite: a stored one that has its unique
name and may be the target of the predicate, or the satellite under a name that is free. -/
def placeSatellite (d : Directory) (p : Predicate) (node : BlankNode) (c : Context)
    (t : Satellite) : Consult Related := do
  let label := t.name?.getD node.name
  let slug := Text.slug label
  if slug.isEmpty then
    Consult.fail (.invalidValue p.name label "cannot derive a unique name")
  else
    match ← Lookup.findUid d "unique_name" slug with
    | none => return .new (completeSatellite c t slug)
    | some u =>
      let types ← Lookup.types d u
      match p.checkTarget u types with
      | .ok () => return .existing u
      | .error _ =>
        let name ← Consult.draw (Naming.disambiguate slug)
        return .new (completeSatellite c t name)

/-- The node of a label. -/
def resolveLabel (d : Directory) (r : Resolver) (p : Predicate) (node : BlankNode)
    (c : Context) : Consult Related := do
  match r p node with
  | .error e => Consult.fail (labelError p node e)
  | .ok (.existing u) =>
    checkStored d p u
    return .existing u
  | .ok (.new t) => placeSatellite d p node c t

/-- The labels resolved so far, and which of them are new siblings. -/
structure Resolution where
  resolved : Table Related
  siblings : List String

/-- Checks that a label resolved before may be the target of another predicate. -/
def checkReused (d : Directory) (p : Predicate) (node : BlankNode) : Related → Consult Unit
  | .existing u => checkStored d p u
  | .new t => Consult.settle (p.checkTargetTypes ("new entry '" ++ node.text ++ "'")
      ((d.schema.lineage? t.typeName).getD []))

/-- Whether a resolved label is a new node. -/
def Related.isNew : Related → Bool
  | .new _ => true
  | .existing _ => false

/-- Resolves one value of a predicate. -/
def resolveObject (d : Directory) (r : Resolver) (c : Context) (p : Predicate)
    (st : Resolution) (o : Object) : Consult (Object × Resolution) := do
  match o.value with
  | .existing u =>
    checkStored d p u
    return (o, st)
  | .new node =>
    match st.resolved.get? node.name with
    | some done =>
      checkReused d p node done
      return ({ o with value := done.operand }, st)
    | none =>
      let related ← resolveLabel d r p node c
      let siblings :=
        if p.direction? == some .mutual && related.isNew then node.name :: st.siblings
        else st.siblings
      return ({ o with value := related.operand },
        ⟨st.resolved.insert node.name related, siblings⟩)
  | _ => return (o, st)

/-- Resolves the values of a predicate in order. -/
def resolveObjects (d : Directory) (r : Resolver) (c : Context) (p : Predicate) :
    Resolution → List Object → Consult (List Object × Resolution)
  | st, [] => return ([], st)
  | st, o :: rest => do
    let (o, st) ← resolveObject d r c p st o
    let (rest, st) ← resolveObjects d r c p st rest
    return (o :: rest, st)

/-- Values without those that were said before. -/
def distinctObjects (objects : List Object) : List Object :=
  objects.foldl (fun kept o => if kept.any (·.value == o.value) then kept else kept ++ [o]) []

/-- Resolves the values of all relationships, by predicate. -/
def resolveFields (d : Directory) (r : Resolver) (c : Context) (t : TypeDef) :
    Resolution → List (String × List Object) → Fields → Consult (Fields × Resolution)
  | st, [], fields => return (fields, st)
  | st, (name, objects) :: rest, fields =>
    match (t.predicate? name).filter (·.isRelationship) with
    | none => resolveFields d r c t st rest fields
    | some p => do
      let (objects, st) ← resolveObjects d r c p st objects
      resolveFields d r c t st rest (fields.insert name (distinctObjects objects))

/-- A sibling with the fields that it takes over from the entry. -/
def inheritSibling (entry : Entity) (t : Satellite) : Satellite :=
  { t with fields := Inventory.siblingInherited.foldl (fun fields name =>
      match entry.get? name with
      | some values => fields.insert name values
      | none => fields) t.fields }

/-- The related nodes, new siblings with what they take over from the entry. -/
def inheritSiblings (entry : Entity) (st : Resolution) : List Related :=
  (st.resolved.map fun name related =>
    match related with
    | .new t => if st.siblings.contains name then .new (inheritSibling entry t) else related
    | .existing _ => related).values

/-- An entry with all its labels resolved, and the related nodes by name. -/
def resolveRelated (d : Directory) (r : Resolver) (c : Context) (t : TypeDef) (entry : Entity) :
    Consult (Entity × List Related) := do
  let (fields, st) ← resolveFields d r c t ⟨.empty, []⟩ entry.fields.entries entry.fields
  let entry := { entry with fields }
  return (entry, inheritSiblings entry st)

end PressRegister
