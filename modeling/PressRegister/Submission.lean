import PressRegister.Submission.Satellites

/-!
# Submitting entries

A form becomes an entry, the nodes related to it, and the mutation that writes
them. Permissions and the step of the review are checked before any field is read,
so a refused submission compiles nothing.

## Main definitions

* `newEntry`: the submission of a new entry.
* `editEntry`: the submission of a change to an entry.
-/

namespace PressRegister

open Calendar Consult

/-- The type with a name. -/
def entryType (d : Directory) (typeName : String) : Except Error TypeDef :=
  match d.schema.type? typeName with
  | some t => .ok t
  | none => .error (.invalidValue "dgraph.type" typeName "unknown entity type")

/-- Checks that a role is not below the one needed; `action` names what is refused. -/
def checkRole (role needed : Role) (action : String) (t : TypeDef) : Except Error Unit :=
  if role < needed then
    .error (.permissionDenied (role.name ++ " cannot " ++ action ++ " " ++ t.name ++ " entries"))
  else .ok ()

/-- The error of a unique name that another node has. -/
def takenError (name : String) : Error :=
  .constraintViolation "unique_name" ("'" ++ name ++ "' is already taken")

/-- An entity without fields that have no value. -/
def withoutEmptyFields (e : Entity) : Entity :=
  { e with fields := e.fields.filter fun _ values => !values.isEmpty }

/-! ### Names of new entries -/

/-- The literals among the values of a predicate. -/
def textsOf (e : Entity) (predicate : String) : List String :=
  ((e.get? predicate).getD []).filterMap fun o => o.value.text?

/-- The stored node that a predicate leads to first. -/
def uidOf? (e : Entity) (predicate : String) : Option Uid :=
  match e.first? predicate with
  | some (.existing u) => some u
  | _ => none

/-- The year of the first value of a predicate. -/
def yearOf? (e : Entity) (predicate : String) : Option Int :=
  match e.first? predicate with
  | some (.literal (.instant t)) => some t.year
  | _ => none

/-- A paper with its citation for a name, unless it has a name. -/
def namePaper (e : Entity) : Entity :=
  match e.text? "name" with
  | some _ => e
  | none =>
    let name := Naming.paperName (textsOf e "authors") (yearOf? e "published_date")
      ((e.text? "title").getD "")
    if name.isEmpty then e else e.set "name" [.plain (.ofText name)]

/-- The unique name of the node that a predicate leads to. -/
def uniqueNameOf (d : Directory) (e : Entity) (predicate : String) : Consult (Option String) :=
  match uidOf? e predicate with
  | some u => Lookup.uniqueName d u
  | none => return none

/-- The unique name that the name of an entry gives. -/
def nameByType (d : Directory) (t : TypeDef) (e : Entity) : Consult String := do
  match e.text? "name" with
  | none => fail (.constraintViolation "name" "is required")
  | some name =>
    if t.isA "Source" then
      let channel ← uniqueNameOf d e "channel"
      let country ← uniqueNameOf d e "country"
      Naming.sourceUniqueName d name channel country
    else Naming.uniqueName d name

/-- The unique name of a new entry; a paper also gets a name if it has none. -/
def generateUniqueName (d : Directory) (t : TypeDef) (e : Entity) :
    Consult (String × Entity) := do
  if t.isA "ResearchPaper" then
    let e := namePaper e
    match Naming.paperKey (e.text? "doi") (e.text? "arxiv") with
    | some key =>
      if ← Naming.isTaken d key then return (← draw (Naming.disambiguate key), e)
      else return (key, e)
    | none => return (← nameByType d t e, e)
  else return (← nameByType d t e, e)

/-- A new entry with a unique name: the one it asks for, or a generated one. -/
def withUniqueName (d : Directory) (t : TypeDef) (e : Entity) : Consult Entity := do
  match e.text? "unique_name" with
  | some requested =>
    if ← Naming.isTaken d requested then fail (takenError requested) else return e
  | none =>
    let (name, e) ← generateUniqueName d t e
    return e.set "unique_name" [.plain (.ofText name)]

/-! ### New entries -/

/-- The status of a new entry: the initial one, or the one that its form asks for. -/
def newStatus (t : TypeDef) (form : Form) (c : Context) : Consult ReviewStatus := do
  let initial ← settle (ReviewStatus.initial c.role c.accept)
  match ← form.requestedStatus t with
  | none => return initial
  | some requested =>
    if requested = initial then return initial
    else settle (ReviewStatus.transition initial requested c.role)

/-- A new entry with what the system sets. -/
def withSystemFields (t : TypeDef) (status : ReviewStatus) (c : Context) (e : Entity) : Entity :=
  let e := ((e.set ReviewStatus.predicateName [.plain (.ofText status.name)]).set "entry_added"
    [c.userEdge]).set "creation_date" [c.date]
  let e := if status = .accepted then e.set "reviewed_by" [c.userEdge] else e
  e.set "dgraph.type" (t.lineage.map fun name => .plain (.ofText name))

/-- The submission of a new entry. -/
def newEntry (d : Directory) (r : Resolver) (typeName : String) (form : Form) (c : Context) :
    Consult Submission := do
  let t ← settle (entryType d typeName)
  settle (checkRole c.role t.permissionNew "add" t)
  let status ← newStatus t form c
  let fields ← form.read t [] (·.writableOnNew c.role)
  let node ← draw BlankNode.fresh
  let entry ← applyDefaults t.predicates ⟨.new node, fields⟩
  let (entry, related) ← resolveRelated d r c t entry
  let entry ← withUniqueName d t entry
  let entry := withoutEmptyFields (withSystemFields t status c entry)
  settle (checkRequired t entry)
  let mutation ← settle (Mutation.compile d.schema entry [] related)
  return ⟨t.name, status, entry, [], related, mutation⟩

/-! ### Changes -/

/-- The node that a form changes. -/
def Form.uid (form : Form) : Except Error Uid :=
  match form.get? "uid" with
  | none => .error (.constraintViolation "uid" "editing requires a uid")
  | some raw =>
    match raw.string?.bind Uid.parse? with
    | some u => .ok u
    | none => .error (.invalidValue "uid" raw.compact "not a uid")

/-- The status that a change leads to. -/
def editStatus (t : TypeDef) (form : Form) (c : Context) (current : ReviewStatus) :
    Consult ReviewStatus := do
  let target ←
    if c.accept then pure ReviewStatus.accepted
    else (·.getD current) <$> form.requestedStatus t
  settle (ReviewStatus.transition current target c.role)

/-- Checks that no other node has the unique name that a change asks for. -/
def checkUniqueName (d : Directory) (u : Uid) (e : Entity) : Consult Unit := do
  match e.text? "unique_name" with
  | none => return ()
  | some requested =>
    let holder ← Lookup.findUid d "unique_name" requested
    if holder.any (· != u) then fail (takenError requested) else return ()

/-- The predicates whose stored values a change clears: those it leaves without a
value, and those that are declared to be overwritten. -/
def clearedFields (t : TypeDef) (e : Entity) : List String :=
  (e.fields.entries.filter fun f =>
    f.2.isEmpty || ((t.predicate? f.1).map (·.overwrite)).getD false).map (·.1)

/-- A changed entry with what the system sets, and the predicates that it clears for that. -/
def withEditHistory (c : Context) (current status : ReviewStatus) (e : Entity) :
    Entity × List String :=
  let e := e.push "entry_edit_history" c.userEdge
  if status = current then (e, [])
  else
    let e := e.set ReviewStatus.predicateName [.plain (.ofText status.name)]
    if status.isTerminal then (e.set "reviewed_by" [c.userEdge], ["reviewed_by"])
    else (e, [])

/-- Checks that an entry is of a type and may be changed by a user. -/
def checkEdit (c : Context) (t : TypeDef) (info : EntryInfo) (u : Uid) : Except Error Unit := do
  if !info.types.contains t.name then
    .error (.constraintViolation "dgraph.type" ("<" ++ u.text ++ "> is not a " ++ t.name))
  else
    checkRole c.role t.permissionEdit "edit" t
    checkEditAccess c.role (info.submitter == some c.user)

/-- The entry that a form changes. -/
def existingEntry (d : Directory) (u : Uid) : Consult EntryInfo := do
  match ← Lookup.entryInfo d u with
  | some info => return info
  | none => fail (.constraintViolation "uid"
      ("<" ++ u.text ++ "> is not an existing entry"))

/-- The submission of a change to the entry that the form names. -/
def editEntry (d : Directory) (r : Resolver) (typeName : String) (form : Form) (c : Context) :
    Consult Submission := do
  let u ← settle form.uid
  let info ← existingEntry d u
  let t ← settle (entryType d typeName)
  settle (checkEdit c t info u)
  let current := info.status.getD .pending
  let status ← editStatus t form c current
  let fields ← form.read t ["uid"] (·.writableOnEdit current c.role)
  checkUniqueName d u ⟨.existing u, fields⟩
  let (entry, related) ← resolveRelated d r c t ⟨.existing u, fields⟩
  let cleared := clearedFields t entry
  let (entry, clearedBySystem) := withEditHistory c current status entry
  let entry := withoutEmptyFields entry
  let cleared := cleared ++ clearedBySystem
  let overwrites : Mutation.Overwrites := if cleared.isEmpty then [] else [(u, cleared)]
  let mutation ← settle (Mutation.compile d.schema entry overwrites related)
  return ⟨t.name, status, entry, overwrites, related, mutation⟩

end PressRegister
