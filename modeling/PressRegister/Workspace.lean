import PressRegister.Inventory
import PressRegister.Store.Answer
import PressRegister.Submission
import PressRegister.Writer

/-!
# A workspace over the node table

Everything that submissions need, over a store in memory: the schema of the
inventory, a resolver of labels, an account, and a record of what was asked and
written.

## Main definitions

* `Workspace`: the parts.
* `Workspace.consult`, `Workspace.apply`: asks and writes.
* `Workspace.submit`: sanitizes a new entry and writes it.
-/

namespace PressRegister

/-- A store in memory with what submissions need around it. -/
structure Workspace where
  schema : Schema
  store : Store
  resolver : Resolver
  /-- The account that is there from the start. -/
  user : Uid
  supply : Supply
  /-- The texts of all questions so far. -/
  asked : List String
  /-- The number of mutations that were carried out. -/
  commits : Nat
  /-- Why mutations are refused, if they are. -/
  refusal : Option String
  /-- The answer to questions that are no look-ups. -/
  fixedAnswer : Option Json

namespace Workspace

/-- A workspace with one account and no entries. -/
def start (resolver : Resolver) (supply : Supply) : Workspace :=
  let (user, store) := Store.empty.addNode [Inventory.userType] []
  ⟨Inventory.schema, store, resolver, user, supply, [], 0, none, none⟩

/-- What submissions can know of the store. -/
def directory (w : Workspace) : Directory where
  schema := w.schema
  answer q := .ok (w.store.answer w.fixedAnswer q)

/-- Takes a step that consults the store, and keeps record of its questions. -/
def consult {α : Type} (w : Workspace) (step : Directory → Consult α) :
    Except Error α × Workspace :=
  let (result, desk) := (step w.directory).run ⟨[], w.supply⟩
  (result, { w with
    supply := desk.supply
    asked := w.asked ++ desk.asked.map (·.text) })

/-- Writes a mutation. -/
def apply (w : Workspace) (m : Mutation) : Except Error NewUids × Workspace :=
  if m.isEmpty then (.ok .empty, w)
  else match w.refusal with
    | some message => (.error (.storeConflict message), w)
    | none =>
      let (store, uids) := Store.commit w.schema w.store m
      (.ok uids, { w with store, commits := w.commits + 1 })

/-- The identifier that an entry has once it is written. -/
def writtenUid (uids : NewUids) : Subject → Except Error Uid
  | .existing u => .ok u
  | .new node =>
    match (uids.get? node.name).bind Uid.parse? with
    | some u => .ok u
    | none => .error (.store ("no uid assigned to " ++ node.text))
  | s@(.var _) => .error (.store ("unexpected subject " ++ s.text))

/-- Sanitizes a new entry and writes it. -/
def submit (w : Workspace) (typeName : String) (form : Form) (c : Context) :
    Except Error Uid × Workspace :=
  match w.consult fun d => newEntry d w.resolver typeName form c with
  | (.error e, w) => (.error e, w)
  | (.ok submission, w) =>
    match w.apply submission.mutation with
    | (.error e, w) => (.error e, w)
    | (.ok uids, w) => (writtenUid uids submission.entry.subject, w)

end Workspace

end PressRegister
