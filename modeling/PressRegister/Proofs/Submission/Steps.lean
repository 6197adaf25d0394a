import PressRegister.Proofs.Consult
import PressRegister.Submission

/-!
# The steps of a submission

A submission that succeeds has taken all of its steps, each from the desk that the
one before left. What a success implies is read off from these steps, and a
submission that can take them succeeds.

## Main definitions

* `NewRun`: the steps of a new entry.
* `EditRun`: the steps of a change to an entry.

## Main results

* `newEntry_yields`, `editEntry_yields`: a submission succeeds exactly if it takes its steps.
-/

namespace PressRegister

open Consult

variable {d : Directory} {r : Resolver} {typeName : String} {form : Form} {c : Context}
  {before after : Desk} {sub : Submission}

/-- The steps of a new entry. -/
structure NewRun (d : Directory) (r : Resolver) (typeName : String) (form : Form) (c : Context)
    (before after : Desk) (sub : Submission) where
  type : TypeDef
  status : ReviewStatus
  /-- The values of the form. -/
  fields : Fields
  /-- The entry with the defaults of its type, on a new node. -/
  filled : Entity
  /-- The entry with its labels resolved. -/
  resolved : Entity
  /-- The entry with its unique name. -/
  named : Entity
  related : List Related
  mutation : Mutation
  afterStatus : Desk
  afterRead : Desk
  afterDefaults : Desk
  afterRelated : Desk
  isType : entryType d typeName = .ok type
  mayAdd : checkRole c.role type.permissionNew "add" type = .ok ()
  hasStatus : (newStatus type form c).Yields before status afterStatus
  reads : (form.read type [] (·.writableOnNew c.role)).Yields afterStatus fields afterRead
  fills : (applyDefaults type.predicates ⟨.new (BlankNode.fresh afterRead.supply).1, fields⟩).Yields
    { afterRead with supply := (BlankNode.fresh afterRead.supply).2 } filled afterDefaults
  resolves : (resolveRelated d r c type filled).Yields afterDefaults (resolved, related) afterRelated
  names : (withUniqueName d type resolved).Yields afterRelated named after
  complete : checkRequired type (withoutEmptyFields (withSystemFields type status c named)) = .ok ()
  compiles : Mutation.compile d.schema (withoutEmptyFields (withSystemFields type status c named))
    [] related = .ok mutation
  result : sub = ⟨type.name, status, withoutEmptyFields (withSystemFields type status c named),
    [], related, mutation⟩

/-- A new entry is submitted exactly if all steps are taken. -/
theorem newEntry_yields : (newEntry d r typeName form c).Yields before sub after ↔
    Nonempty (NewRun d r typeName form c before after sub) := by
  simp only [newEntry, yields_bind, yields_settle, yields_pure, yields_draw]
  constructor
  · rintro ⟨t, _, ⟨ht, rfl⟩, ⟨⟩, _, ⟨hrole, rfl⟩, status, d₁, hstatus, fields, d₂, hread, node, _,
      ⟨rfl, rfl⟩, filled, d₃, hfills, ⟨resolved, related⟩, d₄, hresolves, named, d₅, hnames, ⟨⟩, _,
      ⟨hcomplete, rfl⟩, m, _, ⟨hcompiles, rfl⟩, hsub, rfl⟩
    exact ⟨⟨t, status, fields, filled, resolved, named, related, m, d₁, d₂, d₃, d₄, ht, hrole,
      hstatus, hread, hfills, hresolves, hnames, hcomplete, hcompiles, hsub⟩⟩
  · rintro ⟨run⟩
    exact ⟨run.type, _, ⟨run.isType, rfl⟩, (), _, ⟨run.mayAdd, rfl⟩, run.status, _, run.hasStatus,
      run.fields, _, run.reads, _, _, ⟨rfl, rfl⟩, run.filled, _, run.fills,
      (run.resolved, run.related), _, run.resolves, run.named, _, run.names, (), _,
      ⟨run.complete, rfl⟩, run.mutation, _, ⟨run.compiles, rfl⟩, run.result, rfl⟩

/-- A changed entry as it is written, and the predicates that are cleared for it. -/
def changed (c : Context) (t : TypeDef) (current status : ReviewStatus) (e : Entity) :
    Entity × List String :=
  (withoutEmptyFields (withEditHistory c current status e).1,
    clearedFields t e ++ (withEditHistory c current status e).2)

/-- The predicates of a node that are cleared, if there are any. -/
def overwritesOf (u : Uid) (cleared : List String) : Mutation.Overwrites :=
  if cleared.isEmpty then [] else [(u, cleared)]

/-- The steps of a change to an entry. -/
structure EditRun (d : Directory) (r : Resolver) (typeName : String) (form : Form) (c : Context)
    (before after : Desk) (sub : Submission) where
  uid : Uid
  info : EntryInfo
  type : TypeDef
  status : ReviewStatus
  /-- The values of the form. -/
  fields : Fields
  /-- The entry with its labels resolved. -/
  resolved : Entity
  related : List Related
  mutation : Mutation
  afterInfo : Desk
  afterStatus : Desk
  afterRead : Desk
  afterCheck : Desk
  hasUid : form.uid = .ok uid
  isEntry : (existingEntry d uid).Yields before info afterInfo
  isType : entryType d typeName = .ok type
  mayEdit : checkEdit c type info uid = .ok ()
  hasStatus : (editStatus type form c (info.status.getD .pending)).Yields afterInfo status
    afterStatus
  reads : (form.read type ["uid"] (·.writableOnEdit (info.status.getD .pending) c.role)).Yields
    afterStatus fields afterRead
  isFree : (checkUniqueName d uid ⟨.existing uid, fields⟩).Yields afterRead () afterCheck
  resolves : (resolveRelated d r c type ⟨.existing uid, fields⟩).Yields afterCheck
    (resolved, related) after
  compiles : Mutation.compile d.schema
    (changed c type (info.status.getD .pending) status resolved).1
    (overwritesOf uid (changed c type (info.status.getD .pending) status resolved).2) related =
      .ok mutation
  result : sub = ⟨type.name, status, (changed c type (info.status.getD .pending) status resolved).1,
    overwritesOf uid (changed c type (info.status.getD .pending) status resolved).2, related,
    mutation⟩

/-- A change is submitted exactly if all steps are taken. -/
theorem editEntry_yields : (editEntry d r typeName form c).Yields before sub after ↔
    Nonempty (EditRun d r typeName form c before after sub) := by
  simp only [editEntry, yields_bind, yields_settle, yields_pure]
  constructor
  · rintro ⟨u, _, ⟨hu, rfl⟩, info, d₁, hinfo, t, _, ⟨ht, rfl⟩, ⟨⟩, _, ⟨hmay, rfl⟩, status, d₂,
      hstatus, fields, d₃, hread, ⟨⟩, d₄, hfree, ⟨resolved, related⟩, d₅, hresolves, m, _,
      ⟨hcompiles, rfl⟩, hsub, rfl⟩
    exact ⟨⟨u, info, t, status, fields, resolved, related, m, _, _, _, _, hu, hinfo, ht, hmay,
      hstatus, hread, hfree, hresolves, hcompiles, hsub⟩⟩
  · rintro ⟨run⟩
    exact ⟨run.uid, _, ⟨run.hasUid, rfl⟩, run.info, _, run.isEntry, run.type, _, ⟨run.isType, rfl⟩,
      (), _, ⟨run.mayEdit, rfl⟩, run.status, _, run.hasStatus, run.fields, _, run.reads, (), _,
      run.isFree, (run.resolved, run.related), _, run.resolves, run.mutation, _,
      ⟨run.compiles, rfl⟩, run.result, rfl⟩

theorem NewRun.entry_eq (run : NewRun d r typeName form c before after sub) :
    sub.entry = withoutEmptyFields (withSystemFields run.type run.status c run.named) :=
  congrArg Submission.entry run.result

theorem EditRun.entry_eq (run : EditRun d r typeName form c before after sub) : sub.entry =
    (changed c run.type (run.info.status.getD .pending) run.status run.resolved).1 :=
  congrArg Submission.entry run.result

/-! ### Single steps -/

theorem entryType_ok {t : TypeDef} (h : entryType d typeName = .ok t) :
    d.schema.type? typeName = some t := by
  unfold entryType at h
  split at h
  · rename_i t' ht
    cases h
    exact ht
  · cases h

theorem checkRole_ok {role needed : Role} {action : String} {t : TypeDef} :
    checkRole role needed action t = .ok () ↔ needed ≤ role := by
  have hle : needed ≤ role ↔ ¬ role < needed := Nat.not_lt.symm
  unfold checkRole
  split <;> simp_all

theorem existingEntry_yields {u : Uid} {info : EntryInfo} :
    (existingEntry d u).Yields before info after ↔
      (Lookup.entryInfo d u).Yields before (some info) after := by
  simp only [existingEntry, yields_bind]
  constructor
  · rintro ⟨_ | info', mid, hinfo, h⟩
    · exact (not_yields_fail h).elim
    · obtain ⟨rfl, rfl⟩ := yields_pure.1 h
      exact hinfo
  · intro h
    exact ⟨some info, after, h, yields_pure.2 ⟨rfl, rfl⟩⟩

/-- Who may change an entry as one of a type. -/
theorem checkEdit_ok {t : TypeDef} {info : EntryInfo} {u : Uid} :
    checkEdit c t info u = .ok () ↔ t.name ∈ info.types ∧ t.permissionEdit ≤ c.role ∧
      (.reviewer ≤ c.role ∨ info.submitter = some c.user ∧ .contributor ≤ c.role) := by
  by_cases htype : t.name ∈ info.types
  · have hcheck : checkEdit c t info u = (checkRole c.role t.permissionEdit "edit" t >>= fun _ =>
        checkEditAccess c.role (info.submitter == some c.user)) := by
      simp [checkEdit, htype]
    rw [hcheck, bind_eq_ok]
    constructor
    · rintro ⟨⟨⟩, hrole, haccess⟩
      unfold checkEditAccess at haccess
      split at haccess
      · rename_i hmay
        exact ⟨htype, checkRole_ok.1 hrole, by simpa using hmay⟩
      · cases haccess
    · rintro ⟨-, hrole, hmay⟩
      refine ⟨(), checkRole_ok.2 hrole, ?_⟩
      unfold checkEditAccess
      rw [if_pos (by simpa using hmay)]
  · simp [checkEdit, htype]

end PressRegister
