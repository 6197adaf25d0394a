import PressRegister.Predicate

/-!
# The review workflow

Entries go from draft to pending, and from there to accepted or rejected. Who may
take which step depends on the role alone.

## Main definitions

* `ReviewStatus.initial`: the status of a fresh submission.
* `ReviewStatus.requiredRole`, `ReviewStatus.transition`: steps, and who may take them.
* `checkEditAccess`: who may change an entry.
* `Predicate.writableOnNew`, `Predicate.writableOnEdit`: who may set a field.
-/

namespace PressRegister

namespace ReviewStatus

/-- The status of a fresh submission; `accept` asks for its acceptance at once. -/
def initial (role : Role) (accept : Bool) : Except Error ReviewStatus :=
  if role < .contributor then
    .error (.permissionDenied "anonymous users cannot submit entries")
  else if !accept then .ok .pending
  else if .reviewer ≤ role then .ok .accepted
  else .error (.permissionDenied (role.name ++ " cannot accept entries"))

/-- The status of nodes that are created beside an entry. -/
def ofSatellites : ReviewStatus := .draft

/-- The lowest role that may move an entry from one status to another. -/
def requiredRole : ReviewStatus → ReviewStatus → Role
  | .draft, .draft | .draft, .pending | .pending, .pending => .contributor
  | .draft, _ | .pending, .accepted | .pending, .rejected => .reviewer
  | .pending, .draft => .admin
  | .accepted, .accepted | .rejected, .rejected => .contributor
  | .accepted, _ | .rejected, _ => .admin

/-- Moves an entry from one status to another. -/
def transition (source target : ReviewStatus) (role : Role) : Except Error ReviewStatus :=
  let needed := requiredRole source target
  if needed ≤ role then .ok target
  else .error (.permissionDenied (source.name ++ " -> " ++ target.name ++ " requires " ++
    needed.name ++ ", got " ++ role.name))

end ReviewStatus

/-- Reviewers may change any entry, contributors their own. -/
def checkEditAccess (role : Role) (isOwner : Bool) : Except Error Unit :=
  if .reviewer ≤ role ∨ (isOwner ∧ .contributor ≤ role) then .ok ()
  else .error (.permissionDenied "only the submitter or a reviewer can edit this entry")

namespace Predicate

/-- Whether a role may set a field of a new entry. -/
def writableOnNew (p : Predicate) (role : Role) : Bool :=
  !p.readOnly && p.permissionNew ≤ role

/-- Whether a role may change a field of an entry. Once the entry has left draft,
only fields that stay open may be changed. -/
def writableOnEdit (p : Predicate) (status : ReviewStatus) (role : Role) : Bool :=
  !p.readOnly && p.permissionEdit ≤ role && (p.edit || status == .draft)

end Predicate

end PressRegister
