import PressRegister.Error
import PressRegister.Text.Blank
import PressRegister.Text.LetterCase

/-!
# Roles and review status

## Main definitions

* `Role`: the tiers of privilege, in increasing order.
* `ReviewStatus`: how far the review of an entry has come.
* `ReviewStatus.read`: reads a status, whatever its case.
-/

namespace PressRegister

/-- The tier of privilege of a user. A higher tier may do all that a lower one may. -/
inductive Role where
  | anon
  | contributor
  | reviewer
  | admin
  deriving DecidableEq, Repr, Inhabited

namespace Role

/-- The place of a role in the order of privilege. -/
def rank : Role → Nat
  | .anon => 0
  | .contributor => 1
  | .reviewer => 2
  | .admin => 3

instance : LE Role := ⟨fun a b => a.rank ≤ b.rank⟩
instance : LT Role := ⟨fun a b => a.rank < b.rank⟩
instance (a b : Role) : Decidable (a ≤ b) := inferInstanceAs (Decidable (a.rank ≤ b.rank))
instance (a b : Role) : Decidable (a < b) := inferInstanceAs (Decidable (a.rank < b.rank))

/-- The name of a role. -/
def name : Role → String
  | .anon => "anon"
  | .contributor => "contributor"
  | .reviewer => "reviewer"
  | .admin => "admin"

/-- The role with a name. -/
def ofName? (s : String) : Option Role :=
  [anon, contributor, reviewer, admin].find? (·.name == s)

theorem ofName?_name (r : Role) : ofName? r.name = some r := by
  cases r <;> decide

end Role

/-- How far the review of an entry has come. -/
inductive ReviewStatus where
  | draft
  | pending
  | accepted
  | rejected
  deriving DecidableEq, Repr, Inhabited

namespace ReviewStatus

/-- The name of a status, as it is stored. -/
def name : ReviewStatus → String
  | .draft => "draft"
  | .pending => "pending"
  | .accepted => "accepted"
  | .rejected => "rejected"

/-- Whether a status is a decision: such entries are closed for most users. -/
def isTerminal : ReviewStatus → Bool
  | .accepted | .rejected => true
  | .draft | .pending => false

/-- The predicate that holds the review status of an entry. -/
def predicateName : String := "entry_review_status"

/-- The status with a name. -/
def ofName? (s : String) : Option ReviewStatus :=
  [draft, pending, accepted, rejected].find? (·.name == s)

/-- Reads a status, whatever its case and the blanks around it. -/
def read (s : String) : Except Error ReviewStatus :=
  let text := Text.lower (Text.trim s)
  match ofName? text with
  | some status => .ok status
  | none => .error (.invalidValue predicateName text
      "has to be one of draft, pending, accepted, rejected")

theorem ofName?_name (s : ReviewStatus) : ofName? s.name = some s := by
  cases s <;> decide

end ReviewStatus

end PressRegister
