import PressRegister.Mutation
import PressRegister.Store

/-!
# Writing changes

A change is written as one mutation and is never tried twice. Whatever goes wrong
on the way counts as a conflict with the store.

## Main definitions

* `Writer.apply`: writes a mutation, unless it changes nothing.
-/

namespace PressRegister.Writer

/-- An error of the store as a conflict. -/
def conflict : Error → Error
  | .storeConflict message => .storeConflict message
  | e => .storeConflict e.message

/-- Writes a mutation by means of `send`, unless it changes nothing. -/
def apply (send : Mutation → Except Error NewUids) (m : Mutation) : Except Error NewUids :=
  if m.isEmpty then .ok .empty else (send m).mapError conflict

end PressRegister.Writer
