import PressRegister.Text.Escaped

/-!
# Errors

What can go wrong between a raw form and a committed change, as causes, and the
one place where causes are put into words.

## Main definitions

* `Error`: the causes.
* `Error.message`: a cause in words.
* `Error.isValidation`: whether a cause is found before anything reaches the store.
-/

namespace PressRegister

/-- Why a step failed. -/
inductive Error where
  /-- A value fails the validation of its predicate. -/
  | invalidValue (predicate value reason : String)
  /-- A referenced node has the wrong type, or a required value is missing. -/
  | constraintViolation (predicate message : String)
  | permissionDenied (message : String)
  | unknownPredicate (name : String)
  /-- The store refused a mutation. -/
  | storeConflict (message : String)
  | store (message : String)
  | schema (message : String)
  | config (message : String)
  /-- A failure of another program part, in its own words. -/
  | other (message : String)
  deriving DecidableEq, Repr, Inhabited

namespace Error

/-- A cause in words. -/
def message : Error → String
  | .invalidValue predicate value reason =>
    "Invalid value for <" ++ predicate ++ ">: " ++ Text.shown value ++ " (" ++ reason ++ ")"
  | .constraintViolation predicate text =>
    "Constraint violated on <" ++ predicate ++ ">: " ++ text
  | .permissionDenied text => "Permission denied: " ++ text
  | .unknownPredicate name => "Unknown predicate: " ++ name
  | .storeConflict text => "Mutation failed: " ++ text
  | .store text => "Store error: " ++ text
  | .schema text => "Schema error: " ++ text
  | .config text => "Configuration error: " ++ text
  | .other text => text

/-- Whether a cause is found before anything reaches the store. -/
def isValidation : Error → Bool
  | .invalidValue .. | .constraintViolation .. | .permissionDenied _ | .unknownPredicate _ =>
    true
  | _ => false

end Error

/-- The error of a store response that is not of the expected form. -/
def Error.malformedResponse : Error :=
  .store "malformed store response: unexpected form"

end PressRegister
