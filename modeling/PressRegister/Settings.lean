import PressRegister.Error
import PressRegister.Number.Integer
import PressRegister.Table
import PressRegister.Text.Blank

/-!
# Settings

Settings come from environment variables. Each has a default; one that is set but
cannot be read is reported and not passed over.

## Main definitions

* `Settings`: the settings.
* `Settings.ofEnv`: reads them.
-/

namespace PressRegister

open Number

/-- Where the store is, how it is asked, and who may see what. -/
structure Settings where
  endpoint : String
  accessToken : Option String
  timeoutSeconds : Nat
  publicQueries : Bool
  deriving DecidableEq, Repr

namespace Settings

/-- A text without the slashes at its end. -/
def withoutSlashes (s : String) : String :=
  String.ofList (s.toList.reverse.dropWhile (· == '/')).reverse

/-- Reads a truth value. -/
def readFlag? (s : String) : Option Bool :=
  if s = "true" then some true else if s = "false" then some false else none

/-- Reads a variable; one that is not set or blank has its default. -/
def readOr {α : Type} (env : Table String) (name : String) (default : α)
    (read? : String → Option α) : Except Error α :=
  match env.get? name with
  | none => .ok default
  | some raw =>
    if Text.isAllBlank raw then .ok default
    else match read? (Text.trim raw) with
      | some value => .ok value
      | none => .error (.config (name ++ " has an invalid value: " ++ raw))

/-- Reads the settings. -/
def ofEnv (env : Table String) : Except Error Settings := do
  let timeoutSeconds ← readOr env "DGRAPH_TIMEOUT_SECS" 30
    fun s => readUnsigned? uint64Max s.toList
  let publicQueries ← readOr env "INVENTORY_PUBLIC_QUERIES" true readFlag?
  return {
    endpoint := withoutSlashes ((env.get? "DGRAPH_ENDPOINT").getD "http://localhost:8080")
    accessToken := (env.get? "DGRAPH_ACCESS_TOKEN").filter (· != "")
    timeoutSeconds
    publicQueries }

end Settings

end PressRegister
