import PressRegister.CommandLine

/-!
# The program

Reads what a run needs, and prints its report. The program itself opens no
connections, so asking a query fails.
-/

open PressRegister

/-- The variables that settings are read from. -/
def settingNames : List String :=
  ["DGRAPH_ENDPOINT", "DGRAPH_ACCESS_TOKEN", "DGRAPH_TIMEOUT_SECS", "INVENTORY_PUBLIC_QUERIES"]

/-- The variables of the environment that are set. -/
def readEnv : IO (Table String) := do
  let values ← settingNames.mapM fun name => do
    return (← IO.getEnv name).map fun value => (name, value)
  return Table.ofList (values.filterMap id)

/-- The text that a task works on, if it can be read. -/
def readSource : CommandLine.Task → IO (Option String)
  | .search o =>
    try
      match o.file with
      | some name => return some (← IO.FS.readFile name)
      | none => return some (← (← IO.getStdin).readToEnd)
    catch _ => return none
  | _ => return none

/-- The exchange of a program without connections. -/
def noExchange : Exchange := fun request =>
  .error ("no connection to " ++ request.url)

/-- Runs the program. -/
def main (args : List String) : IO UInt32 := do
  let task := CommandLine.read args
  let report := CommandLine.run task (← readEnv) (← readSource task) noExchange
  IO.print report.output
  IO.eprint report.complaint
  return report.code.toUInt32
