import PressRegister.Inventory
import PressRegister.Lookup
import PressRegister.Remote
import PressRegister.Text.Lines

/-!
# The command line

One filter map is read, from a file or from standard input, and its query is
printed with the values of its variables. A filter map that restricts nothing
prints nothing. On request the query is also asked, and its answer is printed.

## Main definitions

* `CommandLine.Task`, `CommandLine.read`: what the arguments ask for.
* `Report`: what a run prints, and its exit code.
* `CommandLine.run`: the report of a run.
-/

namespace PressRegister

/-- What a run prints, and its exit code. -/
structure Report where
  code : Nat
  output : String
  /-- What goes to standard error. -/
  complaint : String
  deriving DecidableEq, Repr

namespace CommandLine

/-! ### Arguments -/

/-- What the arguments ask for. -/
structure Options where
  /-- The file that holds the filter map; standard input, if there is none. -/
  file : Option String := none
  /-- Whether the query is also asked. -/
  execute : Bool := false
  /-- Whether entries that are not accepted are shown. -/
  showAll : Bool := false
  deriving DecidableEq, Repr

/-- A run as its arguments describe it. -/
inductive Task where
  | help
  | wrongUsage (argument : String)
  | search (options : Options)
  deriving DecidableEq, Repr

/-- Takes in the name of the file; there is at most one, and it is not empty. -/
def Options.withFile? (o : Options) (name : String) : Option Options :=
  if o.file.isNone && name != "" then some { o with file := some name } else none

/-- Takes in an option; none is given twice. -/
def Options.withFlag? (o : Options) (arg : String) : Option Options :=
  if arg = "--execute" && !o.execute then some { o with execute := true }
  else if arg = "--private" && !o.showAll then some { o with showAll := true }
  else none

/-- Whether an argument is an option; a single dash is a file name. -/
def isOption (arg : String) : Bool :=
  arg.toList.head? == some '-' && arg != "-"

/-- Whether an argument asks for help. -/
def asksHelp (arg : String) : Bool :=
  arg = "--help" || ['-', 'h'].isPrefixOf arg.toList

/-- Reads arguments from left to right. After two dashes every argument is a file name. -/
def readFrom (o : Options) (namesOnly : Bool) : List String → Task
  | [] => .search o
  | arg :: rest =>
    if !namesOnly && arg = "--" then readFrom o true rest
    else if !namesOnly && asksHelp arg then .help
    else match if !namesOnly && isOption arg then o.withFlag? arg else o.withFile? arg with
      | some o => readFrom o namesOnly rest
      | none => .wrongUsage arg

/-- What the arguments ask for. -/
def read (args : List String) : Task :=
  readFrom {} false args

/-- The text that explains the arguments. -/
def helpText : String :=
  "Compile a media inventory filter map into DQL\n\n" ++
  "Usage: inventory-query [OPTIONS] [FILE]\n\n" ++
  "Arguments:\n" ++
  "  [FILE]  JSON filter map; read from stdin when omitted\n\n" ++
  "Options:\n" ++
  "      --execute  Run the query against DGRAPH_ENDPOINT and print the response\n" ++
  "      --private  Include entries that are not accepted yet\n" ++
  "  -h, --help     Print help\n"

/-! ### Runs -/

/-- The report of a run that failed after it had printed something. -/
def failure (output complaint : String) : Report :=
  ⟨1, output, "Error: " ++ complaint ++ "\n"⟩

/-- A query and the values of its variables as they are printed. -/
def printed (c : Search.Compiled) : String :=
  c.text ++ "\n" ++
    (Json.object (c.bindings.entries.map fun v => (v.1, .string v.2))).pretty ++ "\n"

/-- Asks a query, and prints the answer after what is printed already. -/
def asked (output : String) (settings : Settings) (exchange : Exchange) (c : Search.Compiled) :
    Report :=
  match (Remote.ofSettings settings).query exchange ⟨c.text, c.bindings⟩ with
  | .ok answer => ⟨0, output ++ answer.pretty ++ "\n", ""⟩
  | .error e => failure output e.message

/-- The report on a filter map. -/
def search (o : Options) (env : Table String) (exchange : Exchange) (raw : Json) : Report :=
  match Settings.ofEnv env with
  | .error e => failure "" e.message
  | .ok settings =>
    match Search.compile Inventory.schema (FilterMap.ofJson raw)
        (settings.publicQueries && !o.showAll) with
    | none => ⟨0, "", ""⟩
    | some c => if o.execute then asked (printed c) settings exchange c else ⟨0, printed c, ""⟩

/-- The report of a run; `source` is the text of the file or of standard input, if
it can be read. -/
def run (task : Task) (env : Table String) (source : Option String) (exchange : Exchange) :
    Report :=
  match task with
  | .help => ⟨0, helpText, ""⟩
  | .wrongUsage arg => ⟨2, "", "error: unexpected argument '" ++ arg ++ "'\n"⟩
  | .search o =>
    match source with
    | none => failure "" "Failed to read filter map"
    | some text =>
      match Json.parse? text with
      | none => failure "" "Filter map is not valid JSON"
      | some raw => search o env exchange raw

end CommandLine

end PressRegister
