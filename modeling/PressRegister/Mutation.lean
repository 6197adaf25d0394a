import PressRegister.Query
import PressRegister.Statement
import PressRegister.Text.Lines

/-!
# Mutations

A mutation binds variables, deletes statements and then sets statements, so that a
predicate that is cleared and set anew holds exactly the new values.

## Main definitions

* `Mutation`: a mutation.
* `Mutation.compile`: the mutation that writes an entry and its satellites.
* `Mutation.body`: the text that is sent to the store.
-/

namespace PressRegister

open Text

/-- A mutation: what is bound, then what is deleted, then what is set. -/
structure Mutation where
  prelude : List Block
  delete : List Statement
  set : List Statement
  deriving Inhabited

namespace Mutation

/-- The mutation that does nothing. -/
def empty : Mutation := ⟨[], [], []⟩

/-- Whether a mutation changes nothing. -/
def isEmpty (m : Mutation) : Bool :=
  m.delete.isEmpty && m.set.isEmpty

/-- One mutation after another within one transaction. -/
def append (m n : Mutation) : Mutation :=
  ⟨m.prelude ++ n.prelude, m.delete ++ n.delete, m.set ++ n.set⟩

instance : Append Mutation := ⟨append⟩

/-! ### Compilation -/

/-- The block that binds the nodes of owning types whose edge leads to a node.
Other types may declare an edge of the same name; theirs is left alone. -/
def ownersBlock (var edge : String) (u : Uid) (owners : List String) : Block :=
  Block.binding var (.has edge) (Filter.allOf?
    (.compare .uidIn edge (.uid u) :: (Filter.anyOf? (owners.map .ofType)).toList))

/-- The statement that deletes the edges of bound nodes to a node. -/
def unlink (var edge : String) (u : Uid) : Statement :=
  .plain (.var ⟨var, false⟩) edge (.existing u)

/-- The statement that deletes all values of a predicate. -/
def clearAll (u : Uid) (name : String) : Statement :=
  .plain (.existing u) name .wildcard

/-- The mutation that clears a predicate of a node wherever its values are stored. -/
def clearing (u : Uid) (p : Predicate) (name : String) : Mutation :=
  let owners := (p.relationship?.map (·.constraint)).getD []
  match p.direction? with
  | some (.reverse edge) =>
    let var := "rev_" ++ u.text ++ "_" ++ name
    ⟨[ownersBlock var edge u owners], [unlink var edge u], []⟩
  | some .mutual =>
    let var := "mut_" ++ u.text ++ "_" ++ name
    ⟨[ownersBlock var name u owners], [clearAll u name, unlink var name u], []⟩
  | _ => ⟨[], [clearAll u name], []⟩

/-- The predicates that are cleared before new values are set, by node and in the
order of the nodes' identifiers. -/
abbrev Overwrites := List (Uid × List String)

/-- Sets the predicates that are cleared of a node. -/
def Overwrites.insert (u : Uid) (names : List String) : Overwrites → Overwrites
  | [] => [(u, names)]
  | o :: rest =>
    if u.text < o.1.text then (u, names) :: o :: rest
    else if u = o.1 then (u, names) :: rest
    else o :: Overwrites.insert u names rest

/-- The mutation that clears predicates of nodes. -/
def clearings (s : Schema) : List (Uid × String) → Except Error Mutation
  | [] => .ok empty
  | (u, name) :: rest =>
    match s.predicate? name with
    | none => .error (.unknownPredicate name)
    | some p => (clearings s rest).map (clearing u p name ++ ·)

/-- The statements that create the new ones among related nodes. -/
def satelliteStatements (s : Schema) (related : List Related) : List Statement :=
  related.flatMap fun
    | .existing _ => []
    | .new t => (t.entity s).statements s

/-- The mutation that clears predicates and then writes an entry and its satellites. -/
def compile (s : Schema) (entry : Entity) (overwrites : Overwrites) (related : List Related) :
    Except Error Mutation :=
  (clearings s (overwrites.flatMap fun o => o.2.map fun name => (o.1, name))).map fun m =>
    { m with set := entry.statements s ++ satelliteStatements s related }

/-! ### Text -/

/-- Statements one below the other; nothing if there are none. -/
def statementLines? (statements : List Statement) : Option (List Char) :=
  if statements.isEmpty then none else some (joinLines (statements.map Statement.chars))

/-- The blocks of the prelude; nothing if there are none. -/
def preludeChars? (m : Mutation) : Option (List Char) :=
  if m.prelude.isEmpty then none else some (Block.listChars 2 m.prelude)

/-- Lines moved to the right. -/
def indented (width : Nat) (cs : List Char) : List Char :=
  joinLines ((lines cs).map (List.replicate width ' ' ++ ·))

/-- A section of statements with its name. -/
def sectionChars (name : String) (body : Option (List Char)) : List Char :=
  match body with
  | some body => "    ".toList ++ name.toList ++ " \x7b\n".toList ++ indented 6 body ++
      "\n    \x7d\n".toList
  | none => []

/-- A line without two blanks at its start. -/
def outdent : List Char → List Char
  | ' ' :: ' ' :: rest => rest
  | line => line

/-- Both sections of statements, deletions first. -/
def operationChars (m : Mutation) : List Char :=
  sectionChars "delete" (statementLines? m.delete) ++ sectionChars "set" (statementLines? m.set)

/-- The text that is sent to the store. With a prelude the statements depend on a query. -/
def bodyChars (m : Mutation) : List Char :=
  match m.preludeChars? with
  | some prelude =>
    "upsert \x7b\n  query \x7b\n".toList ++ prelude ++ "  \x7d\n  mutation \x7b\n".toList ++
      m.operationChars ++ "  \x7d\n\x7d\n".toList
  | none =>
    "\x7b\n".toList ++ (lines m.operationChars).flatMap (fun l => outdent l ++ ['\n']) ++
      "\x7d\n".toList

/-- The text that is sent to the store. -/
def body (m : Mutation) : String :=
  String.ofList m.bodyChars

end Mutation

end PressRegister
