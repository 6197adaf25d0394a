import PressRegister.Node.Uid
import PressRegister.Text.LetterCase
import PressRegister.Text.Pattern
import PressRegister.Text.Quoted

/-!
# Filters

Conditions on nodes as trees. Everything that ends up in query text is written
here, so that quoting and escaping happen in one place.

## Main definitions

* `Operator`, `Connector`: comparisons, and how several conditions are joined.
* `Arg`: arguments of comparisons; only texts and patterns carry user input.
* `Filter`: conditions, with `Filter.chars` as their text.
* `Filter.allOf?`, `Filter.anyOf?`: conditions joined, a single one standing for itself.
-/

namespace PressRegister

/-- A comparison between the values of a predicate and an argument. -/
inductive Operator where
  | eq
  | gt
  | lt
  | ge
  | le
  | anyOfTerms
  | allOfTerms
  | regexp
  | uidIn
  | has
  deriving DecidableEq, Repr, Inhabited

namespace Operator

/-- The name of an operator in queries. -/
def name : Operator → String
  | .eq => "eq"
  | .gt => "gt"
  | .lt => "lt"
  | .ge => "ge"
  | .le => "le"
  | .anyOfTerms => "anyofterms"
  | .allOfTerms => "allofterms"
  | .regexp => "regexp"
  | .uidIn => "uid_in"
  | .has => "has"

/-- Every operator. -/
def all : List Operator :=
  [.eq, .gt, .lt, .ge, .le, .anyOfTerms, .allOfTerms, .regexp, .uidIn, .has]

/-- Reads an operator's name, whatever its case and the blanks around it. -/
def read? (s : String) : Option Operator :=
  let text := Text.lower (Text.trim s)
  all.find? (·.name == text)

end Operator

/-- How several conditions on one predicate are joined. -/
inductive Connector where
  | and
  | or
  deriving DecidableEq, Repr, Inhabited

/-- Reads a connector, whatever its case and the blanks around it. -/
def Connector.read? (s : String) : Option Connector :=
  let text := Text.lower (Text.trim s)
  if ["and", "all", "implicit-and"].contains text then some .and
  else if ["or", "any"].contains text then some .or
  else none

/-- An argument of a comparison. -/
inductive Arg where
  /-- The name of a registered predicate, facet or type. -/
  | name (s : String)
  | text (s : String)
  /-- A number or truth value that was read from a text; it stands bare. -/
  | number (s : String)
  | uid (u : Uid)
  /-- A variable that comes with the query. -/
  | param (s : String)
  /-- A variable that a block of the query binds. -/
  | varRef (s : String)
  /-- A text to be matched in any case. -/
  | pattern (s : String)
  deriving DecidableEq, Repr

/-- The text of an argument. -/
def Arg.chars : Arg → List Char
  | .name s | .varRef s | .number s => s.toList
  | .text s => Text.quoteChars s.toList
  | .uid u => u.text.toList
  | .param s => '$' :: s.toList
  | .pattern s => Text.patternChars s.toList

/-- A condition on nodes. -/
inductive Filter where
  /-- The values of a predicate compare with an argument. -/
  | compare (op : Operator) (predicate : String) (arg : Arg)
  /-- A predicate has a value. -/
  | has (predicate : String)
  /-- The node is of a type. -/
  | ofType (name : String)
  /-- The node is bound to a variable by a block of the query. -/
  | inVar (name : String)
  /-- The node is bound to a variable that comes with the query. -/
  | isParam (name : String)
  | and (parts : List Filter)
  | or (parts : List Filter)
  deriving Repr, Inhabited

namespace Filter

/-- Conditions joined by `and`; a single condition stands for itself. -/
def allOf? : List Filter → Option Filter
  | [] => none
  | [f] => some f
  | fs => some (.and fs)

/-- Conditions joined by `or`; a single condition stands for itself. -/
def anyOf? : List Filter → Option Filter
  | [] => none
  | [f] => some f
  | fs => some (.or fs)

/-- Conditions joined by a connector. -/
def join? (connector : Connector) (fs : List Filter) : Option Filter :=
  match connector with
  | .and => allOf? fs
  | .or => anyOf? fs

/-- A call of a function with its arguments. -/
def callChars (name : String) (args : List (List Char)) : List Char :=
  name.toList ++ '(' :: ", ".toList.intercalate args ++ [')']

/-- Parts joined by a word; several parts stand in parentheses. -/
def groupChars (word : String) : List (List Char) → List Char
  | [] => []
  | [part] => part
  | parts => '(' :: word.toList.intercalate parts ++ [')']

mutual

/-- The text of a condition. -/
def chars : Filter → List Char
  | .compare op predicate arg => callChars op.name [predicate.toList, arg.chars]
  | .has predicate => callChars "has" [predicate.toList]
  | .ofType name => callChars "type" [Text.quoteChars name.toList]
  | .inVar name => callChars "uid" [name.toList]
  | .isParam name => callChars "uid" ['$' :: name.toList]
  | .and parts => groupChars " AND " (partChars parts)
  | .or parts => groupChars " OR " (partChars parts)

/-- The texts of several conditions. -/
def partChars : List Filter → List (List Char)
  | [] => []
  | f :: rest => f.chars :: partChars rest

end

/-- The text of a condition. -/
def render (f : Filter) : String :=
  String.ofList f.chars

theorem partChars_eq_map (fs : List Filter) : partChars fs = fs.map chars := by
  induction fs with
  | nil => rfl
  | cons f fs ih => simp [partChars, ih]

end Filter

end PressRegister
