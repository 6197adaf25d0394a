import PressRegister.Filter
import PressRegister.Number.Integer

/-!
# Queries

A query is a row of blocks. A block selects nodes by a function and a filter and
lists what is asked of them; a block may bind its nodes to a variable instead of
showing them.

## Main definitions

* `Selection`: what is asked of a node.
* `Selection.pushUnique`: adds a selection unless its predicate is asked for already.
* `Block`, `Query`: blocks and queries, with `Query.render` as the text.
-/

namespace PressRegister

open Number

/-- What is asked of a node. -/
inductive Selection where
  | field (predicate : String)
  /-- The number of nodes, or of the values of a predicate. -/
  | count (predicate : String)
  /-- Binds the values of a predicate to a variable. -/
  | bind (var predicate : String)
  /-- The nodes at the other ends of an edge, or the facets on it. -/
  | edge (predicate : String) (facetFilter : Option Filter) (facetKeys : List String)
      (children : List Selection)
  deriving Inhabited

namespace Selection

/-- An edge of whose other ends only plain fields are asked. -/
def nested (predicate : String) (children : List String) : Selection :=
  .edge predicate none [] (children.map .field)

/-- The predicate that a selection is about. -/
def predicate : Selection → String
  | .field p | .count p | .bind _ p | .edge p _ _ _ => p

/-- Adds a selection unless its predicate is asked for already. -/
def pushUnique (selections : List Selection) (s : Selection) : List Selection :=
  if selections.any (·.predicate == s.predicate) then selections else selections ++ [s]

/-- The indentation of a level. -/
def indent (depth : Nat) : List Char :=
  List.replicate (2 * depth) ' '

/-- Words with a comma and a blank between two of them. -/
def commaChars (words : List (List Char)) : List Char :=
  ", ".toList.intercalate words

/-- A part of a line in `@facets`. -/
def facetsChars (inner : List Char) : List Char :=
  " @facets(".toList ++ inner ++ [')']

mutual

/-- The lines of a selection. -/
def chars (depth : Nat) : Selection → List Char
  | .field p => indent depth ++ p.toList ++ ['\n']
  | .count p => indent depth ++ "count(".toList ++ p.toList ++ ")\n".toList
  | .bind var p => indent depth ++ var.toList ++ " as ".toList ++ p.toList ++ ['\n']
  | .edge p facetFilter facetKeys children =>
    indent depth ++ p.toList ++
      (match facetFilter with
        | some f => facetsChars f.chars
        | none => []) ++
      (if facetKeys.isEmpty then [] else facetsChars (commaChars (facetKeys.map (·.toList)))) ++
      (if children.isEmpty then ['\n']
      else " \x7b\n".toList ++ listChars (depth + 1) children ++ indent depth ++ "\x7d\n".toList)

/-- The lines of several selections. -/
def listChars (depth : Nat) : List Selection → List Char
  | [] => []
  | s :: rest => s.chars depth ++ listChars depth rest

end

end Selection

/-- The direction of an order. -/
inductive Order where
  | ascending
  | descending
  deriving DecidableEq, Repr

/-- The word for an order in the head of a block. -/
def Order.key : Order → String
  | .ascending => "orderasc"
  | .descending => "orderdesc"

/-- A block of a query. -/
structure Block where
  /-- The name of the block, or of the variable that it binds. -/
  name : String
  bindsVar : Bool
  func : Filter
  order : Option (Order × String)
  first : Option Nat
  offset : Option Nat
  filter : Option Filter
  /-- The fields that must be there; all of them, if the list is empty. -/
  cascade : Option (List String)
  body : List Selection
  deriving Inhabited

namespace Block

/-- A block that shows the nodes of a function. -/
def showing (name : String) (func : Filter) (body : List Selection) : Block :=
  ⟨name, false, func, none, none, none, none, none, body⟩

/-- A block that binds the nodes of a function that pass a filter. -/
def binding (name : String) (func : Filter) (filter : Option Filter) : Block :=
  ⟨name, true, func, none, none, none, filter, none, []⟩

/-- What stands between the parentheses of a block's head. -/
def headChars (b : Block) : List Char :=
  "func: ".toList ++ b.func.chars ++
    (match b.order with
      | some (order, p) => ", ".toList ++ order.key.toList ++ ": ".toList ++ p.toList
      | none => []) ++
    (match b.first with
      | some n => ", first: ".toList ++ natChars n
      | none => []) ++
    (match b.offset with
      | some n => ", offset: ".toList ++ natChars n
      | none => [])

/-- What follows the head of a block on its line. -/
def directiveChars (b : Block) : List Char :=
  (match b.filter with
    | some f => " @filter(".toList ++ f.chars ++ [')']
    | none => []) ++
  (match b.cascade with
    | some [] => " @cascade".toList
    | some fields =>
      " @cascade(".toList ++ Selection.commaChars (fields.map (·.toList)) ++ [')']
    | none => [])

/-- The lines of a block. -/
def chars (depth : Nat) (b : Block) : List Char :=
  Selection.indent depth ++ b.name.toList ++
    (if b.bindsVar then " as var(" else "(").toList ++ b.headChars ++ ')' :: b.directiveChars ++
    (if b.body.isEmpty then ['\n']
    else " \x7b\n".toList ++ Selection.listChars (depth + 1) b.body ++ Selection.indent depth ++
      "\x7d\n".toList)

/-- The lines of several blocks. -/
def listChars (depth : Nat) (blocks : List Block) : List Char :=
  blocks.flatMap (chars depth)

end Block

/-- A query: a name, the variables that come with it and their types, and the blocks. -/
structure Query where
  name : String
  params : List (String × String)
  blocks : List Block
  deriving Inhabited

namespace Query

/-- The declaration of a variable. -/
def paramChars (p : String × String) : List Char :=
  '$' :: p.1.toList ++ ": ".toList ++ p.2.toList

/-- The text of a query. -/
def chars (q : Query) : List Char :=
  "query ".toList ++ q.name.toList ++
    (if q.params.isEmpty then []
    else '(' :: Selection.commaChars (q.params.map paramChars) ++ [')']) ++
    " \x7b\n".toList ++ Block.listChars 1 q.blocks ++ "\x7d\n".toList

/-- The text of a query. -/
def render (q : Query) : String :=
  String.ofList q.chars

end Query

end PressRegister
