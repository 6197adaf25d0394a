import PressRegister.Supply
import PressRegister.Text.Blank
import PressRegister.Text.Slug

/-!
# Blank nodes

A blank node stands for a node that is created in the same transaction. It is
named after a human label, so that every mention of a label within a submission
means one node. A label that leaves no slug gets a random name.

## Main definitions

* `BlankNode`: a blank node, with the label it was named after.
* `BlankNode.ofLabel`: the blank node for a label.
* `BlankNode.fresh`: a blank node for no label.
-/

namespace PressRegister

open Text

/-- A node that is yet to be created. Nodes with one name are one node. -/
structure BlankNode where
  /-- The name, without the mark of a blank node. -/
  name : String
  /-- The label, unless the name itself was given. -/
  label : Option String
  deriving DecidableEq, Repr

namespace BlankNode

instance : BEq BlankNode := ⟨fun a b => a.name == b.name⟩

/-- The name given by a text that starts with the mark of a blank node. -/
def markedName? : List Char → Option String
  | '_' :: ':' :: rest =>
    let name := slugChars rest
    if name.isEmpty then none else some (String.ofList name)
  | _ => none

/-- A random name. -/
def randomText (n : BitVec 128) : String :=
  String.ofList ("new_".toList ++ randomName n)

/-- The blank node for a label. A text that starts with the mark of a blank node
gives the name; any other label gives its slug. -/
def ofLabel (text : String) (supply : Supply) : BlankNode × Supply :=
  let label := trimChars text.toList
  match markedName? label with
  | some name => (⟨name, none⟩, supply)
  | none =>
    let name := slugChars label
    if name.isEmpty then
      let (n, supply) := supply.next
      (⟨randomText n, some (String.ofList label)⟩, supply)
    else (⟨String.ofList name, some (String.ofList label)⟩, supply)

/-- A blank node for no label. -/
def fresh (supply : Supply) : BlankNode × Supply :=
  let (n, supply) := supply.next
  (⟨randomText n, none⟩, supply)

/-- The blank node in a statement. -/
def chars (b : BlankNode) : List Char :=
  '_' :: ':' :: b.name.toList

/-- The blank node in a statement. -/
def text (b : BlankNode) : String :=
  String.ofList b.chars

end BlankNode

end PressRegister
