import PressRegister.Json
import PressRegister.Json.Document

/-!
# The value of a JSON document

Whole numbers of 64 bits, with or without sign, stay whole. Every other number
is a double, worked out from the digits that fit into 64 bits and one scaling by
a power of ten; this is not always the double nearest to the numeral.

## Main definitions

* `Numeral.value?`: the value of a number.
* `Document.value`: the value of a document with a bounded depth of nesting.
* `Json.parse?`: reads a text.
-/

namespace PressRegister.Json

open Number

/-- Takes in digits as long as the number stays within 64 bits; also gives the
digits that are left. -/
def accumulate : Nat → List Char → Nat × List Char
  | n, [] => (n, [])
  | n, c :: rest =>
    if uint64Max < n * 10 + digitValue c then (n, c :: rest)
    else accumulate (n * 10 + digitValue c) rest

/-- A power of ten as a double. -/
def powerOfTen (k : Nat) : Double :=
  Double.ofRatio false (Nat.pow 10 k) 1

/-- Scales a double by a power of ten. Powers below `10 ^ -308` take several
divisions; a result beyond the finite numbers fails. -/
def scaleByTen : Nat → Double → Int → Option Double
  | steps, d, exponent =>
    if 0 ≤ exponent && exponent ≤ 308 then
      let scaled := d.mul (powerOfTen exponent.toNat)
      if scaled.isInfinite then none else some scaled
    else if exponent < 0 && -308 ≤ exponent then some (d.div (powerOfTen exponent.natAbs))
    else if d.isZero then some d
    else if 0 ≤ exponent then none
    else match steps with
      | 0 => some d
      | steps + 1 => scaleByTen steps (d.div (powerOfTen 308)) (exponent + 308)

/-- A number with a point, an exponent or more than 64 bits. -/
def Numeral.double? (n : Numeral) : Option Double :=
  let (whole, wholeLeft) := accumulate 0 n.whole
  let fraction := n.fraction.getD []
  let (significand, fractionLeft) := accumulate whole fraction
  let written : Int := match n.exponent with
    | some (true, digits) => -Int.ofNat (digitsValue digits)
    | some (false, digits) => Int.ofNat (digitsValue digits)
    | none => 0
  let exponent := (wholeLeft.length : Int) - ((fraction.length - fractionLeft.length : Nat) : Int)
    + written
  (scaleByTen 4 (Double.ofInt significand) exponent).map fun d =>
    if n.negative then d.neg else d

/-- The value of a number. -/
def Numeral.value? (n : Numeral) : Option Json :=
  let size := digitsValue n.whole
  if n.fraction.isNone && n.exponent.isNone && size ≤ uint64Max then
    if !n.negative then some (.int size)
    else if 0 < size && size ≤ 9223372036854775808 then some (.int (-Int.ofNat size))
    else some (.float (Double.ofInt size).neg)
  else n.double?.map .float

mutual

/-- The value of a document nested at most `depth` levels. -/
def Document.value (depth : Nat) : Document → Option Json
  | .null => some .null
  | .bool b => some (.bool b)
  | .number n => n.value?
  | .string s => s.map .string
  | .array items =>
    match depth with
    | 0 => none
    | depth + 1 => (Document.values depth items).map .array
  | .object members =>
    match depth with
    | 0 => none
    | depth + 1 => (Document.memberValues depth members).map Json.ofMembers

/-- The values of the items of an array. -/
def Document.values (depth : Nat) : List Document → Option (List Json)
  | [] => some []
  | d :: rest => do
    let v ← d.value depth
    let vs ← Document.values depth rest
    return v :: vs

/-- The values of the members of an object, in order of appearance. -/
def Document.memberValues (depth : Nat) :
    List (Option String × Document) → Option (List (String × Json))
  | [] => some []
  | m :: rest => do
    let name ← m.1
    let v ← m.2.value depth
    let vs ← Document.memberValues depth rest
    return (name, v) :: vs

end

/-- How many levels of nesting a text may have. -/
def maxDepth : Nat := 127

/-- Reads a JSON text. -/
def parse? (text : String) : Option Json := do
  (← Document.parse? text).value maxDepth

end PressRegister.Json
