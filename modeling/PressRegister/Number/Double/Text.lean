import PressRegister.Number.Double.Shortest
import PressRegister.Number.Integer

/-!
# The text of a double

Doubles are written with the fewest digits that read back. There are two layouts:
the plain one is always positional, the scientific one moves very large and very
small numbers to an exponent and marks every number as one with a fraction.

## Main definitions

* `Layout`: the decisions of a layout.
* `Layout.plain`, `Layout.scientific`: the two layouts.
* `Double.chars`: a double in a layout.
* `Double.read?`: reads a decimal text, correctly rounded.
-/

namespace PressRegister.Number

/-- How doubles are laid out. -/
structure Layout where
  /-- The exponents, in scientific notation, that are written positionally. -/
  positional : Int → Bool
  /-- What follows a number without a fraction. -/
  wholeEnding : List Char
  /-- Which of two equally near decimals is taken. -/
  tie : Tie

/-- Every number is positional, and whole numbers have no fraction. -/
def Layout.plain : Layout := ⟨fun _ => true, [], .up⟩

/-- Numbers from `1e-5` up to, but not including, `1e16` are positional and have a fraction. -/
def Layout.scientific : Layout := ⟨fun e => -5 ≤ e && e < 16, ['.', '0'], .toEven⟩

/-- A row of digits with a decimal point after the first `point` of them. -/
def withPoint (layout : Layout) (digits : List Char) (point : Int) : List Char :=
  if point ≤ 0 then
    ['0', '.'] ++ List.replicate point.natAbs '0' ++ digits
  else if (digits.length : Int) ≤ point then
    digits ++ List.replicate (point.toNat - digits.length) '0' ++ layout.wholeEnding
  else digits.take point.toNat ++ '.' :: digits.drop point.toNat

/-- A row of digits with an exponent; the point stands after the first digit. -/
def withExponent (digits : List Char) (exponent : Int) : List Char :=
  let fraction := if digits.length ≤ 1 then [] else '.' :: digits.drop 1
  digits.take 1 ++ fraction ++ 'e' :: (if exponent < 0 then '-' else '+') ::
    natChars exponent.natAbs

/-- A magnitude in a layout. -/
def Layout.magnitude (layout : Layout) (magnitude : Nat) : List Char :=
  if magnitude = 0 then '0' :: layout.wholeEnding
  else
    let d := Double.shortest layout.tie magnitude
    let digits := natChars d.digits
    let point := d.exponent + digits.length
    if layout.positional (point - 1) then withPoint layout digits point
    else withExponent digits (point - 1)

/-- A double in a layout. -/
def Double.chars (layout : Layout) : Double → List Char
  | .finite s a => (if s then ['-'] else []) ++ layout.magnitude a
  | .infinite s => (if s then ['-'] else []) ++ "inf".toList
  | .nan => "NaN".toList

/-- A double in the plain layout. -/
def Double.plainText (d : Double) : String :=
  String.ofList (d.chars .plain)

/-- The letters of a name of infinity or of no number, in lower case. -/
def Double.named? (negative : Bool) (cs : List Char) : Option Double :=
  let name := String.ofList (cs.map Char.toLower)
  if name == "inf" || name == "infinity" then some (.infinite negative)
  else if name == "nan" then some .nan
  else none

/-- Reads the exponent part of a numeral; an absent one is zero. -/
def readExponent? : List Char → Option Int
  | [] => some 0
  | 'e' :: rest | 'E' :: rest =>
    match rest with
    | '-' :: digits => (readNat? digits).map fun n => -Int.ofNat n
    | '+' :: digits => (readNat? digits).map Int.ofNat
    | digits => (readNat? digits).map Int.ofNat
  | _ => none

/-- Reads a numeral without sign: digits with at most one point among or around
them, and an exponent. -/
def Double.readUnsigned? (negative : Bool) (cs : List Char) : Option Double :=
  let whole := cs.takeWhile isDigit
  let afterWhole := cs.dropWhile isDigit
  let (fraction, rest) := match afterWhole with
    | '.' :: r => (r.takeWhile isDigit, r.dropWhile isDigit)
    | r => ([], r)
  if whole.isEmpty && fraction.isEmpty then named? negative cs
  else (readExponent? rest).map fun e =>
    ofDecimal negative (digitsValue (whole ++ fraction)) (e - fraction.length)

/-- Reads a decimal text as the nearest double. -/
def Double.read? : List Char → Option Double
  | '-' :: rest => readUnsigned? true rest
  | '+' :: rest => readUnsigned? false rest
  | cs => readUnsigned? false cs

end PressRegister.Number
