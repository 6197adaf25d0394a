/-!
# Reading and writing integers

## Main definitions

* `readNat?`: a numeral of ASCII digits.
* `readInt?`, `readUnsigned?`: a numeral with an optional sign, within bounds.
* `natChars`, `intChars`: a number in decimal.
* `int64Min`, `int64Max`, `uint32Max`, `uint64Max`: the bounds in use.
-/

namespace PressRegister.Number

/-- The least and greatest integers of 64 bits with a sign. -/
def int64Min : Int := -9223372036854775808
/-- The greatest integer of 64 bits with a sign. -/
def int64Max : Int := 9223372036854775807
/-- The greatest number of 32 bits. -/
def uint32Max : Nat := 4294967295
/-- The greatest number of 64 bits. -/
def uint64Max : Nat := 18446744073709551615

/-- Whether a character is an ASCII digit. -/
def isDigit (c : Char) : Bool :=
  '0' ≤ c && c ≤ '9'

/-- The value of a digit. -/
def digitValue (c : Char) : Nat :=
  c.toNat - '0'.toNat

/-- The value of a row of digits. -/
def digitsValue (cs : List Char) : Nat :=
  cs.foldl (fun n c => 10 * n + digitValue c) 0

/-- Reads a numeral: at least one digit and nothing else. -/
def readNat? (cs : List Char) : Option Nat :=
  if !cs.isEmpty && cs.all isDigit then some (digitsValue cs) else none

/-- Reads a numeral with an optional sign, if its value lies between `lo` and `hi`. -/
def readInt? (lo hi : Int) (cs : List Char) : Option Int :=
  let value : Option Int := match cs with
    | '-' :: rest => (readNat? rest).map fun n => -Int.ofNat n
    | '+' :: rest => (readNat? rest).map Int.ofNat
    | _ => (readNat? cs).map Int.ofNat
  value.filter fun n => lo ≤ n && n ≤ hi

/-- Reads a numeral that may have a plus sign, if its value is at most `hi`. -/
def readUnsigned? (hi : Nat) (cs : List Char) : Option Nat :=
  let value : Option Nat := match cs with
    | '+' :: rest => readNat? rest
    | _ => readNat? cs
  value.filter (· ≤ hi)

/-- Reads an integer of 64 bits. -/
def readInt64? (s : String) : Option Int :=
  readInt? int64Min int64Max s.toList

/-- The last `k` decimal digits of a number. -/
def decimalPadded : Nat → Nat → List Char
  | 0, _ => []
  | k + 1, n => decimalPadded k (n / 10) ++ [Char.ofNat ('0'.toNat + n % 10)]

/-- How many decimal digits a number has, for numbers below `10 ^ fuel`. -/
def decimalLength : Nat → Nat → Nat
  | 0, _ => 1
  | fuel + 1, n => if n < 10 then 1 else decimalLength fuel (n / 10) + 1

/-- A number in decimal without leading zeros. -/
def natChars (n : Nat) : List Char :=
  decimalPadded (decimalLength n.log2 n) n

/-- An integer in decimal, with a minus sign below zero. -/
def intChars (n : Int) : List Char :=
  if n < 0 then '-' :: natChars n.natAbs else natChars n.natAbs

/-- An integer in decimal. -/
def intText (n : Int) : String :=
  String.ofList (intChars n)

/-- A number in decimal. -/
def natText (n : Nat) : String :=
  String.ofList (natChars n)

end PressRegister.Number
