import PressRegister.Calendar.Instant
import PressRegister.Text.Blank

/-!
# Reading instants

An instant is written as a year of four digits, as a date, as a date and time
with an offset from universal time, or as a date and time without one. Where no
offset is given, dates and times are universal.

## Main definitions

* `readTimestamp?`: a date and time with an offset; every field has its full width.
* `readDate?`, `readDateTime?`: a date, and a date and time; fields may lack
  leading zeros and may follow blanks, and years may have a sign.
* `Instant.read?`: any of the four forms.
-/

namespace PressRegister.Calendar

open Number

/-- The years that dates are read for. -/
def minYear : Int := -262143
/-- The last year that dates are read for. -/
def maxYear : Int := 262142

/-- Reads a row of at least `least` and at most `most` digits. -/
def digits? (least most : Nat) (cs : List Char) : Option (Nat × List Char) :=
  let digits := (cs.take most).takeWhile isDigit
  if digits.length < least then none else some (digitsValue digits, cs.drop digits.length)

/-- Reads one given character. -/
def char? (c : Char) : List Char → Option (List Char)
  | d :: rest => if c = d then some rest else none
  | [] => none

/-- A date that exists, in the years that are read. -/
def date? (year : Int) (month day : Nat) : Option Date :=
  let date : Date := ⟨year, month, day⟩
  if minYear ≤ year && year ≤ maxYear && date.isValid then some date else none

/-- The instant of a date and time with an offset from universal time, in seconds.
A minute may have a second numbered sixty. -/
def instant? (date : Date) (hour minute second nano : Nat) (offset : Int) : Option Instant :=
  if hour < 24 && minute < 60 && second ≤ 60 then
    let leap := if second = 60 then 1 else 0
    some ⟨date.dayNumber * 86400 + (hour * 3600 + minute * 60 + second - leap : Nat) - offset,
      nano + leap * 1000000000⟩
  else none

/-! ### Timestamps with an offset -/

/-- Reads the fraction of a second, if there is a point; digits after the ninth do not count. -/
def fraction? : List Char → Option (Nat × List Char)
  | '.' :: rest => do
    let digits := (rest.take 9).takeWhile isDigit
    if digits.isEmpty then none
    else return (digitsValue digits * Nat.pow 10 (9 - digits.length), rest.dropWhile isDigit)
  | cs => some (0, cs)

/-- Reads the hours and minutes of an offset as seconds. -/
def offsetSize? (cs : List Char) : Option (Nat × List Char) := do
  let (hours, cs) ← digits? 2 2 cs
  let cs ← char? ':' cs
  let (minutes, cs) ← digits? 2 2 cs
  if hours < 24 && minutes < 60 then return (hours * 3600 + minutes * 60, cs) else none

/-- Reads an offset from universal time. -/
def offset? : List Char → Option (Int × List Char)
  | c :: rest =>
    if c == 'Z' || c == 'z' then some (0, rest)
    else if c == '+' then (offsetSize? rest).map fun r => (Int.ofNat r.1, r.2)
    else if c == '-' || c == '−' then (offsetSize? rest).map fun r => (-Int.ofNat r.1, r.2)
    else none
  | [] => none

/-- Reads a date and time with an offset. -/
def readTimestamp? (cs : List Char) : Option Instant := do
  let (year, cs) ← digits? 4 4 cs
  let cs ← char? '-' cs
  let (month, cs) ← digits? 2 2 cs
  let cs ← char? '-' cs
  let (day, cs) ← digits? 2 2 cs
  let cs ← match cs with
    | c :: rest => if c == 'T' || c == 't' || c == ' ' then some rest else none
    | [] => none
  let (hour, cs) ← digits? 2 2 cs
  let cs ← char? ':' cs
  let (minute, cs) ← digits? 2 2 cs
  let cs ← char? ':' cs
  let (second, cs) ← digits? 2 2 cs
  let (nano, cs) ← fraction? cs
  let (offset, cs) ← offset? cs
  let date ← date? year month day
  if cs.isEmpty then instant? date hour minute second nano offset else none

/-! ### Dates and times without an offset -/

/-- Reads a field of one or two digits, possibly after blanks. -/
def field? (cs : List Char) : Option (Nat × List Char) :=
  digits? 1 2 (Text.trimStart cs)

/-- Reads a year, possibly after blanks. With a sign it may have any number of
digits, without one at most four. -/
def year? (cs : List Char) : Option (Int × List Char) :=
  match Text.trimStart cs with
  | '-' :: rest => (digits? 1 rest.length rest).map fun r => (-Int.ofNat r.1, r.2)
  | '+' :: rest => (digits? 1 rest.length rest).map fun r => (Int.ofNat r.1, r.2)
  | rest => (digits? 1 4 rest).map fun r => (Int.ofNat r.1, r.2)

/-- Reads a year, a month and a day. -/
def yearMonthDay? (cs : List Char) : Option (Date × List Char) := do
  let (year, cs) ← year? cs
  let cs ← char? '-' cs
  let (month, cs) ← field? cs
  let cs ← char? '-' cs
  let (day, cs) ← field? cs
  return (← date? year month day, cs)

/-- Reads a date as the start of its day. -/
def readDate? (cs : List Char) : Option Instant := do
  let (date, cs) ← yearMonthDay? cs
  if cs.isEmpty then instant? date 0 0 0 0 0 else none

/-- Reads a date and time without an offset. -/
def readDateTime? (cs : List Char) : Option Instant := do
  let (date, cs) ← yearMonthDay? cs
  let cs ← char? 'T' cs
  let (hour, cs) ← field? cs
  let cs ← char? ':' cs
  let (minute, cs) ← field? cs
  let cs ← char? ':' cs
  let (second, cs) ← field? cs
  if cs.isEmpty then instant? date hour minute second 0 0 else none

/-- Whether a text is a year: four digits and nothing else. -/
def isYear (cs : List Char) : Bool :=
  cs.length == 4 && cs.all isDigit

/-- Reads an instant in any of its forms. -/
def Instant.read? (s : String) : Option Instant :=
  let cs := Text.trimChars s.toList
  if isYear cs then some (Instant.ofYear (digitsValue cs))
  else (readTimestamp? cs).or ((readDate? cs).or (readDateTime? cs))

end PressRegister.Calendar
