import PressRegister.Number.Integer

/-!
# Instants

Points of universal time on the Gregorian calendar, continued to all years. Days
and seconds are counted from the start of the year zero.

## Main definitions

* `yearStart`, `yearOfDay`: years and the days they start with.
* `Date`, `Date.dayNumber`, `Date.ofDayNumber`: calendar dates and their day numbers.
* `Instant`: a second and a fraction of it.
* `Instant.year`, `Instant.canonical`: the year of an instant, and its canonical text.

## Main results

* `yearStart_le_yearOfDay`, `lt_yearStart_yearOfDay_succ`: a day lies in its year.
-/

namespace PressRegister.Calendar

open Number

/-- The number of days before a year. -/
def yearStart (y : Int) : Int :=
  365 * y + (y + 3) / 4 - (y + 99) / 100 + (y + 399) / 400

/-- The year a day lies in. Four hundred years have `146097` days. -/
def yearOfDay (day : Int) : Int :=
  let y := day * 400 / 146097
  if day < yearStart y then y - 1
  else if yearStart (y + 1) ≤ day then y + 1
  else y

/-- Whether a year has a leap day. -/
def isLeapYear (y : Int) : Bool :=
  y % 4 == 0 && (y % 100 != 0 || y % 400 == 0)

/-- The lengths of the months of a year. -/
def monthLengths (y : Int) : List Nat :=
  [31, if isLeapYear y then 29 else 28, 31, 30, 31, 30, 31, 31, 30, 31, 30, 31]

/-- A date of the calendar; months and days are counted from one. -/
structure Date where
  year : Int
  month : Nat
  day : Nat
  deriving DecidableEq, Repr

/-- Whether a date exists. -/
def Date.isValid (d : Date) : Bool :=
  1 ≤ d.month && d.month ≤ 12 && 1 ≤ d.day && d.day ≤ (monthLengths d.year).getD (d.month - 1) 0

/-- The number of days before a date. -/
def Date.dayNumber (d : Date) : Int :=
  let earlier : Nat := ((monthLengths d.year).take (d.month - 1)).foldl (· + ·) 0
  yearStart d.year + earlier + (d.day - 1 : Nat)

/-- The month and day that a day of the year falls on, given the lengths of the
months from `month` on. -/
def splitMonth : List Nat → Nat → Nat → Nat × Nat
  | [], month, day => (month, day + 1)
  | length :: rest, month, day =>
    if day < length then (month, day + 1) else splitMonth rest (month + 1) (day - length)

/-- The date with a day number. -/
def Date.ofDayNumber (day : Int) : Date :=
  let y := yearOfDay day
  let (month, dayOfMonth) := splitMonth (monthLengths y) 1 (day - yearStart y).toNat
  ⟨y, month, dayOfMonth⟩

/-- A point in time: a second, and billionths of a second after its start. In a
leap second the billionths go on beyond one second. -/
structure Instant where
  second : Int
  nano : Nat
  deriving DecidableEq, Repr

namespace Instant

/-- The day an instant lies in. -/
def day (t : Instant) : Int :=
  t.second / 86400

/-- The year an instant lies in. -/
def year (t : Instant) : Int :=
  yearOfDay t.day

/-- The start of a year. -/
def ofYear (y : Int) : Instant :=
  ⟨yearStart y * 86400, 0⟩

/-- A year of at least four digits. Outside the four-digit years it has a sign. -/
def yearChars (y : Int) : List Char :=
  if 0 ≤ y && y ≤ 9999 then decimalPadded 4 y.toNat
  else
    let digits := natChars y.natAbs
    (if y < 0 then '-' else '+') :: List.replicate (4 - digits.length) '0' ++ digits

/-- The canonical text of an instant: date and time to the second, in universal time. -/
def canonicalChars (t : Instant) : List Char :=
  let date := Date.ofDayNumber t.day
  let rest := (t.second % 86400).toNat
  let leap := if 1000000000 ≤ t.nano then 1 else 0
  yearChars date.year ++ '-' :: decimalPadded 2 date.month ++ '-' :: decimalPadded 2 date.day ++
    'T' :: decimalPadded 2 (rest / 3600) ++ ':' :: decimalPadded 2 (rest / 60 % 60) ++
    ':' :: decimalPadded 2 (rest % 60 + leap) ++ ['Z']

/-- The canonical text of an instant. -/
def canonical (t : Instant) : String :=
  String.ofList t.canonicalChars

end Instant

/-! ### Years and days -/

theorem yearStart_add_one_gt (y : Int) : yearStart y + 365 ≤ yearStart (y + 1) := by
  unfold yearStart
  omega

theorem yearStart_mono {y z : Int} (h : y ≤ z) : yearStart y ≤ yearStart z := by
  unfold yearStart
  omega

theorem yearStart_le_yearOfDay (day : Int) : yearStart (yearOfDay day) ≤ day := by
  unfold yearOfDay
  simp only
  split
  · unfold yearStart
    omega
  · split
    · assumption
    · omega

theorem lt_yearStart_yearOfDay_succ (day : Int) : day < yearStart (yearOfDay day + 1) := by
  unfold yearOfDay
  simp only
  split
  · rename_i h
    simpa using h
  · split
    · unfold yearStart
      omega
    · omega

/-- The year of a day is the only year that the day lies in. -/
theorem yearOfDay_eq_iff {day y : Int} :
    yearOfDay day = y ↔ yearStart y ≤ day ∧ day < yearStart (y + 1) := by
  constructor
  · rintro rfl
    exact ⟨yearStart_le_yearOfDay day, lt_yearStart_yearOfDay_succ day⟩
  · rintro ⟨hlow, hhigh⟩
    have h1 := yearStart_le_yearOfDay day
    have h2 := lt_yearStart_yearOfDay_succ day
    have hle : ¬ y + 1 ≤ yearOfDay day := fun h => by
      have := yearStart_mono h
      omega
    have hge : ¬ yearOfDay day + 1 ≤ y := fun h => by
      have := yearStart_mono h
      omega
    omega

end PressRegister.Calendar
