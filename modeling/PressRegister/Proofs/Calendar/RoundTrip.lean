import Mathlib.Data.List.TakeWhile
import PressRegister.Calendar.Reader
import PressRegister.Proofs.Number.Decimal

/-!
# Instants read back

The date of a day number has that day number, and the canonical text of an instant is read as the
instant without its fraction of a second. In a leap second an instant that was read is in the
last second of its minute, so the second numbered sixty leads back to it.

## Main definitions

* `Instant.whole`: an instant without its fraction of a second.
* `Instant.IsRead`: what holds of every instant that is read.

## Main results

* `Date.dayNumber_ofDayNumber`, `Date.isValid_ofDayNumber`: days and dates.
* `Instant.isRead_of_read?`: instants that are read.
* `Instant.read?_canonical`: the canonical text of an instant is read back.
-/

namespace PressRegister.Calendar

open Number Text

/-! ### Days and dates -/

/-- The number of days of several months. -/
def days (lengths : List Nat) : Nat :=
  lengths.foldl (· + ·) 0

theorem days_cons (length : Nat) (lengths : List Nat) :
    days (length :: lengths) = length + days lengths := by
  have hfold (start : Nat) : lengths.foldl (· + ·) start = start + days lengths := by
    unfold days
    induction lengths generalizing start with
    | nil => rfl
    | cons length lengths ih =>
      rw [List.foldl_cons, List.foldl_cons, ih, ih (0 + length), Nat.zero_add, Nat.add_assoc]
  rw [days, List.foldl_cons, hfold, Nat.zero_add]

/-- A day of the year falls into one of the months, behind the days of the months before. -/
theorem splitMonth_spec {lengths : List Nat} (month : Nat) {day : Nat} (h : day < days lengths) :
    ∃ k < lengths.length, (splitMonth lengths month day).1 = month + k ∧
      1 ≤ (splitMonth lengths month day).2 ∧
      (splitMonth lengths month day).2 ≤ lengths.getD k 0 ∧
      days (lengths.take k) + ((splitMonth lengths month day).2 - 1) = day := by
  induction lengths generalizing month day with
  | nil => exact absurd h (Nat.not_lt_zero day)
  | cons length rest ih =>
    rw [days_cons] at h
    unfold splitMonth
    split
    · rename_i hday
      exact ⟨0, by simp, rfl, by simp, hday, by simp [days]⟩
    · have hrest : day - length < days rest := by omega
      obtain ⟨k, hk, hmonth, hlow, hhigh, hdays⟩ := ih (month + 1) hrest
      refine ⟨k + 1, by simpa using hk, by rw [hmonth]; omega, hlow, by simpa using hhigh, ?_⟩
      rw [List.take_succ_cons, days_cons]
      omega

/-- The months of a year make up the year. -/
theorem yearStart_add_days (y : Int) :
    yearStart y + (days (monthLengths y) : Nat) = yearStart (y + 1) := by
  have hdays : days (monthLengths y) = if isLeapYear y then 366 else 365 := by
    unfold monthLengths
    split <;> rfl
  rw [hdays]
  unfold yearStart isLeapYear
  split
  all_goals
    rename_i h
    simp only [Bool.and_eq_true, Bool.or_eq_true, beq_iff_eq, bne_iff_ne] at h
    omega

theorem getD_monthLengths_le (y : Int) (k : Nat) : (monthLengths y).getD k 0 ≤ 31 := by
  have hall : ∀ length ∈ monthLengths y, length ≤ 31 := by
    unfold monthLengths
    split <;> decide
  rw [List.getD_eq_getElem?_getD]
  cases hlength : (monthLengths y)[k]? with
  | none => exact Nat.zero_le 31
  | some length => exact hall length (List.mem_of_getElem? hlength)

/-- The month and the day of the month that a day falls on. -/
theorem Date.ofDayNumber_spec (day : Int) :
    ∃ k < 12, (Date.ofDayNumber day).month = 1 + k ∧ 1 ≤ (Date.ofDayNumber day).day ∧
      (Date.ofDayNumber day).day ≤ (monthLengths (yearOfDay day)).getD k 0 ∧
      yearStart (yearOfDay day) + (days ((monthLengths (yearOfDay day)).take k) : Nat) +
        ((Date.ofDayNumber day).day - 1 : Nat) = day := by
  have hlow := yearStart_le_yearOfDay day
  have hhigh := lt_yearStart_yearOfDay_succ day
  have htotal := yearStart_add_days (yearOfDay day)
  have hinside : (day - yearStart (yearOfDay day)).toNat < days (monthLengths (yearOfDay day)) := by
    omega
  obtain ⟨k, hk, hmonth, hfirst, hlast, hdays⟩ := splitMonth_spec 1 hinside
  refine ⟨k, hk, hmonth, hfirst, hlast, ?_⟩
  have hday : (Date.ofDayNumber day).day = (splitMonth (monthLengths (yearOfDay day)) 1
      (day - yearStart (yearOfDay day)).toNat).2 := rfl
  rw [hday]
  omega

theorem Date.year_ofDayNumber (day : Int) : (Date.ofDayNumber day).year = yearOfDay day := rfl

/-- The date of a day exists. -/
theorem Date.isValid_ofDayNumber (day : Int) : (Date.ofDayNumber day).isValid = true := by
  obtain ⟨k, hk, hmonth, hfirst, hlast, -⟩ := ofDayNumber_spec day
  rw [isValid, year_ofDayNumber, hmonth, Nat.add_sub_cancel_left]
  simp only [Bool.and_eq_true, decide_eq_true_eq]
  exact ⟨⟨⟨by omega, by omega⟩, hfirst⟩, hlast⟩

/-- The date of a day has its day number. -/
theorem Date.dayNumber_ofDayNumber (day : Int) : (Date.ofDayNumber day).dayNumber = day := by
  obtain ⟨k, hk, hmonth, -, -, hdays⟩ := ofDayNumber_spec day
  rw [dayNumber, year_ofDayNumber, hmonth, Nat.add_sub_cancel_left]
  exact hdays

/-! ### Fields of a text -/

/-- Digits that are told apart from what follows are read. -/
theorem digits?_append {cs : List Char} (h : ∀ c ∈ cs, isDigit c = true) (rest : List Char) :
    digits? cs.length cs.length (cs ++ rest) = some (digitsValue cs, rest) := by
  have htake : ((cs ++ rest).take cs.length).takeWhile isDigit = cs := by
    rw [List.take_left, List.takeWhile_eq_self_iff.2 h]
  rw [digits?, htake, if_neg (Nat.lt_irrefl _), List.drop_left]

/-- A number of full width is read. -/
theorem digits?_decimalPadded {k n : Nat} (h : n < 10 ^ k) (rest : List Char) :
    digits? k k (decimalPadded k n ++ rest) = some (n, rest) := by
  have hall : ∀ c ∈ decimalPadded k n, isDigit c = true := fun c hc =>
    isDigit_of_mem_decimalPadded hc
  have hread := digits?_append hall rest
  rwa [length_decimalPadded, digitsValue_decimalPadded, Nat.mod_eq_of_lt h] at hread

/-! ### Instants that are read -/

/-- What holds of every instant that is read. In a leap second it is the last one of a minute. -/
structure Instant.IsRead (t : Instant) : Prop where
  nano : t.nano < 2000000000
  leap : 1000000000 ≤ t.nano → t.second % 60 = 59

theorem instant?_isRead {date : Date} {hour minute second nano : Nat} {offset : Int} {t : Instant}
    (hnano : nano < 1000000000) (hoffset : offset % 60 = 0)
    (h : instant? date hour minute second nano offset = some t) : t.IsRead := by
  unfold instant? at h
  simp only at h
  split at h
  · obtain rfl := Option.some.inj h
    by_cases hleap : second = 60
    · constructor
      · simp only [hleap, if_true]
        omega
      · intro _
        simp only [hleap, if_true]
        omega
    · constructor
      · simp only [hleap, if_false]
        omega
      · intro hlast
        simp only [hleap, if_false] at hlast
        omega
  · cases h

theorem fraction?_lt {cs rest : List Char} {nano : Nat} (h : fraction? cs = some (nano, rest)) :
    nano < 1000000000 := by
  unfold fraction? at h
  split at h
  · rename_i tail
    simp only [Option.pure_def] at h
    split at h
    · cases h
    · obtain ⟨rfl, -⟩ := Prod.mk.inj (Option.some.inj h)
      have hall : ∀ c ∈ (tail.take 9).takeWhile isDigit, isDigit c = true := fun c hc =>
        List.mem_takeWhile_imp hc
      have hdigits := digitsValue_lt hall
      have hlength : ((tail.take 9).takeWhile isDigit).length ≤ 9 :=
        Nat.le_trans (List.takeWhile_prefix _).length_le (List.length_take_le _ _)
      have hpow : Nat.pow 10 (9 - ((tail.take 9).takeWhile isDigit).length) =
          10 ^ (9 - ((tail.take 9).takeWhile isDigit).length) := rfl
      calc _ < 10 ^ ((tail.take 9).takeWhile isDigit).length *
            10 ^ (9 - ((tail.take 9).takeWhile isDigit).length) := by
            rw [hpow]
            exact Nat.mul_lt_mul_of_pos_right hdigits (Nat.pow_pos (by decide))
        _ = 1000000000 := by
            rw [← Nat.pow_add, Nat.add_sub_cancel' hlength]
  · cases h
    decide

theorem offsetSize?_mod {cs rest : List Char} {size : Nat}
    (h : offsetSize? cs = some (size, rest)) : size % 60 = 0 := by
  simp only [offsetSize?, Option.bind_eq_bind, Option.bind_eq_some_iff] at h
  obtain ⟨⟨hours, cs₁⟩, -, cs₂, -, ⟨minutes, cs₃⟩, -, h⟩ := h
  split at h
  · obtain ⟨rfl, -⟩ := Prod.mk.inj (Option.some.inj h)
    omega
  · cases h

/-- Offsets are whole minutes. -/
theorem offset?_mod {cs rest : List Char} {offset : Int} (h : offset? cs = some (offset, rest)) :
    offset % 60 = 0 := by
  unfold offset? at h
  split at h
  · split at h
    · cases h
      rfl
    split at h
    · obtain ⟨⟨size, rest'⟩, hsize, heq⟩ := Option.map_eq_some_iff.1 h
      obtain ⟨rfl, -⟩ := Prod.mk.inj heq
      have := offsetSize?_mod hsize
      simp only [Int.ofNat_eq_natCast]
      omega
    split at h
    · obtain ⟨⟨size, rest'⟩, hsize, heq⟩ := Option.map_eq_some_iff.1 h
      obtain ⟨rfl, -⟩ := Prod.mk.inj heq
      have := offsetSize?_mod hsize
      simp only [Int.ofNat_eq_natCast]
      omega
    · cases h
  · cases h

theorem readTimestamp?_isRead {cs : List Char} {t : Instant} (h : readTimestamp? cs = some t) :
    t.IsRead := by
  unfold readTimestamp? at h
  -- the fields of the date and what stands between them
  iterate 5 obtain ⟨_, -, h⟩ := Option.bind_eq_some_iff.1 h
  dsimp only at h
  -- what follows the date is a time, or nothing is read
  split at h
  · split at h
    · iterate 6 obtain ⟨_, -, h⟩ := Option.bind_eq_some_iff.1 h
      obtain ⟨⟨nano, _⟩, hnano, h⟩ := Option.bind_eq_some_iff.1 h
      obtain ⟨⟨offset, _⟩, hoffset, h⟩ := Option.bind_eq_some_iff.1 h
      obtain ⟨date, -, h⟩ := Option.bind_eq_some_iff.1 h
      dsimp only at h
      split at h
      · exact instant?_isRead (fraction?_lt hnano) (offset?_mod hoffset) h
      · cases h
    · cases h
  · cases h

theorem readDate?_isRead {cs : List Char} {t : Instant} (h : readDate? cs = some t) :
    t.IsRead := by
  simp only [readDate?, Option.bind_eq_bind, Option.bind_eq_some_iff] at h
  obtain ⟨_, -, h⟩ := h
  split at h
  · exact instant?_isRead (by decide) rfl h
  · cases h

theorem readDateTime?_isRead {cs : List Char} {t : Instant} (h : readDateTime? cs = some t) :
    t.IsRead := by
  simp only [readDateTime?, Option.bind_eq_bind, Option.bind_eq_some_iff] at h
  obtain ⟨_, -, _, -, _, -, _, -, _, -, _, -, _, -, h⟩ := h
  split at h
  · exact instant?_isRead (by decide) rfl h
  · cases h

/-- Whatever form an instant is read from. -/
theorem Instant.isRead_of_read? {s : String} {t : Instant} (h : Instant.read? s = some t) :
    t.IsRead := by
  simp only [Instant.read?] at h
  split at h
  · obtain rfl := Option.some.inj h
    exact ⟨by simp [Instant.ofYear], fun hlast => absurd hlast (by simp [Instant.ofYear])⟩
  · rcases Option.or_eq_some_iff.1 h with h | ⟨-, h⟩
    · exact readTimestamp?_isRead h
    rcases Option.or_eq_some_iff.1 h with h | ⟨-, h⟩
    · exact readDate?_isRead h
    · exact readDateTime?_isRead h

/-! ### Canonical texts -/

/-- An instant without its fraction of a second. A leap second stays one. -/
def Instant.whole (t : Instant) : Instant :=
  ⟨t.second, t.nano / 1000000000 * 1000000000⟩

theorem Instant.whole_eq_self_iff {t : Instant} : t.whole = t ↔ t.nano % 1000000000 = 0 := by
  obtain ⟨second, nano⟩ := t
  simp only [whole, mk.injEq, true_and]
  omega

/-- An instant without its fraction of a second lies in the same year. -/
@[simp]
theorem Instant.year_whole (t : Instant) : t.whole.year = t.year :=
  rfl

/-- A date and time in universal time, every field with its full width. -/
def timestampChars (year month day hour minute second : Nat) : List Char :=
  decimalPadded 4 year ++ '-' :: (decimalPadded 2 month ++ '-' :: (decimalPadded 2 day ++
    'T' :: (decimalPadded 2 hour ++ ':' :: (decimalPadded 2 minute ++
      ':' :: (decimalPadded 2 second ++ ['Z'])))))

theorem readTimestamp?_timestampChars {year month day hour minute second : Nat}
    (hyear : year < 10000) (hmonth : month < 100) (hday : day < 100) (hhour : hour < 100)
    (hminute : minute < 100) (hsecond : second < 100) :
    readTimestamp? (timestampChars year month day hour minute second) =
      (date? year month day).bind fun date => instant? date hour minute second 0 0 := by
  have hchar (c : Char) (rest : List Char) : char? c (c :: rest) = some rest := if_pos rfl
  have hzone : fraction? ['Z'] = some (0, ['Z']) := rfl
  have hoffset : offset? ['Z'] = some (0, []) := rfl
  have hnext {α β : Type} {x : Option α} {a : α} {f : α → Option β} (h : x = some a) :
      x.bind f = f a := by
    rw [h, Option.bind_some]
  unfold readTimestamp? timestampChars
  refine (hnext (digits?_decimalPadded (k := 4) hyear _)).trans ?_
  refine (hnext (hchar '-' _)).trans ?_
  refine (hnext (digits?_decimalPadded (k := 2) hmonth _)).trans ?_
  refine (hnext (hchar '-' _)).trans ?_
  refine (hnext (digits?_decimalPadded (k := 2) hday _)).trans ?_
  refine (hnext rfl).trans ?_
  refine (hnext (digits?_decimalPadded (k := 2) hhour _)).trans ?_
  refine (hnext (hchar ':' _)).trans ?_
  refine (hnext (digits?_decimalPadded (k := 2) hminute _)).trans ?_
  refine (hnext (hchar ':' _)).trans ?_
  refine (hnext (digits?_decimalPadded (k := 2) hsecond _)).trans ?_
  refine (hnext hzone).trans ?_
  exact hnext hoffset

/-- The characters of a date and time are no blanks. -/
theorem isBlank_of_mem_timestampChars {year month day hour minute second : Nat} {c : Char}
    (hc : c ∈ timestampChars year month day hour minute second) : isBlank c = false := by
  have hdigit {k n : Nat} (h : c ∈ decimalPadded k n) : isBlank c = false :=
    isBlank_of_isDigit (isDigit_of_mem_decimalPadded h)
  simp only [timestampChars, List.mem_append, List.mem_cons, List.not_mem_nil, or_false] at hc
  rcases hc with h | rfl | h | rfl | h | rfl | h | rfl | h | rfl | h | rfl
  all_goals first | exact hdigit h | decide

theorem length_timestampChars (year month day hour minute second : Nat) :
    (timestampChars year month day hour minute second).length = 20 := by
  simp [timestampChars, length_decimalPadded]

namespace Instant

/-- How many seconds of its minute an instant is written with. -/
def secondOfMinute (t : Instant) : Nat :=
  (t.second % 86400).toNat % 60 + if 1000000000 ≤ t.nano then 1 else 0

theorem canonicalChars_eq {t : Instant} (hlow : 0 ≤ t.year) (hhigh : t.year ≤ 9999) :
    t.canonicalChars = timestampChars t.year.toNat (Date.ofDayNumber t.day).month
      (Date.ofDayNumber t.day).day ((t.second % 86400).toNat / 3600)
      ((t.second % 86400).toNat / 60 % 60) t.secondOfMinute := by
  have hyear : yearChars (Date.ofDayNumber t.day).year = decimalPadded 4 t.year.toNat :=
    if_pos (by simpa using ⟨hlow, hhigh⟩)
  simp only [canonicalChars, timestampChars, secondOfMinute, hyear, List.append_assoc,
    List.cons_append]

/-- The canonical text of an instant is read as the instant without its fraction of a second. -/
theorem readTimestamp?_canonicalChars {t : Instant} (h : t.IsRead) (hlow : 0 ≤ t.year)
    (hhigh : t.year ≤ 9999) : readTimestamp? t.canonicalChars = some t.whole := by
  obtain ⟨k, hk, hmonth, -, hlast, -⟩ := Date.ofDayNumber_spec t.day
  have hmonths := getD_monthLengths_le (yearOfDay t.day) k
  have hsecond : t.secondOfMinute ≤ 60 := by
    unfold secondOfMinute
    split <;> omega
  have hdate : date? t.year.toNat (Date.ofDayNumber t.day).month (Date.ofDayNumber t.day).day =
      some (Date.ofDayNumber t.day) := by
    rw [Int.toNat_of_nonneg hlow]
    refine if_pos ?_
    simp only [Bool.and_eq_true, decide_eq_true_eq]
    exact ⟨⟨by unfold minYear; omega, by unfold maxYear; omega⟩, Date.isValid_ofDayNumber t.day⟩
  rw [canonicalChars_eq hlow hhigh, readTimestamp?_timestampChars (by omega) (by omega) (by omega)
    (by omega) (by omega) (by omega), hdate, Option.bind_some, instant?, if_pos (by simp; omega)]
  simp only [Date.dayNumber_ofDayNumber, whole, Option.some.injEq, Instant.mk.injEq]
  -- the second numbered sixty is the one that a leap second is written with
  obtain ⟨hnano, hleap⟩ := h
  have hday : t.day = t.second / 86400 := rfl
  have hsixty : t.secondOfMinute = 60 ↔ 1000000000 ≤ t.nano := by
    unfold secondOfMinute
    split <;> omega
  by_cases hlast : 1000000000 ≤ t.nano
  · rw [if_pos (hsixty.2 hlast), hsixty.2 hlast]
    have := hleap hlast
    omega
  · rw [if_neg (fun heq => hlast (hsixty.1 heq))]
    have hplain : t.secondOfMinute = (t.second % 86400).toNat % 60 := by
      rw [secondOfMinute, if_neg hlast, Nat.add_zero]
    omega

/-- The canonical text of an instant that was read is read back without its fraction of a
second. -/
theorem read?_canonical {t : Instant} (h : t.IsRead) (hlow : 0 ≤ t.year) (hhigh : t.year ≤ 9999) :
    read? t.canonical = some t.whole := by
  have hchars := canonicalChars_eq hlow hhigh
  have htrim : trimChars t.canonicalChars = t.canonicalChars := by
    rw [hchars]
    exact trimChars_eq_self
      (fun c hc => isBlank_of_mem_timestampChars (List.mem_of_head? hc))
      (fun c hc => isBlank_of_mem_timestampChars (List.mem_of_getLast? hc))
  have hyear : isYear t.canonicalChars = false := by
    rw [isYear, hchars, length_timestampChars]
    rfl
  rw [canonical, read?]
  simp only [String.toList_ofList, htrim, hyear]
  rw [readTimestamp?_canonicalChars h hlow hhigh]
  rfl

end Instant

end PressRegister.Calendar
