import PressRegister.Proofs.Calendar.RoundTrip
import PressRegister.Proofs.Predicate.Meaning

/-!
# Conditions on years

A text of four digits asks of a date that its year compares with the one written. The condition
made of it compares the date with the first instants of that year and of the next one. Both have
canonical texts that are read back, so the condition means what was asked for in every year that
a next one follows in four digits.

## Main definitions

* `Calendar.Instant.order`: the order of instants.
* `Operator.Admits`: which outcomes of a comparison satisfy an operator.
* `Reading.ofDate`: what the functions of filters say of a node with one date.

## Main results

* `Calendar.Instant.year_lt_iff`: the instants of earlier years come before a year's first one.
* `Predicate.year_condition_iff`: the years that make a condition with the meaning they have.
-/

namespace PressRegister

open Calendar Number Text

/-! ### Instants in order -/

theorem Calendar.isYear_iff {cs : List Char} :
    isYear cs = true ↔ cs.length = 4 ∧ ∀ c ∈ cs, isDigit c = true := by
  simp [isYear]

namespace Calendar.Instant

/-- The order of instants: by their seconds, and by the fractions of a common second. -/
def order (t u : Instant) : Ordering :=
  (compare t.second u.second).then (compare t.nano u.nano)

/-- The instants of earlier years are those before the first second of a year. -/
theorem year_lt_iff {t : Instant} {y : Int} : t.year < y ↔ t.second < yearStart y * 86400 := by
  have hlow : yearStart t.year ≤ t.day := yearStart_le_yearOfDay t.day
  have hhigh : t.day < yearStart (t.year + 1) := lt_yearStart_yearOfDay_succ t.day
  have hday : t.day = t.second / 86400 := rfl
  constructor
  · intro h
    have := yearStart_mono (show t.year + 1 ≤ y by omega)
    omega
  · intro h
    by_contra hle
    have := yearStart_mono (show y ≤ t.year by omega)
    omega

/-- No instant of a second comes before its start, so only the seconds count against the first
instant of a year. -/
theorem order_ofYear_eq_lt_iff {t : Instant} {y : Int} :
    t.order (ofYear y) = .lt ↔ t.year < y := by
  have hnano : compare t.nano (ofYear y).nano ≠ .lt := by
    rw [ne_eq, Nat.compare_eq_lt]
    exact Nat.not_lt_zero _
  rw [year_lt_iff, order, Ordering.then_eq_lt, Int.compare_eq_lt]
  exact or_iff_left fun h => hnano h.2

theorem year_ofYear (y : Int) : (ofYear y).year = y := by
  refine yearOfDay_eq_iff.2 ?_
  have hday : (ofYear y).day = yearStart y := by
    simp [day, ofYear]
  have := yearStart_add_one_gt y
  omega

/-- The canonical text of the first instant of a year is read as that instant. -/
theorem read?_canonical_ofYear {y : Int} (hlow : 0 ≤ y) (hhigh : y ≤ 9999) :
    read? (ofYear y).canonical = some (ofYear y) := by
  have hread : (ofYear y).IsRead :=
    ⟨by simp [ofYear], fun hleap => absurd hleap (by simp [ofYear])⟩
  rw [read?_canonical hread (by rwa [year_ofYear]) (by rwa [year_ofYear]),
    whole_eq_self_iff.2 (by simp [ofYear])]

end Calendar.Instant

/-! ### Comparisons of dates -/

/-- The operators that compare values in their order. -/
def Operator.comparisons : List Operator := [.eq, .gt, .lt, .ge, .le]

/-- Which outcomes of a comparison satisfy an operator. -/
def Operator.Admits : Operator → Ordering → Prop
  | .eq, outcome => outcome = .eq
  | .gt, outcome => outcome = .gt
  | .lt, outcome => outcome = .lt
  | .ge, outcome => outcome ≠ .lt
  | .le, outcome => outcome ≠ .gt
  | _, _ => False

/-- What the functions of filters say of a node whose only value is a date: texts are read as
instants, and the date is compared with them. -/
def Reading.ofDate (name : String) (t : Instant) : Reading where
  compares op predicate arg :=
    predicate = name ∧ ∃ text u, arg = .text text ∧ Instant.read? text = some u ∧
      op.Admits (t.order u)
  has predicate := predicate = name
  ofType _ := False
  inVar _ := False
  isParam _ := False

namespace Reading

variable {name : String} {t : Instant}

theorem compares_ofDate {u : Instant} {op : Operator}
    (h : Instant.read? u.canonical = some u) :
    (ofDate name t).compares op name (.text u.canonical) ↔ op.Admits (t.order u) := by
  constructor
  · rintro ⟨-, text, u', htext, hread, hadmits⟩
    cases htext
    rw [h] at hread
    cases hread
    exact hadmits
  · exact fun hadmits => ⟨rfl, _, u, rfl, h, hadmits⟩

/-- The dates before the first instant of a year are those of earlier years. -/
theorem compares_lt_ofYear {y : Int} (hlow : 0 ≤ y) (hhigh : y ≤ 9999) :
    (ofDate name t).compares .lt name (.text (Instant.ofYear y).canonical) ↔ t.year < y := by
  rw [compares_ofDate (Instant.read?_canonical_ofYear hlow hhigh), Operator.Admits,
    Instant.order_ofYear_eq_lt_iff]

/-- The dates from the first instant of a year on are those of that year and later ones. -/
theorem compares_ge_ofYear {y : Int} (hlow : 0 ≤ y) (hhigh : y ≤ 9999) :
    (ofDate name t).compares .ge name (.text (Instant.ofYear y).canonical) ↔ y ≤ t.year := by
  rw [compares_ofDate (Instant.read?_canonical_ofYear hlow hhigh), Operator.Admits, ne_eq,
    Instant.order_ofYear_eq_lt_iff, Int.not_lt]

end Reading

/-! ### Years -/

namespace Predicate

variable {p : Predicate} {name value : String} {op : Operator}

/-- What a year asks of a date is that the year of the date compares with it. -/
theorem YearAsks.ofDate_iff {φ : Condition} {year : Nat} {t : Instant} (hyear : year < 9999)
    (h : YearAsks name (.text (Instant.ofYear year).canonical)
      (.text (Instant.ofYear (year + 1)).canonical) op φ) :
    φ (Reading.ofDate name t) ↔ op.Admits (compare t.year year) := by
  have hfirst : 0 ≤ (year : Int) ∧ (year : Int) ≤ 9999 := by omega
  have hnext : 0 ≤ (year : Int) + 1 ∧ (year : Int) + 1 ≤ 9999 := by omega
  cases h with
  | eq =>
    calc _ ↔ (year : Int) ≤ t.year ∧ t.year < year + 1 :=
          and_congr (Reading.compares_ge_ofYear hfirst.1 hfirst.2)
            (Reading.compares_lt_ofYear hnext.1 hnext.2)
      _ ↔ t.year = year := by omega
      _ ↔ _ := Int.compare_eq_eq.symm
  | gt =>
    calc _ ↔ (year : Int) + 1 ≤ t.year := Reading.compares_ge_ofYear hnext.1 hnext.2
      _ ↔ _ := Int.compare_eq_gt.symm
  | lt =>
    calc _ ↔ t.year < year := Reading.compares_lt_ofYear hfirst.1 hfirst.2
      _ ↔ _ := Int.compare_eq_lt.symm
  | ge =>
    calc _ ↔ (year : Int) ≤ t.year := Reading.compares_ge_ofYear hfirst.1 hfirst.2
      _ ↔ _ := Int.compare_ne_lt.symm
  | le =>
    calc _ ↔ t.year < year + 1 := Reading.compares_lt_ofYear hnext.1 hnext.2
      _ ↔ t.year ≤ year := Int.lt_add_one_iff
      _ ↔ _ := Int.compare_ne_gt.symm

theorem valueCondition?_year (hkind : p.kind = .dateTime) (hyear : isYear value.toList = true) :
    p.valueCondition? name op value = yearCondition? name op (digitsValue value.toList) := by
  obtain ⟨hlength, hdigits⟩ := isYear_iff.1 hyear
  have htrim : Text.trim value = value := by
    rw [Text.trim, trimChars_eq_self
      (fun c hc => isBlank_of_isDigit (hdigits c (List.mem_of_head? hc)))
      (fun c hc => isBlank_of_isDigit (hdigits c (List.mem_of_getLast? hc))),
      String.ofList_toList]
  have hne : value.isEmpty = false := by
    rw [Bool.eq_false_iff, ne_eq, String.isEmpty_iff]
    rintro rfl
    cases hlength
  simp only [valueCondition?, htrim, hne, hkind, dateCondition?, hyear, Bool.false_eq_true,
    if_false, if_true]

/-- A year makes a condition that holds of exactly the dates whose year compares with it unless it
is the last one of four digits, which makes no condition under any operator. -/
theorem year_condition_iff (hkind : p.kind = .dateTime) (hop : op ∈ Operator.comparisons)
    (hyear : isYear value.toList = true) :
    (∃ f, p.valueCondition? name op value = some f ∧
      ∀ t : Instant, f.Holds (Reading.ofDate name t) ↔
        op.Admits (compare t.year (digitsValue value.toList))) ↔
      digitsValue value.toList ≠ 9999 := by
  have hordered : op ∈ orderedOperators ∧ op ≠ .has := by
    revert op
    decide
  obtain ⟨hlength, hdigits⟩ := isYear_iff.1 hyear
  have hvalue : digitsValue value.toList < 10 ^ 4 := hlength ▸ digitsValue_lt hdigits
  rw [valueCondition?_year hkind hyear]
  constructor
  · rintro ⟨f, hf, -⟩
    exact ((yearAsks_iff hordered.1 hordered.2).2 ⟨f, hf, rfl⟩).1
  · intro hlast
    obtain ⟨f, hf⟩ : ∃ f, yearCondition? name op (digitsValue value.toList) = some f := by
      rw [yearCondition?, if_neg hlast]
      exact ⟨_, rfl⟩
    obtain ⟨-, hasks⟩ := (yearAsks_iff hordered.1 hordered.2).2 ⟨f, hf, rfl⟩
    exact ⟨f, hf, fun t => hasks.ofDate_iff (by omega)⟩

/-- The dates up to 1990 are those whose year is at most 1990. -/
theorem year_condition_iff_founded :
    ∃ f, (dateTime "founded").valueCondition? "founded" .le "1990" = some f ∧
      ∀ t : Instant, f.Holds (Reading.ofDate "founded" t) ↔
        Operator.le.Admits (compare t.year (digitsValue "1990".toList)) :=
  (year_condition_iff rfl (by decide) (by decide)).2 (by decide)

/-- Dates before the last year of four digits are asked for in vain. -/
theorem last_year_without_condition :
    .lt ∈ Operator.comparisons ∧ isYear "9999".toList = true ∧
      ¬ ∃ f, (dateTime "founded").valueCondition? "founded" .lt "9999" = some f ∧
        ∀ t : Instant, f.Holds (Reading.ofDate "founded" t) ↔
          Operator.lt.Admits (compare t.year (digitsValue "9999".toList)) := by
  refine ⟨by decide, by decide, ?_⟩
  rintro ⟨f, hf, -⟩
  have hnone : (dateTime "founded").valueCondition? "founded" .lt "9999" = none := by
    decide +kernel
  rw [hnone] at hf
  cases hf

end Predicate

end PressRegister
