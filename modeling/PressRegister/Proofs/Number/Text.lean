import Mathlib.Data.List.TakeWhile
import PressRegister.Number.Double.Text
import PressRegister.Proofs.Number.Decimal
import PressRegister.Proofs.Number.Shortest

/-!
# Texts of doubles read back

In the plain layout a double is written as the shortest decimal of its magnitude, with zeros or a
point where the power of ten asks for them. Reading puts the digits together again, so a finite
double is read back as itself, sign and all.

## Main results

* `Double.readUnsigned?_of_nonneg`, `Double.readUnsigned?_of_neg`: what a decimal in the plain
  layout is read as.
* `Double.read?_chars`: a finite double is read back.
-/

namespace PressRegister.Number.Double

theorem readUnsigned?_point {whole fraction : List Char} (negative : Bool)
    (hwhole : ∀ c ∈ whole, isDigit c = true) (hne : whole ≠ [])
    (hfraction : ∀ c ∈ fraction, isDigit c = true) :
    readUnsigned? negative (whole ++ '.' :: fraction) =
      some (ofDecimal negative (digitsValue (whole ++ fraction)) (-(fraction.length : Int))) := by
  have htake : (whole ++ '.' :: fraction).takeWhile isDigit = whole := by
    rw [List.takeWhile_append_of_pos hwhole]
    exact List.append_nil whole
  have hdrop : (whole ++ '.' :: fraction).dropWhile isDigit = '.' :: fraction := by
    rw [List.dropWhile_append_of_pos hwhole]
    rfl
  have hfractionTake : fraction.takeWhile isDigit = fraction :=
    List.takeWhile_eq_self_iff.2 hfraction
  have hfractionDrop : fraction.dropWhile isDigit = [] :=
    List.dropWhile_eq_nil_iff.2 hfraction
  have hempty : whole.isEmpty = false := List.isEmpty_eq_false_iff.2 hne
  simp only [readUnsigned?, htake, hdrop, hfractionTake, hfractionDrop, hempty, Bool.false_and,
    Bool.false_eq_true, if_false, readExponent?, Option.map_some]
  rw [Int.zero_sub]

theorem readUnsigned?_whole {digits : List Char} (negative : Bool)
    (hdigits : ∀ c ∈ digits, isDigit c = true) (hne : digits ≠ []) :
    readUnsigned? negative digits = some (ofDecimal negative (digitsValue digits) 0) := by
  have htake : digits.takeWhile isDigit = digits :=
    List.takeWhile_eq_self_iff.2 hdigits
  have hdrop : digits.dropWhile isDigit = [] :=
    List.dropWhile_eq_nil_iff.2 hdigits
  have hempty : digits.isEmpty = false := List.isEmpty_eq_false_iff.2 hne
  simp only [readUnsigned?, htake, hdrop, hempty, Bool.false_and, Bool.false_eq_true, if_false,
    readExponent?, Option.map_some, List.append_nil]
  rfl

theorem digitsValue_replicate_zero (n : Nat) : digitsValue (List.replicate n '0') = 0 := by
  induction n with
  | zero => rfl
  | succ n ih =>
    have hzero : digitValue '0' = 0 := rfl
    rw [List.replicate_succ, digitsValue_cons, ih, hzero, Nat.zero_mul]

theorem named?_ne_finite (negative sign : Bool) (cs : List Char) (m : Fin 9218868437227405312) :
    named? negative cs ≠ some (.finite sign m) := by
  unfold named?
  dsimp only
  split
  · simp
  · split <;> simp

/-- What is read as a finite number without a sign has none. -/
theorem read?_of_readUnsigned? {cs : List Char} {sign : Bool} {m : Fin 9218868437227405312}
    (h : readUnsigned? false cs = some (.finite sign m)) : read? cs = some (.finite sign m) := by
  unfold read?
  split
  · exact absurd h (named?_ne_finite _ _ _ _)
  · exact absurd h (named?_ne_finite _ _ _ _)
  · exact h

variable {d : Decimal}

/-- A decimal without a fraction is read with its zeros. -/
theorem readUnsigned?_of_nonneg (negative : Bool) (h : 0 ≤ d.exponent) :
    readUnsigned? negative (withPoint .plain (natChars d.digits)
        (d.exponent + (natChars d.digits).length)) =
      some (ofDecimal negative (d.digits * 10 ^ d.exponent.toNat) 0) := by
  have hne := natChars_ne_nil d.digits
  have hlength := List.length_pos_iff.2 hne
  have hzeros : (d.exponent + (natChars d.digits).length).toNat - (natChars d.digits).length =
      d.exponent.toNat := by omega
  rw [withPoint, if_neg (by omega), if_pos (by omega), hzeros]
  have hall : ∀ c ∈ natChars d.digits ++ List.replicate d.exponent.toNat '0', isDigit c = true := by
    intro c hc
    rcases List.mem_append.1 hc with hc | hc
    · exact isDigit_of_mem_natChars hc
    · rw [List.eq_of_mem_replicate hc]
      rfl
  have hplain : Layout.plain.wholeEnding = [] := rfl
  rw [hplain, List.append_nil, readUnsigned?_whole negative hall (by simp [hne]),
    digitsValue_append, digitsValue_natChars, digitsValue_replicate_zero, List.length_replicate,
    Nat.add_zero]

/-- A decimal with a fraction is read digit by digit. -/
theorem readUnsigned?_of_neg (negative : Bool) (h : d.exponent < 0) :
    readUnsigned? negative (withPoint .plain (natChars d.digits)
        (d.exponent + (natChars d.digits).length)) =
      some (ofDecimal negative d.digits d.exponent) := by
  have hdigits : ∀ c ∈ natChars d.digits, isDigit c = true := fun c hc => isDigit_of_mem_natChars hc
  have hne := natChars_ne_nil d.digits
  have hvalue := digitsValue_natChars d.digits
  generalize natChars d.digits = digits at *
  unfold withPoint
  split
  · rename_i hpoint
    generalize hzeros : (d.exponent + (digits.length : Int)).natAbs = zeros
    have hall : ∀ c ∈ List.replicate zeros '0' ++ digits, isDigit c = true := by
      intro c hc
      rcases List.mem_append.1 hc with hc | hc
      · rw [List.eq_of_mem_replicate hc]
        rfl
      · exact hdigits c hc
    have hwhole : ∀ c ∈ ['0'], isDigit c = true := by decide
    have hread := readUnsigned?_point negative hwhole (List.cons_ne_nil _ _) hall
    have hsum : digitsValue (['0'] ++ (List.replicate zeros '0' ++ digits)) = d.digits := by
      rw [List.singleton_append, ← List.cons_append, ← List.replicate_succ, digitsValue_append,
        digitsValue_replicate_zero, Nat.zero_mul, Nat.zero_add, hvalue]
    have hfraction : -((List.replicate zeros '0' ++ digits).length : Int) = d.exponent := by
      rw [List.length_append, List.length_replicate]
      omega
    rw [hsum, hfraction] at hread
    exact hread
  · rw [if_neg (by omega)]
    generalize hpoint : (d.exponent + (digits.length : Int)).toNat = point
    have htake : digits.take point ≠ [] := by
      rw [ne_eq, List.take_eq_nil_iff, not_or]
      exact ⟨by omega, hne⟩
    rw [readUnsigned?_point negative (fun c hc => hdigits c (List.mem_of_mem_take hc)) htake
      (fun c hc => hdigits c (List.mem_of_mem_drop hc)), List.take_append_drop, hvalue]
    have hfraction : -((digits.drop point).length : Int) = d.exponent := by
      rw [List.length_drop]
      omega
    rw [hfraction]

/-- The plain text of a magnitude is read as the magnitude. -/
theorem readUnsigned?_magnitude (negative : Bool) (m : Fin 9218868437227405312) :
    readUnsigned? negative (Layout.plain.magnitude m) = some (.finite negative m) := by
  unfold Layout.magnitude
  split
  · rename_i hzero
    obtain rfl : m = 0 := Fin.ext hzero
    exact readUnsigned?_whole negative (by decide) (List.cons_ne_nil _ _)
  · rename_i hne
    have hpos := Nat.pos_of_ne_zero hne
    obtain ⟨hholds, hexponent⟩ := shortest_spec Layout.plain.tie hpos m.isLt
    generalize shortest Layout.plain.tie m = d at *
    simp only [Layout.plain, if_true]
    obtain hsign | hsign := Int.lt_or_le d.exponent 0
    · exact (readUnsigned?_of_neg negative hsign).trans
        (congrArg some (ofDecimal_eq negative hpos hexponent hholds))
    · refine (readUnsigned?_of_nonneg negative hsign).trans
        (congrArg some (ofDecimal_eq negative hpos (by decide) ?_))
      rwa [mul_powerStep_whole _ hsign, powerDen_of_nonneg hsign] at hholds

/-- The plain text of a finite double is read as the double. -/
theorem read?_chars (negative : Bool) (m : Fin 9218868437227405312) :
    read? ((Double.finite negative m).chars .plain) = some (.finite negative m) := by
  cases negative with
  | true => exact readUnsigned?_magnitude true m
  | false => exact read?_of_readUnsigned? (readUnsigned?_magnitude false m)

end PressRegister.Number.Double
