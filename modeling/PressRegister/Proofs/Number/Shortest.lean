import PressRegister.Proofs.Number.Nearest

/-!
# The shortest decimal in an interval

Every interval has a multiple of a power of ten that is smaller than half of it. The spacing of
doubles is known from their binary digits, so the search for the shortest decimal of a magnitude
comes to an end within its steps, and what it finds is rounded to the magnitude.

## Main definitions

* `Double.powerStep`, `Double.powerDen`: a power of ten as a quotient.

## Main results

* `Double.Rounding.search_spec`: a search ends in the interval if there is something to find.
* `Double.powerStep_lt_spacing`: the last power of ten of a search is below the spacing of doubles.
* `Double.shortest_spec`: the shortest decimal of a magnitude lies in its interval.
* `Double.ofDecimal_eq`: a decimal in the interval of a magnitude is read as the magnitude.
-/

namespace PressRegister.Number.Double

variable {tie : Tie} {r : Rounding} {k : Int} {m : Nat}

/-! ### Powers of ten -/

/-- The numerator of `10 ^ k` as a quotient, in multiples of `2 ^ -1075`. -/
def powerStep (k : Int) : Nat :=
  if 0 ≤ k then Nat.pow 10 k.toNat <<< 1075 else 1 <<< 1075

/-- The denominator of `10 ^ k` as a quotient. -/
def powerDen (k : Int) : Nat :=
  if 0 ≤ k then 1 else Nat.pow 10 k.natAbs

theorem powerDen_of_nonneg (h : 0 ≤ k) : powerDen k = 1 :=
  if_pos h

theorem powerDen_of_neg (h : k < 0) : powerDen k = 10 ^ k.natAbs :=
  if_neg (Int.not_le.2 h)

theorem powerStep_pos (k : Int) : 0 < powerStep k := by
  unfold powerStep
  generalize 1075 = point
  split <;> rw [Nat.shiftLeft_eq]
  · exact Nat.mul_pos (Nat.pow_pos (by decide)) (Nat.two_pow_pos point)
  · exact Nat.mul_pos Nat.one_pos (Nat.two_pow_pos point)

theorem powerDen_pos (k : Int) : 0 < powerDen k := by
  unfold powerDen
  split
  · exact Nat.one_pos
  · exact Nat.pow_pos (by decide)

theorem mul_powerStep_of_neg (digits : Nat) (h : k < 0) :
    digits * powerStep k = digits <<< 1075 := by
  unfold powerStep
  generalize 1075 = point
  rw [if_neg (Int.not_le.2 h), Nat.one_shiftLeft, Nat.shiftLeft_eq]

theorem mul_powerStep_of_nonneg (digits : Nat) (h : 0 ≤ k) :
    digits * powerStep k = (digits * Nat.pow 10 k.toNat) <<< 1075 := by
  unfold powerStep
  generalize 1075 = point
  rw [if_pos h, Nat.shiftLeft_eq, Nat.shiftLeft_eq, Nat.mul_assoc]

/-- A multiple of a power of ten that is whole is one of `1` as well. -/
theorem mul_powerStep_whole (digits : Nat) (h : 0 ≤ k) :
    digits * powerStep k = digits * 10 ^ k.toNat * powerStep 0 := by
  rw [mul_powerStep_of_nonneg digits h, mul_powerStep_of_nonneg _ (Int.le_refl 0)]
  exact congrArg (· <<< 1075) (Nat.mul_one _).symm

/-! ### The search -/

namespace Rounding

/-- Either a multiple in the interval is found, or the first one above the middle is outside. -/
theorem multiple?_cases (tie : Tie) (r : Rounding) (k : Int) :
    (∃ digits, r.multiple? tie k = some digits ∧
      r.holds (digits * powerStep k) (powerDen k) = true) ∨
    r.multiple? tie k = none ∧
      r.holds ((r.middle * powerDen k / powerStep k + 1) * powerStep k) (powerDen k) = false := by
  unfold multiple? powerStep powerDen
  generalize (if 0 ≤ k then Nat.pow 10 k.toNat <<< 1075 else 1 <<< 1075) = step
  generalize (if 0 ≤ k then 1 else Nat.pow 10 k.natAbs) = den
  dsimp only
  generalize r.middle * den / step = below
  cases hbelow : r.holds (below * step) den <;> cases habove : r.holds ((below + 1) * step) den
  · exact .inr ⟨rfl, rfl⟩
  · exact .inl ⟨_, rfl, habove⟩
  · exact .inl ⟨_, rfl, hbelow⟩
  · refine .inl ?_
    dsimp only
    split
    · exact ⟨_, rfl, hbelow⟩
    · split
      · exact ⟨_, rfl, habove⟩
      · cases tie with
        | up => exact ⟨_, rfl, habove⟩
        | toEven =>
          dsimp only
          split
          · exact ⟨_, rfl, hbelow⟩
          · exact ⟨_, rfl, habove⟩

theorem holds_multiple {digits : Nat} (h : r.multiple? tie k = some digits) :
    r.holds (digits * powerStep k) (powerDen k) = true := by
  obtain ⟨found, hfound, hholds⟩ | ⟨hnone, -⟩ := multiple?_cases tie r k
  · rw [h] at hfound
    exact Option.some.inj hfound ▸ hholds
  · rw [h] at hnone
    cases hnone

/-- A power of ten that is smaller than the upper half of an interval has a multiple there. -/
theorem exists_multiple (hlow : r.low ≤ r.middle)
    (h : r.middle * powerDen k + powerStep k < r.high * powerDen k) :
    ∃ digits, r.multiple? tie k = some digits := by
  obtain ⟨digits, hdigits, -⟩ | ⟨-, hoff⟩ := multiple?_cases tie r k
  · exact ⟨digits, hdigits⟩
  · have hdiv := Nat.div_add_mod' (r.middle * powerDen k) (powerStep k)
    have hrest := Nat.mod_lt (r.middle * powerDen k) (powerStep_pos k)
    have hmul := Nat.mul_le_mul_right (powerDen k) hlow
    have hin : r.holds ((r.middle * powerDen k / powerStep k + 1) * powerStep k)
        (powerDen k) = true := by
      rw [holds_iff, Nat.add_mul, Nat.one_mul]
      omega
    rw [hin] at hoff
    cases hoff

/-- A search ends in the interval if one of the powers of ten has a multiple there. -/
theorem search_spec (fuel : Nat)
    (h : ∃ j < fuel, ∃ digits, r.multiple? tie (k - j) = some digits) :
    r.holds ((r.search tie fuel k).digits * powerStep (r.search tie fuel k).exponent)
        (powerDen (r.search tie fuel k).exponent) = true ∧
      (r.search tie fuel k).exponent ≤ k := by
  induction fuel generalizing k with
  | zero =>
    obtain ⟨j, hj, -⟩ := h
    cases hj
  | succ fuel ih =>
    cases hmultiple : r.multiple? tie k with
    | some digits =>
      have hsearch : r.search tie (fuel + 1) k = ⟨digits, k⟩ := by rw [search, hmultiple]
      rw [hsearch]
      exact ⟨holds_multiple hmultiple, Int.le_refl _⟩
    | none =>
      have hsearch : r.search tie (fuel + 1) k = r.search tie fuel (k - 1) := by
        rw [search, hmultiple]
      obtain ⟨j, hj, digits, hdigits⟩ := h
      cases j with
      | zero => simp [hmultiple] at hdigits
      | succ j =>
        have hnext : k - (j + 1 : Nat) = k - 1 - j := by omega
        obtain ⟨hholds, hle⟩ := ih ⟨j, Nat.lt_of_succ_lt_succ hj, digits, hnext ▸ hdigits⟩
        rw [hsearch]
        exact ⟨hholds, by omega⟩

end Rounding

/-! ### Powers of two and of ten -/

theorem two_pow_le_ten_pow (n : Nat) : 2 ^ (33 * (n / 10) + 3 * (n % 10)) ≤ 10 ^ n :=
  calc 2 ^ (33 * (n / 10) + 3 * (n % 10)) = (2 ^ 33) ^ (n / 10) * (2 ^ 3) ^ (n % 10) := by
        rw [Nat.pow_add, Nat.pow_mul, Nat.pow_mul]
    _ ≤ (10 ^ 10) ^ (n / 10) * 10 ^ (n % 10) :=
        Nat.mul_le_mul (Nat.pow_le_pow_left (by decide) _) (Nat.pow_le_pow_left (by decide) _)
    _ = 10 ^ n := by rw [← Nat.pow_mul, ← Nat.pow_add, Nat.div_add_mod]

theorem ten_pow_le_two_pow (n : Nat) : 10 ^ n ≤ 2 ^ (10 * (n / 3) + 4 * (n % 3)) :=
  calc 10 ^ n = (10 ^ 3) ^ (n / 3) * 10 ^ (n % 3) := by
        rw [← Nat.pow_mul, ← Nat.pow_add, Nat.div_add_mod]
    _ ≤ (2 ^ 10) ^ (n / 3) * (2 ^ 4) ^ (n % 3) :=
        Nat.mul_le_mul (Nat.pow_le_pow_left (by decide) _) (Nat.pow_le_pow_left (by decide) _)
    _ = 2 ^ (10 * (n / 3) + 4 * (n % 3)) := by rw [← Nat.pow_mul, ← Nat.pow_mul, ← Nat.pow_add]

theorem log2_units_add {a r : Nat} (hr : r < binade) :
    (units ((a + 1) * binade + r)).log2 = a + 52 := by
  have hbinade : binade = 2 ^ 52 := rfl
  have hpos : 0 < 2 ^ a := Nat.two_pow_pos a
  rw [units_add hr, Nat.log2_eq_iff (Nat.mul_ne_zero (by omega) (by omega))]
  constructor
  · rw [Nat.pow_add, Nat.mul_comm, ← hbinade]
    exact Nat.mul_le_mul_right _ (by omega)
  · rw [Nat.add_assoc, Nat.pow_add, Nat.mul_comm]
    exact Nat.mul_lt_mul_of_pos_left (by omega) hpos

/-- The binary digits of a magnitude tell how far it is from the next one. -/
theorem log2_units (m : Nat) : (units m).log2 - 52 = m / binade - 1 ∧
    (m < 9218868437227405312 → (units m).log2 < 2098) := by
  have hr := Nat.mod_lt m binade_pos
  have hm := Nat.div_add_mod' m binade
  generalize m % binade = r at hr hm
  cases ha : m / binade with
  | zero =>
    have hlt : m < 2 ^ 52 := (Nat.div_eq_zero_iff_lt binade_pos).1 ha
    have hlog : m.log2 ≤ 52 := by
      by_cases hzero : m = 0
      · subst hzero
        decide
      · exact Nat.le_of_lt ((Nat.log2_lt hzero).2 hlt)
    have hunits : units m = m := if_pos hlt
    rw [hunits]
    omega
  | succ a =>
    rw [ha] at hm
    have hlog : (units m).log2 = a + 52 := hm ▸ log2_units_add hr
    rw [hlog]
    refine ⟨rfl, fun hfinite => ?_⟩
    have : m / binade < 2047 := (Nat.div_lt_iff_lt_mul binade_pos).2 hfinite
    omega

/-- Twenty-one powers of ten below a magnitude is less than the spacing of its neighbours. -/
theorem powerStep_lt_spacing {bits : Nat} (h : bits < 2098)
    (hk : k = Int.fdiv (((bits : Int) - 1074) * 30103) 100000 - 21) :
    powerStep k < 2 ^ (bits - 52) * powerDen k := by
  rw [Int.fdiv_eq_ediv_of_nonneg _ (by decide)] at hk
  unfold powerStep powerDen
  generalize hpoint : 1075 = point
  split
  · rw [Nat.mul_one, Nat.shiftLeft_eq]
    have hpower : 10 ^ k.toNat ≤ 2 ^ (10 * (k.toNat / 3) + 4 * (k.toNat % 3)) :=
      ten_pow_le_two_pow _
    calc 10 ^ k.toNat * 2 ^ point ≤ 2 ^ (10 * (k.toNat / 3) + 4 * (k.toNat % 3)) * 2 ^ point :=
          Nat.mul_le_mul_right _ hpower
      _ = 2 ^ (10 * (k.toNat / 3) + 4 * (k.toNat % 3) + point) := (Nat.pow_add _ _ _).symm
      _ < 2 ^ (bits - 52) := Nat.pow_lt_pow_right (by decide) (by omega)
  · rw [Nat.shiftLeft_eq, Nat.one_mul]
    have hpower : 2 ^ (33 * (k.natAbs / 10) + 3 * (k.natAbs % 10)) ≤ 10 ^ k.natAbs :=
      two_pow_le_ten_pow _
    calc 2 ^ point < 2 ^ (bits - 52 + (33 * (k.natAbs / 10) + 3 * (k.natAbs % 10))) :=
          Nat.pow_lt_pow_right (by decide) (by omega)
      _ = 2 ^ (bits - 52) * 2 ^ (33 * (k.natAbs / 10) + 3 * (k.natAbs % 10)) := Nat.pow_add _ _ _
      _ ≤ 2 ^ (bits - 52) * 10 ^ k.natAbs := Nat.mul_le_mul_left _ hpower

/-! ### The shortest decimal of a magnitude -/

/-- The shortest decimal of a magnitude lies in its interval. -/
theorem shortest_spec (tie : Tie) (hpos : 0 < m) (hfinite : m < 9218868437227405312) :
    (rounding m).holds ((shortest tie m).digits * powerStep (shortest tie m).exponent)
        (powerDen (shortest tie m).exponent) = true ∧
      (shortest tie m).exponent ≤ 400 := by
  obtain ⟨hspacing, hbits⟩ := log2_units m
  have hbits := hbits hfinite
  have hlast : ∃ digits, (rounding m).multiple? tie (powerAbove m - (23 : Nat)) = some digits := by
    have hstep : powerStep (powerAbove m - (23 : Nat)) <
        2 ^ ((units m).log2 - 52) * powerDen (powerAbove m - (23 : Nat)) :=
      powerStep_lt_spacing hbits (by rw [powerAbove]; omega)
    have hprevious : units (m - 1) ≤ units m := by
      obtain ⟨n, rfl⟩ := Nat.exists_eq_add_of_lt hpos
      exact Nat.le_of_lt (units_lt_units_succ _)
    refine Rounding.exists_multiple ?_ ?_
    · simp only [rounding]
      omega
    · simp only [rounding, units_succ m, ← hspacing, Nat.two_mul, Nat.add_mul]
      omega
  obtain ⟨hholds, hle⟩ := Rounding.search_spec 24 ⟨23, by decide, hlast⟩
  have habove : powerAbove m ≤ 400 := by
    rw [powerAbove, Int.fdiv_eq_ediv_of_nonneg _ (by decide)]
    omega
  rw [shortest, if_neg (Nat.pos_iff_ne_zero.1 hpos)]
  exact ⟨hholds, Int.le_trans hle habove⟩

variable {magnitude : Fin 9218868437227405312}

theorem ofRatio_eq {num den : Nat} (negative : Bool) (hden : 0 < den)
    (h : (rounding magnitude).holds (num <<< 1075) den = true) :
    ofRatio negative num den = .finite negative magnitude := by
  rw [ofRatio, nearestMagnitude_eq hden h, ofMagnitude, dif_pos magnitude.isLt]

/-- A decimal in the interval of a magnitude is neither too large nor too small to be read. -/
theorem ofDecimal_eq {digits : Nat} (negative : Bool) (hpos : 0 < magnitude.val)
    (hexponent : k ≤ 400)
    (h : (rounding magnitude).holds (digits * powerStep k) (powerDen k) = true) :
    ofDecimal negative digits k = .finite negative magnitude := by
  have hlow : 0 < (rounding magnitude).low := by
    have : units 0 < units magnitude := units_strictMono hpos
    simp only [rounding]
    omega
  have hvalue : powerDen k ≤ digits * powerStep k :=
    Nat.le_trans (Nat.le_mul_of_pos_left _ hlow) (Rounding.holds_iff.1 h).1
  have hdigits : digits ≠ 0 := by
    rintro rfl
    have := powerDen_pos k
    omega
  unfold ofDecimal
  rw [if_neg hdigits, if_neg (by omega)]
  obtain hsign | hsign := Int.lt_or_le k 0
  · rw [mul_powerStep_of_neg digits hsign, powerDen_of_neg hsign] at h hvalue
    have hlog : k.natAbs * 3 < digits.log2 + 1 + 1075 := by
      clear h
      generalize 1075 = point at *
      rw [Nat.shiftLeft_eq] at hvalue
      rw [← Nat.pow_lt_pow_iff_right (a := 2) (by decide)]
      calc 2 ^ (k.natAbs * 3) = 8 ^ k.natAbs := by rw [Nat.mul_comm, Nat.pow_mul]
        _ ≤ 10 ^ k.natAbs := Nat.pow_le_pow_left (by decide) _
        _ ≤ digits * 2 ^ point := hvalue
        _ < 2 ^ (digits.log2 + 1) * 2 ^ point :=
          Nat.mul_lt_mul_of_pos_right Nat.lt_log2_self (Nat.two_pow_pos point)
        _ = 2 ^ (digits.log2 + 1 + point) := (Nat.pow_add _ _ _).symm
    rw [if_neg (by simp; omega), if_neg (Int.not_le.2 hsign)]
    exact ofRatio_eq negative (Nat.pow_pos (by decide)) h
  · rw [mul_powerStep_of_nonneg digits hsign, powerDen_of_nonneg hsign] at h
    rw [if_neg (by simp; omega), if_pos hsign]
    exact ofRatio_eq negative Nat.one_pos h

end PressRegister.Number.Double
