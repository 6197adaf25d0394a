import Mathlib.Algebra.Group.Nat.Defs
import PressRegister.Number.Double.Shortest

/-!
# The nearest double

Rounding goes to the nearest magnitude. The numbers nearest to a magnitude form an interval around
it, which ends midway to its neighbours, and of two neighbours the even one has the end between
them. So the intervals of the magnitudes share no number, and a quotient is rounded to the one
magnitude in whose interval it lies.

## Main definitions

* `Double.RoundsTo`: what is known of the multiple of a power of two that a quotient is rounded to.

## Main results

* `Double.units_succ`: how far a magnitude is from the next larger one.
* `Double.holds_nearestMagnitude`: a quotient lies in the interval of the magnitude nearest to it.
* `Double.eq_of_holds`: the intervals of different magnitudes have no number in common.
* `Double.nearestMagnitude_eq`: a number in the interval of a magnitude is rounded to it.
-/

namespace PressRegister.Number.Double

/-! ### Neighbours -/

theorem binade_pos : 0 < binade := by decide

theorem units_add {r : Nat} (hr : r < binade) (a : Nat) :
    units ((a + 1) * binade + r) = (r + binade) * 2 ^ a := by
  have hdiv : ((a + 1) * binade + r) / binade = a + 1 := by
    rw [Nat.mul_comm, Nat.mul_add_div binade_pos, Nat.div_eq_of_lt hr, Nat.add_zero]
  have hmod : ((a + 1) * binade + r) % binade = r := by
    rw [Nat.mul_comm, Nat.mul_add_mod, Nat.mod_eq_of_lt hr]
  have hlarge : ¬ (a + 1) * binade + r < binade := by
    rw [Nat.add_mul]
    omega
  rw [units, if_neg hlarge, hdiv, hmod, Nat.add_sub_cancel, Nat.shiftLeft_eq]

/-- A magnitude is one unit of its power of two from the next larger one. -/
theorem units_succ (m : Nat) : units (m + 1) = units m + 2 ^ (m / binade - 1) := by
  have hr := Nat.mod_lt m binade_pos
  have hm := Nat.div_add_mod' m binade
  generalize m % binade = r at hr hm
  cases ha : m / binade with
  | zero =>
    rw [ha] at hm
    have hunits : units m = m := if_pos (by omega)
    rw [hunits, Nat.zero_sub, Nat.pow_zero]
    obtain hnext | hnext : m + 1 < binade ∨ m + 1 = binade := by omega
    · exact if_pos hnext
    · have hfirst : units (1 * binade + 0) = (0 + binade) * 2 ^ 0 := units_add binade_pos 0
      simpa [hnext] using hfirst
  | succ a =>
    rw [ha] at hm
    rw [← hm, units_add hr, Nat.add_sub_cancel]
    obtain hnext | hnext : r + 1 < binade ∨ r + 1 = binade := by omega
    · rw [Nat.add_assoc, units_add hnext, Nat.add_right_comm, Nat.add_mul, Nat.one_mul]
    · have hcarry : (a + 1) * binade + r + 1 = (a + 1 + 1) * binade + 0 := by
        rw [Nat.add_mul (a + 1), Nat.one_mul]
        omega
      rw [hcarry, units_add binade_pos, Nat.zero_add, Nat.pow_succ, ← Nat.succ_mul,
        Nat.succ_eq_add_one, Nat.add_right_comm, hnext, Nat.mul_comm (2 ^ a), ← Nat.mul_assoc,
        Nat.mul_two]

variable {num den m n s q : Nat}

/-! ### Rounding to a multiple -/

/-- A quotient is at most half from the whole number that it is rounded to, and if it is as far as
that, the whole number is even. -/
theorem roundQuotient_spec (num : Nat) (hden : 0 < den) :
    2 * num ≤ (2 * roundQuotient num den + 1) * den ∧
      2 * roundQuotient num den * den ≤ 2 * num + den ∧
      (2 * num = (2 * roundQuotient num den + 1) * den ∨
        2 * roundQuotient num den * den = 2 * num + den → roundQuotient num den % 2 = 0) := by
  have hnum := Nat.div_add_mod' num den
  have hrest := Nat.mod_lt num hden
  unfold roundQuotient
  generalize num / den = q at *
  generalize num % den = r at *
  subst hnum
  have hprod : 2 * q * den = 2 * (q * den) := Nat.mul_assoc 2 q den
  simp only [Bool.or_eq_true, Bool.and_eq_true, decide_eq_true_eq, beq_iff_eq]
  split
  · simp only [Nat.mul_add, Nat.add_mul, Nat.mul_one, hprod]
    omega
  · simp only [Nat.add_mul, Nat.one_mul, hprod]
    omega

theorem roundQuotient_bounds {low high : Nat} (hden : 0 < den) (hlow : low * den ≤ num)
    (hhigh : num < high * den) : low ≤ roundQuotient num den ∧ roundQuotient num den ≤ high := by
  have hq : low ≤ num / den := (Nat.le_div_iff_mul_le hden).2 hlow
  have hq' : num / den < high := (Nat.div_lt_iff_lt_mul hden).2 hhigh
  unfold roundQuotient
  dsimp only
  split <;> omega

/-- The power of two whose multiples a quotient is rounded to leaves no more binary digits than a
magnitude has, and no fewer unless it is one. -/
theorem shift_spec (num : Nat) (hden : 0 < den) :
    num < 2 * binade * (den * 2 ^ ((num / den).log2 - 52)) ∧
      ((num / den).log2 - 52 = 0 ∨ binade * (den * 2 ^ ((num / den).log2 - 52)) ≤ num) := by
  have hbinade : binade = 2 ^ 52 := rfl
  have hhigh : num < 2 ^ ((num / den).log2 + 1) * den :=
    (Nat.div_lt_iff_lt_mul hden).1 Nat.lt_log2_self
  obtain hsmall | ⟨s, hlarge⟩ : (num / den).log2 ≤ 52 ∨ ∃ s, (num / den).log2 = s + 1 + 52 := by
    by_cases h : (num / den).log2 ≤ 52
    · exact .inl h
    · exact .inr ⟨(num / den).log2 - 53, by omega⟩
  · rw [Nat.sub_eq_zero_of_le hsmall, Nat.pow_zero, Nat.mul_one]
    refine ⟨Nat.lt_of_lt_of_le hhigh (Nat.mul_le_mul_right den ?_), .inl rfl⟩
    exact Nat.pow_le_pow_right (by decide) (by omega : _ ≤ 53)
  · have hne : num / den ≠ 0 := fun hzero => by simp [hzero] at hlarge
    have hlow : 2 ^ (num / den).log2 * den ≤ num :=
      (Nat.le_div_iff_mul_le hden).1 (Nat.log2_self_le hne)
    rw [hlarge, Nat.pow_succ] at hhigh
    rw [hlarge] at hlow
    rw [hlarge, Nat.add_sub_cancel, hbinade, Nat.mul_comm den, ← Nat.mul_assoc, ← Nat.mul_assoc,
      Nat.mul_assoc 2, ← Nat.pow_add, Nat.add_comm 52, Nat.mul_comm 2]
    exact ⟨hhigh, .inr hlow⟩

/-- The quotient `num / den` is rounded to the multiple `q` of `2 ^ s`. -/
structure RoundsTo (num den s q : Nat) : Prop where
  /-- The multiple has no more binary digits than a magnitude. -/
  high : q ≤ 2 * binade
  /-- It has no fewer, and neither has the quotient, unless it is a multiple of one. -/
  low : s = 0 ∨ binade ≤ q ∧ binade * (den * 2 ^ s) ≤ num
  above : 2 * num ≤ (2 * q + 1) * (den * 2 ^ s)
  below : 2 * q * (den * 2 ^ s) ≤ 2 * num + den * 2 ^ s
  /-- Midway between two multiples the even one is taken. -/
  tie : 2 * num = (2 * q + 1) * (den * 2 ^ s) ∨ 2 * q * (den * 2 ^ s) = 2 * num + den * 2 ^ s →
    q % 2 = 0

theorem roundsTo_roundQuotient (hden : 0 < den) :
    RoundsTo num den ((num / den).log2 - 52)
      (roundQuotient num (den * 2 ^ ((num / den).log2 - 52))) := by
  obtain ⟨hhigh, hlow⟩ := shift_spec num hden
  generalize (num / den).log2 - 52 = s at *
  have hunit : 0 < den * 2 ^ s := Nat.mul_pos hden (Nat.two_pow_pos s)
  obtain ⟨habove, hbelow, htie⟩ := roundQuotient_spec num hunit
  have hzero : 0 * (den * 2 ^ s) ≤ num := by
    rw [Nat.zero_mul]
    exact Nat.zero_le num
  exact ⟨(roundQuotient_bounds hunit hzero hhigh).2,
    hlow.imp_right fun h => ⟨(roundQuotient_bounds hunit h hhigh).1, h⟩, habove, hbelow, htie⟩

/-! ### The interval of a magnitude -/

theorem Rounding.holds_iff {r : Rounding} :
    r.holds num den = true ↔ r.low * den ≤ num ∧ num ≤ r.high * den ∧
      (num = r.low * den ∨ num = r.high * den → r.closed = true) := by
  unfold holds
  split
  · rename_i hclosed
    simp [hclosed]
  · rename_i hopen
    simp only [hopen, Bool.and_eq_true, decide_eq_true_eq]
    constructor
    · rintro ⟨hlow, hhigh⟩
      exact ⟨Nat.le_of_lt hlow, Nat.le_of_lt hhigh, by omega⟩
    · rintro ⟨hlow, hhigh, hends⟩
      simp only [Bool.false_eq_true, imp_false, not_or] at hends
      omega

theorem units_two_binades (hhigh : q ≤ 2 * binade) (hlow : s = 0 ∨ binade ≤ q) :
    units (s * binade + q) = q * 2 ^ s := by
  obtain hq | hq | hq : q < binade ∨ (∃ r, r < binade ∧ q = binade + r) ∨ q = 2 * binade := by
    by_cases h : q < binade
    · exact .inl h
    · by_cases h' : q = 2 * binade
      · exact .inr (.inr h')
      · exact .inr (.inl ⟨q - binade, by omega, by omega⟩)
  · obtain rfl : s = 0 := hlow.resolve_right (by omega)
    rw [Nat.zero_mul, Nat.zero_add, units, if_pos hq, Nat.pow_zero, Nat.mul_one]
  · obtain ⟨r, hr, rfl⟩ := hq
    rw [← Nat.add_assoc, ← Nat.succ_mul, units_add hr, Nat.add_comm r]
  · subst hq
    have hcarry : s * binade + 2 * binade = (s + 1 + 1) * binade + 0 := by
      simp only [Nat.add_mul, Nat.one_mul]
      omega
    rw [hcarry, units_add binade_pos, Nat.zero_add, Nat.pow_succ, Nat.mul_comm (2 ^ s),
      ← Nat.mul_assoc, Nat.mul_comm binade]

theorem pow_le_spacing (h : s = 0 ∨ (s + 1) * binade ≤ m) : 2 ^ s ≤ 2 ^ (m / binade - 1) := by
  refine Nat.pow_le_pow_right (by decide) ?_
  obtain rfl | h := h
  · exact Nat.zero_le _
  · have := (Nat.le_div_iff_mul_le binade_pos).2 h
    omega

/-- A quotient lies in the interval of the magnitude that it is rounded to. -/
theorem RoundsTo.holds (hden : 0 < den) (h : RoundsTo num den s q) :
    (rounding (s * binade + q)).holds (2 * num) den = true := by
  obtain ⟨hhigh, hlow, habove, hbelow, htie⟩ := h
  have hunits : units (s * binade + q) * den = q * (den * 2 ^ s) := by
    rw [units_two_binades hhigh (hlow.imp_right And.left), Nat.mul_assoc, Nat.mul_comm den]
  have heven : (s * binade + q) % 2 = 0 ↔ q % 2 = 0 := by
    have hbinade : binade = 2 * 2 ^ 51 := rfl
    rw [hbinade, ← Nat.mul_assoc, Nat.mul_comm s, Nat.mul_assoc, Nat.add_comm,
      Nat.add_mul_mod_self_left]
  have hupper : den * 2 ^ s ≤ 2 ^ ((s * binade + q) / binade - 1) * den := by
    rw [Nat.mul_comm]
    refine Nat.mul_le_mul_right den (pow_le_spacing (hlow.imp_right fun h => ?_))
    rw [Nat.add_mul, Nat.one_mul]
    exact Nat.add_le_add_left h.1 _
  rw [Nat.mul_assoc 2 q] at hbelow htie
  rw [Nat.add_mul (2 * q), Nat.one_mul, Nat.mul_assoc 2 q] at habove htie
  rw [Rounding.holds_iff, rounding]
  simp only [beq_iff_eq, heven, units_succ (s * binade + q), Nat.add_mul, hunits]
  cases hn : s * binade + q with
  | zero =>
    obtain rfl : q = 0 := by omega
    rw [hn] at hupper
    rw [Nat.zero_mul, Nat.mul_zero, Nat.zero_add] at habove
    have hempty : units (0 - 1) = 0 := rfl
    simp only [hempty, Nat.zero_mul, Nat.zero_add]
    exact ⟨Nat.zero_le _, Nat.le_trans habove hupper, fun _ => trivial⟩
  | succ m =>
    have hprevious : units m * den + 2 ^ (m / binade - 1) * den = q * (den * 2 ^ s) := by
      rw [← Nat.add_mul, ← units_succ, ← hn, hunits]
    have hspacing : 0 < 2 ^ (m / binade - 1) * den := Nat.mul_pos (Nat.two_pow_pos _) hden
    rw [hn] at hupper
    rw [Nat.add_sub_cancel]
    -- below the first magnitude of a power of two the next one is only half as far as above it,
    -- but no quotient is rounded up to it there
    obtain hlower | hfirst : den * 2 ^ s ≤ 2 ^ (m / binade - 1) * den ∨
        q * (den * 2 ^ s) ≤ num := by
      by_cases hlast : s = 0 ∨ (s + 1) * binade ≤ m
      · exact .inl (Nat.mul_comm _ den ▸ Nat.mul_le_mul_right den (pow_le_spacing hlast))
      · obtain ⟨hne, hm⟩ := not_or.1 hlast
        obtain ⟨hq, hnum⟩ := hlow.resolve_left hne
        rw [Nat.add_mul, Nat.one_mul] at hm
        have hqb : q = binade := by omega
        exact .inr (hqb ▸ hnum)
    · omega
    · omega

/-- A quotient lies in the interval of the magnitude nearest to it. -/
theorem holds_nearestMagnitude (hden : 0 < den) :
    (rounding (nearestMagnitude num den)).holds (num <<< 1075) den = true := by
  have hscaled : num <<< 1075 = 2 * (num <<< 1074) := Nat.shiftLeft_succ num 1074
  rw [nearestMagnitude, hscaled]
  generalize num <<< 1074 = scaled
  simp only [Nat.shiftLeft_eq]
  exact (roundsTo_roundQuotient hden).holds hden

/-- The interval of a magnitude ends before those of larger ones begin, and where the one of its
neighbour begins. -/
theorem high_le_low (h : m < n) : (rounding m).high ≤ (rounding n).low ∧
    ((rounding m).high = (rounding n).low → n = m + 1) := by
  obtain ⟨d, rfl⟩ := Nat.exists_eq_add_of_lt h
  simp only [rounding, Nat.add_sub_cancel]
  cases d with
  | zero => exact ⟨Nat.le_refl _, fun _ => rfl⟩
  | succ d =>
    have hlt : units m < units (m + (d + 1)) := units_strictMono (by omega)
    have hnext : units (m + 1) < units (m + (d + 1) + 1) := units_strictMono (by omega)
    omega

/-- The intervals of different magnitudes have no number in common. -/
theorem eq_of_holds (hden : 0 < den) (hm : (rounding m).holds num den = true)
    (hn : (rounding n).holds num den = true) : m = n := by
  have hle : ∀ {m n}, (rounding m).holds num den = true → (rounding n).holds num den = true →
      ¬ m < n := by
    intro m n hm hn hlt
    obtain ⟨-, hhigh, hmend⟩ := Rounding.holds_iff.1 hm
    obtain ⟨hlow, -, hnend⟩ := Rounding.holds_iff.1 hn
    obtain ⟨hends, hneighbour⟩ := high_le_low hlt
    have hmul := Nat.mul_le_mul_right den hends
    -- a common number is the common end of two neighbours, and both of them are even
    have hmeet : (rounding m).high * den = (rounding n).low * den := by omega
    have hnext : n = m + 1 := hneighbour (Nat.eq_of_mul_eq_mul_right hden hmeet)
    have hmeven : m % 2 = 0 := by simpa [rounding] using hmend (.inr (by omega))
    have hneven : n % 2 = 0 := by simpa [rounding] using hnend (.inl (by omega))
    omega
  exact Nat.le_antisymm (Nat.not_lt.1 (hle hn hm)) (Nat.not_lt.1 (hle hm hn))

/-- A number in the interval of a magnitude is rounded to it. -/
theorem nearestMagnitude_eq (hden : 0 < den)
    (h : (rounding m).holds (num <<< 1075) den = true) : nearestMagnitude num den = m :=
  eq_of_holds hden (holds_nearestMagnitude hden) h

end PressRegister.Number.Double
