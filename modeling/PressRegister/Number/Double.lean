/-!
# Binary numbers of double precision

A finite double is a sign and a magnitude. Magnitudes are numbered in increasing
order: `0` is zero, and the successor of a magnitude is the next larger one. All
magnitudes are whole multiples of `2 ^ -1074`, so every operation is a
computation on natural numbers followed by one rounding.

## Main definitions

* `Double`: finite numbers, the two infinities, and the value that is no number.
* `Double.units`: a magnitude as a multiple of `2 ^ -1074`.
* `Double.ofRatio`: the double nearest to a quotient, a tie going to the even magnitude.
* `Double.mul`, `Double.div`: the product and quotient of finite doubles.

## Main results

* `Double.units_strictMono`: larger numbers of a magnitude mean larger magnitudes.
-/

namespace PressRegister.Number

/-- A binary number of double precision. -/
inductive Double where
  /-- A finite number: its sign, and the number of its magnitude. -/
  | finite (negative : Bool) (magnitude : Fin 9218868437227405312)
  | infinite (negative : Bool)
  | nan
  deriving DecidableEq, Repr

namespace Double

/-- How many magnitudes share one power of two. -/
def binade : Nat := 1 <<< 52

/-- A magnitude as a multiple of `2 ^ -1074`. -/
def units (magnitude : Nat) : Nat :=
  if magnitude < binade then magnitude
  else (magnitude % binade + binade) <<< (magnitude / binade - 1)

/-- A quotient to the nearest whole number, a tie going to the even one. -/
def roundQuotient (num den : Nat) : Nat :=
  let q := num / den
  let r := num % den
  if den < 2 * r || (2 * r == den && q % 2 == 1) then q + 1 else q

/-- The number of the magnitude nearest to a quotient, when magnitudes are
continued beyond the finite ones. -/
def nearestMagnitude (num den : Nat) : Nat :=
  let scaled := num <<< 1074
  let shift := (scaled / den).log2 - 52
  shift * binade + roundQuotient scaled (den <<< shift)

/-- A magnitude with a sign; infinite if it is beyond the finite ones. -/
def ofMagnitude (negative : Bool) (magnitude : Nat) : Double :=
  if h : magnitude < 9218868437227405312 then .finite negative ⟨magnitude, h⟩
  else .infinite negative

/-- The double nearest to a quotient. -/
def ofRatio (negative : Bool) (num den : Nat) : Double :=
  ofMagnitude negative (nearestMagnitude num den)

/-- The double nearest to an integer. -/
def ofInt (n : Int) : Double :=
  ofRatio (n < 0) n.natAbs 1

/-- The double nearest to `digits * 10 ^ exponent`. A value of at least `10 ^ 401` is
infinite and one below `2 ^ -1076` is zero, so neither needs its quotient. -/
def ofDecimal (negative : Bool) (digits : Nat) (exponent : Int) : Double :=
  if digits = 0 then .finite negative 0
  else if 400 < exponent then .infinite negative
  else if exponent < 0 && (digits.log2 : Int) + 3 * exponent < -1100 then .finite negative 0
  else if 0 ≤ exponent then ofRatio negative (digits * Nat.pow 10 exponent.toNat) 1
  else ofRatio negative digits (Nat.pow 10 exponent.natAbs)

/-- The product of finite doubles. -/
def mul : Double → Double → Double
  | .finite s a, .finite t b => ofRatio (s != t) (units a * units b) (1 <<< 2148)
  | _, _ => .nan

/-- The quotient of finite doubles. -/
def div : Double → Double → Double
  | .finite s a, .finite t b => ofRatio (s != t) (units a) (units b)
  | _, _ => .nan

/-- The same number with the other sign. -/
def neg : Double → Double
  | .finite s a => .finite (!s) a
  | .infinite s => .infinite (!s)
  | .nan => .nan

/-- Whether a double is a finite number. -/
def isFinite : Double → Bool
  | .finite _ _ => true
  | _ => false

/-- Whether a double is one of the infinities. -/
def isInfinite : Double → Bool
  | .infinite _ => true
  | _ => false

/-- Whether a double is zero, of either sign. -/
def isZero : Double → Bool
  | .finite _ a => a.val == 0
  | _ => false

/-- Whether a number is greater than zero. -/
def isPositive : Double → Bool
  | .finite s a => !s && a.val != 0
  | .infinite s => !s
  | .nan => false

/-- Whether a number lies between `-bound` and `bound`. -/
def isWithin (bound : Nat) : Double → Bool
  | .finite _ a => units a ≤ bound <<< 1074
  | _ => false

/-- Equality of numbers: both zeros are equal, and what is no number differs from itself. -/
def same : Double → Double → Bool
  | .finite s a, .finite t b => a == b && (s == t || a.val == 0)
  | .infinite s, .infinite t => s == t
  | _, _ => false

instance : BEq Double := ⟨same⟩

theorem units_lt_units_succ (m : Nat) : units m < units (m + 1) := by
  unfold units
  by_cases h : m + 1 < binade
  · rw [if_pos (by omega), if_pos h]; omega
  · by_cases hm : m < binade
    · have hmb : m + 1 = binade := by omega
      rw [if_pos hm, if_neg h, hmb]
      have : binade / binade - 1 = 0 := by decide
      rw [this, Nat.mod_self]
      omega
    · rw [if_neg hm, if_neg h]
      have hb : 0 < binade := by decide
      have hdiv := Nat.div_add_mod m binade
      have hmod := Nat.mod_lt m hb
      have hq : 1 ≤ m / binade := (Nat.le_div_iff_mul_le hb).2 (by omega)
      by_cases hlast : m % binade + 1 = binade
      · have hnext : m + 1 = binade * (m / binade + 1) := by
          rw [Nat.mul_add]; omega
        rw [hnext, Nat.mul_mod_right, Nat.mul_div_cancel_left _ hb]
        obtain ⟨q, hqe⟩ : ∃ q, m / binade = q + 1 := ⟨m / binade - 1, by omega⟩
        rw [hqe]
        simp only [Nat.add_sub_cancel, Nat.shiftLeft_eq, Nat.pow_succ]
        have hp : 0 < 2 ^ q := Nat.pow_pos (by decide)
        have : (m % binade + binade) * 2 ^ q < (0 + binade) * (2 ^ q * 2) := by
          rw [Nat.mul_comm (2 ^ q) 2, ← Nat.mul_assoc]
          exact Nat.mul_lt_mul_of_pos_right (by omega) hp
        exact this
      · have hnext : m + 1 = (m % binade + 1) + binade * (m / binade) := by omega
        rw [hnext, Nat.add_mul_mod_self_left, Nat.mod_eq_of_lt (by omega : m % binade + 1 < binade),
          Nat.add_mul_div_left _ _ hb, Nat.div_eq_of_lt (by omega : m % binade + 1 < binade),
          Nat.zero_add]
        rw [Nat.shiftLeft_eq, Nat.shiftLeft_eq]
        exact Nat.mul_lt_mul_of_pos_right (by omega) (Nat.pow_pos (by decide))

theorem units_strictMono {m n : Nat} (h : m < n) : units m < units n := by
  induction n with
  | zero => omega
  | succ n ih =>
    by_cases hmn : m < n
    · exact Nat.lt_trans (ih hmn) (units_lt_units_succ n)
    · have : m = n := by omega
      subst this
      exact units_lt_units_succ m

end Double

end PressRegister.Number
