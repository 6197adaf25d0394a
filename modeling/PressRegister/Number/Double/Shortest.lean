import PressRegister.Number.Double

/-!
# The shortest decimal of a double

Every finite double is the nearest one to an interval of numbers. The shortest
decimal is the multiple of the largest power of ten in that interval; of two
such multiples it is the one nearer to the double.

## Main definitions

* `Decimal`: a row of digits and a power of ten.
* `Tie`: which of two equally near multiples is taken.
* `Double.shortest`: the shortest decimal of a magnitude.
-/

namespace PressRegister.Number

/-- The number `digits * 10 ^ exponent`. -/
structure Decimal where
  digits : Nat
  exponent : Int
  deriving DecidableEq, Repr

/-- What happens to a number midway between two multiples of a power of ten. -/
inductive Tie where
  | toEven
  | up
  deriving DecidableEq, Repr

namespace Double

/-- The interval of numbers whose nearest double is a given one, in multiples of
`2 ^ -1075`. The ends belong to it when the magnitude is even. -/
structure Rounding where
  low : Nat
  middle : Nat
  high : Nat
  closed : Bool
  deriving Repr

/-- The interval around a magnitude other than zero. -/
def rounding (magnitude : Nat) : Rounding where
  low := units (magnitude - 1) + units magnitude
  middle := 2 * units magnitude
  high := units magnitude + units (magnitude + 1)
  closed := magnitude % 2 == 0

/-- Whether the number `num / den`, in multiples of `2 ^ -1075`, lies in an interval. -/
def Rounding.holds (r : Rounding) (num den : Nat) : Bool :=
  if r.closed then r.low * den ≤ num && num ≤ r.high * den
  else r.low * den < num && num < r.high * den

/-- The multiple of `10 ^ k` in an interval that is nearest to its middle, as a
multiplier of `10 ^ k`. -/
def Rounding.multiple? (tie : Tie) (r : Rounding) (k : Int) : Option Nat :=
  let step := if 0 ≤ k then Nat.pow 10 k.toNat <<< 1075 else 1 <<< 1075
  let den := if 0 ≤ k then 1 else Nat.pow 10 k.natAbs
  let below := r.middle * den / step
  let above := below + 1
  match r.holds (below * step) den, r.holds (above * step) den with
  | false, false => none
  | true, false => some below
  | false, true => some above
  | true, true =>
    let toBelow := r.middle * den - below * step
    let toAbove := above * step - r.middle * den
    if toBelow < toAbove then some below
    else if toAbove < toBelow then some above
    else match tie with
      | .up => some above
      | .toEven => if below % 2 == 0 then some below else some above

/-- The first power of ten, from `k` downwards, with a multiple in the interval. -/
def Rounding.search (tie : Tie) (r : Rounding) : Nat → Int → Decimal
  | 0, k => ⟨r.middle, k⟩
  | fuel + 1, k =>
    match r.multiple? tie k with
    | some digits => ⟨digits, k⟩
    | none => r.search tie fuel (k - 1)

/-- A power of ten above a magnitude: a binary digit is about `0.30103` of a decimal one. -/
def powerAbove (magnitude : Nat) : Int :=
  Int.fdiv ((((units magnitude).log2 : Int) - 1074) * 30103) 100000 + 2

/-- The shortest decimal of a magnitude. Seventeen digits always suffice. -/
def shortest (tie : Tie) (magnitude : Nat) : Decimal :=
  if magnitude = 0 then ⟨0, 0⟩
  else (rounding magnitude).search tie 24 (powerAbove magnitude)

end Double

end PressRegister.Number
