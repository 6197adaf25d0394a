import PressRegister.Text.Hex

/-!
# Supplies of random names

Names that must not collide with others are made from random numbers of 128
bits. A supply holds an endless row of them and hands out one at a time.

## Main definitions

* `Supply`: the row, and how much of it is used.
* `Supply.next`: the next number, and the supply without it.
* `randomName`: a number as 32 hexadecimal digits.
-/

namespace PressRegister

/-- An endless row of random numbers, and how many of them are used. -/
structure Supply where
  number : Nat → BitVec 128
  used : Nat

namespace Supply

/-- The next number, and the supply without it. -/
def next (s : Supply) : BitVec 128 × Supply :=
  (s.number s.used, { s with used := s.used + 1 })

/-- A supply in which no number is repeated for a long time. -/
def counting : Supply where
  number n := BitVec.ofNat 128 ((n + 1) * ((7919 <<< 104) + 1))
  used := 0

end Supply

/-- A random number as 32 hexadecimal digits. -/
def randomName (n : BitVec 128) : List Char :=
  Text.hexPadded 32 n.toNat

/-- The first six digits of a random number. -/
def randomSuffix (n : BitVec 128) : List Char :=
  (randomName n).take 6

end PressRegister
