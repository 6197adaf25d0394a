import PressRegister.Text.Quoted

/-!
# Hexadecimal numerals

## Main definitions

* `hexChars`: a natural number in hexadecimal, in lower case and without leading zeros.
* `hexPadded`: the last digits of a number, with leading zeros.
* `isHexDigit`, `isLowerHexDigit`: the digits, in either case and in lower case.

## Main results

* `hexChars_all`: a numeral consists of lower-case digits.
* `hexChars_injective`: a numeral determines its number.
-/

namespace PressRegister.Text

/-- Whether a character is a hexadecimal digit in lower case. -/
def isLowerHexDigit (c : Char) : Bool :=
  ('0' ≤ c && c ≤ '9') || ('a' ≤ c && c ≤ 'f')

/-- Whether a character is a hexadecimal digit. -/
def isHexDigit (c : Char) : Bool :=
  isLowerHexDigit c || ('A' ≤ c && c ≤ 'F')

/-- The last `k` hexadecimal digits of a number. -/
def hexPadded : Nat → Nat → List Char
  | 0, _ => []
  | k + 1, n => hexPadded k (n / 16) ++ [hexDigit (n % 16)]

/-- How many hexadecimal digits a number has, for numbers below `16 ^ fuel`. -/
def hexLength : Nat → Nat → Nat
  | 0, _ => 1
  | fuel + 1, n => if n < 16 then 1 else hexLength fuel (n / 16) + 1

/-- A number in hexadecimal without leading zeros. -/
def hexChars (n : Nat) : List Char :=
  hexPadded (hexLength n.log2 n) n

theorem isLowerHexDigit_hexDigit {n : Nat} (h : n < 16) : isLowerHexDigit (hexDigit n) = true := by
  revert n
  decide

theorem hexPadded_all (k n : Nat) : (hexPadded k n).all isLowerHexDigit = true := by
  induction k generalizing n with
  | zero => rfl
  | succ k ih =>
    simp only [hexPadded, List.all_append, ih, Bool.true_and, List.all_cons, List.all_nil,
      Bool.and_true]
    exact isLowerHexDigit_hexDigit (Nat.mod_lt _ (by decide))

theorem hexLength_pos (fuel n : Nat) : 0 < hexLength fuel n := by
  cases fuel with
  | zero => exact Nat.one_pos
  | succ fuel => unfold hexLength; split <;> omega

theorem hexPadded_length (k n : Nat) : (hexPadded k n).length = k := by
  induction k generalizing n with
  | zero => rfl
  | succ k ih => simp [hexPadded, ih]

theorem hexChars_all (n : Nat) : (hexChars n).all isLowerHexDigit = true :=
  hexPadded_all _ _

theorem hexChars_ne_nil (n : Nat) : hexChars n ≠ [] := by
  intro h
  have := hexPadded_length (hexLength n.log2 n) n
  have hpos := hexLength_pos n.log2 n
  unfold hexChars at h
  rw [h] at this
  simp at this
  omega

/-! ### Reading numerals back -/

/-- The number that a digit in lower case stands for. -/
def hexDigitValue (c : Char) : Nat :=
  if c ≤ '9' then c.toNat - '0'.toNat else c.toNat - 'a'.toNat + 10

/-- The number that a numeral stands for. -/
def hexValue (cs : List Char) : Nat :=
  cs.foldl (fun n c => 16 * n + hexDigitValue c) 0

theorem hexDigitValue_hexDigit {n : Nat} (h : n < 16) : hexDigitValue (hexDigit n) = n := by
  revert n
  decide

theorem hexValue_append_singleton (cs : List Char) (c : Char) :
    hexValue (cs ++ [c]) = 16 * hexValue cs + hexDigitValue c := by
  simp [hexValue, List.foldl_append]

theorem hexValue_hexPadded_one {n : Nat} (h : n < 16) : hexValue (hexPadded 1 n) = n := by
  rw [hexPadded, hexPadded, hexValue_append_singleton, hexDigitValue_hexDigit (by omega)]
  simp only [hexValue, List.foldl_nil]
  omega

theorem log2_mono {m n : Nat} (h : m ≤ n) : m.log2 ≤ n.log2 := by
  by_cases hm : m = 0
  · simp [hm]
  · rw [Nat.le_log2 (by omega)]
    exact Nat.le_trans (Nat.log2_self_le hm) h

theorem hexValue_hexPadded {fuel n : Nat} (h : n.log2 ≤ fuel) :
    hexValue (hexPadded (hexLength fuel n) n) = n := by
  induction fuel generalizing n with
  | zero =>
    rw [Nat.log2_def] at h
    have hn : n < 2 := by
      split at h <;> omega
    exact hexValue_hexPadded_one (by omega)
  | succ fuel ih =>
    unfold hexLength
    split
    · rename_i hn
      exact hexValue_hexPadded_one hn
    · rename_i hn
      have hlog : (n / 16).log2 ≤ fuel := by
        have hhalf : n.log2 = (n / 2).log2 + 1 := by rw [Nat.log2_def, if_pos (by omega)]
        have hle : (n / 16).log2 ≤ (n / 2).log2 := log2_mono (by omega)
        omega
      rw [hexPadded, hexValue_append_singleton, ih hlog,
        hexDigitValue_hexDigit (Nat.mod_lt _ (by decide))]
      omega

/-- Numbers with one numeral are one number. -/
theorem hexChars_injective {m n : Nat} (h : hexChars m = hexChars n) : m = n := by
  calc m = hexValue (hexChars m) := (hexValue_hexPadded (Nat.le_refl _)).symm
    _ = hexValue (hexChars n) := by rw [h]
    _ = n := hexValue_hexPadded (Nat.le_refl _)

end PressRegister.Text
