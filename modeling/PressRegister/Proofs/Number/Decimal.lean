import Mathlib.Algebra.Group.Nat.Defs
import PressRegister.Number.Integer
import PressRegister.Proofs.Text.Words

/-!
# Numbers in decimal read back

A row of digits has one value, and a number that is written in decimal is read as itself.

## Main results

* `Number.digitsValue_decimalPadded`: the last digits of a number have its value up to a power of
  ten.
* `Number.readInt64?_intText`: an integer of 64 bits is read back.
-/

namespace PressRegister.Number

/-- The value of a row of digits goes on from the value of those before it. -/
theorem foldl_digits (cs : List Char) (start : Nat) :
    cs.foldl (fun n c => 10 * n + digitValue c) start =
      start * 10 ^ cs.length + digitsValue cs := by
  unfold digitsValue
  induction cs generalizing start with
  | nil => simp
  | cons c cs ih =>
    rw [List.foldl_cons, List.foldl_cons, ih, ih (10 * 0 + digitValue c), List.length_cons,
      Nat.pow_succ, Nat.add_mul, Nat.mul_zero, Nat.zero_add, Nat.add_assoc,
      Nat.mul_comm (10 ^ cs.length), ← Nat.mul_assoc, Nat.mul_comm start]

theorem digitsValue_cons (c : Char) (cs : List Char) :
    digitsValue (c :: cs) = digitValue c * 10 ^ cs.length + digitsValue cs := by
  rw [digitsValue, List.foldl_cons, foldl_digits, Nat.mul_zero, Nat.zero_add]

theorem digitsValue_append (cs ds : List Char) :
    digitsValue (cs ++ ds) = digitsValue cs * 10 ^ ds.length + digitsValue ds := by
  rw [digitsValue, List.foldl_append, foldl_digits]
  rfl

theorem digitValue_lt {c : Char} (h : isDigit c = true) : digitValue c < 10 := by
  unfold isDigit at h
  simp only [Bool.and_eq_true, decide_eq_true_eq] at h
  have hle : ∀ a b : Char, a ≤ b ↔ a.toNat ≤ b.toNat := fun _ _ => Iff.rfl
  rw [hle, hle] at h
  have h0 : '0'.toNat = 48 := rfl
  have h9 : '9'.toNat = 57 := rfl
  unfold digitValue
  omega

theorem isBlank_of_isDigit {c : Char} (h : isDigit c = true) : Text.isBlank c = false := by
  refine Uid.isBlank_of_isLowerHexDigit ?_
  unfold isDigit at h
  rw [Text.isLowerHexDigit, h, Bool.true_or]

/-- A row of digits has a value below the power of ten of its length. -/
theorem digitsValue_lt {cs : List Char} (h : ∀ c ∈ cs, isDigit c = true) :
    digitsValue cs < 10 ^ cs.length := by
  induction cs with
  | nil => decide
  | cons c cs ih =>
    have hc := digitValue_lt (h c (by simp))
    have hcs := ih fun d hd => h d (by simp [hd])
    have hhead : digitValue c * 10 ^ cs.length ≤ 9 * 10 ^ cs.length :=
      Nat.mul_le_mul_right _ (by omega)
    rw [digitsValue_cons, List.length_cons, Nat.pow_succ]
    omega

theorem length_decimalPadded (k n : Nat) : (decimalPadded k n).length = k := by
  induction k generalizing n with
  | zero => rfl
  | succ k ih => rw [decimalPadded, List.length_append, ih, List.length_singleton]

theorem digitValue_ofNat {d : Nat} (h : d < 10) :
    digitValue (Char.ofNat ('0'.toNat + d)) = d := by
  have hall : ∀ d : Fin 10, digitValue (Char.ofNat ('0'.toNat + d)) = d := by decide
  exact hall ⟨d, h⟩

/-- The last digits of a number have its value up to a power of ten. -/
theorem digitsValue_decimalPadded (k n : Nat) : digitsValue (decimalPadded k n) = n % 10 ^ k := by
  induction k generalizing n with
  | zero => simp [decimalPadded, digitsValue, Nat.mod_one]
  | succ k ih =>
    have hlast : digitsValue [Char.ofNat ('0'.toNat + n % 10)] = n % 10 := by
      rw [digitsValue, List.foldl_cons, List.foldl_nil, Nat.mul_zero, Nat.zero_add,
        digitValue_ofNat (Nat.mod_lt n (by decide))]
    rw [decimalPadded, digitsValue_append, ih, hlast, List.length_singleton, Nat.pow_one,
      Nat.pow_succ, Nat.mul_comm (10 ^ k) 10, Nat.mod_mul]
    omega

/-- A number has no more digits than it is written with. -/
theorem lt_pow_decimalLength {fuel n : Nat} (h : n < 10 ^ (fuel + 1)) :
    n < 10 ^ decimalLength fuel n := by
  induction fuel generalizing n with
  | zero => simpa [decimalLength] using h
  | succ fuel ih =>
    unfold decimalLength
    split
    · omega
    · have hquotient : n / 10 < 10 ^ (fuel + 1) := by
        rw [Nat.pow_succ] at h
        omega
      have := ih hquotient
      rw [Nat.pow_succ]
      omega

theorem digitsValue_natChars (n : Nat) : digitsValue (natChars n) = n := by
  have hlog : n < 10 ^ (n.log2 + 1) :=
    Nat.lt_of_lt_of_le Nat.lt_log2_self (Nat.pow_le_pow_left (by decide) _)
  rw [natChars, digitsValue_decimalPadded, Nat.mod_eq_of_lt (lt_pow_decimalLength hlog)]

/-- A number is read back. -/
theorem readNat?_natChars (n : Nat) : readNat? (natChars n) = some n := by
  have hall : (natChars n).all isDigit = true :=
    List.all_eq_true.2 fun c hc => isDigit_of_mem_natChars hc
  have hne : (natChars n).isEmpty = false := List.isEmpty_eq_false_iff.2 (natChars_ne_nil n)
  rw [readNat?, hall, hne, digitsValue_natChars]
  rfl

theorem isDigit_of_readNat? {cs : List Char} {n : Nat} (h : readNat? cs = some n) {c : Char}
    (hc : c ∈ cs) : isDigit c = true := by
  unfold readNat? at h
  split at h
  · rename_i hdigits
    exact List.all_eq_true.1 (Bool.and_eq_true_iff.1 hdigits).2 c hc
  · cases h

/-- A numeral starts with no sign. -/
theorem ne_sign_of_readNat? {cs : List Char} {n : Nat} (h : readNat? cs = some n)
    (rest : List Char) : cs ≠ '-' :: rest ∧ cs ≠ '+' :: rest := by
  constructor
  · rintro rfl
    exact absurd (isDigit_of_readNat? h List.mem_cons_self) (by decide)
  · rintro rfl
    exact absurd (isDigit_of_readNat? h List.mem_cons_self) (by decide)

/-- An integer has nothing but digits and a sign. -/
theorem isDigit_or_sign_of_readInt? {lo hi n : Int} {cs : List Char}
    (h : readInt? lo hi cs = some n) {c : Char} (hc : c ∈ cs) :
    isDigit c = true ∨ c = '-' ∨ c = '+' := by
  obtain ⟨hvalue, -⟩ := Option.filter_eq_some_iff.1 h
  split at hvalue
  · obtain ⟨k, hk, -⟩ := Option.map_eq_some_iff.1 hvalue
    rcases List.mem_cons.1 hc with rfl | hc
    · exact .inr (.inl rfl)
    · exact .inl (isDigit_of_readNat? hk hc)
  · obtain ⟨k, hk, -⟩ := Option.map_eq_some_iff.1 hvalue
    rcases List.mem_cons.1 hc with rfl | hc
    · exact .inr (.inr rfl)
    · exact .inl (isDigit_of_readNat? hk hc)
  · obtain ⟨k, hk, -⟩ := Option.map_eq_some_iff.1 hvalue
    exact .inl (isDigit_of_readNat? hk hc)

theorem readInt?_of_readNat? {cs : List Char} {n : Nat} (h : readNat? cs = some n) (lo hi : Int) :
    readInt? lo hi cs = if lo ≤ n ∧ (n : Int) ≤ hi then some (n : Int) else none := by
  unfold readInt?
  split
  · exact absurd rfl (ne_sign_of_readNat? h _).1
  · exact absurd rfl (ne_sign_of_readNat? h _).2
  · rw [h]
    simp [Option.filter_some]

theorem readUnsigned?_of_readNat? {cs : List Char} {n : Nat} (h : readNat? cs = some n) (hi : Nat) :
    readUnsigned? hi cs = if n ≤ hi then some n else none := by
  unfold readUnsigned?
  split
  · exact absurd rfl (ne_sign_of_readNat? h _).2
  · rw [h]
    simp [Option.filter_some]

/-- An integer within bounds is read back. -/
theorem readInt?_intChars {lo hi n : Int} (hlo : lo ≤ n) (hhi : n ≤ hi) :
    readInt? lo hi (intChars n) = some n := by
  unfold intChars
  split
  · rename_i hneg
    have hbounds : (decide (lo ≤ n) && decide (n ≤ hi)) = true := by simp [hlo, hhi]
    have hvalue : -Int.ofNat n.natAbs = n := by
      rw [Int.ofNat_eq_natCast]
      omega
    simp only [readInt?, readNat?_natChars, Option.map_some]
    rw [hvalue, Option.filter_some, if_pos hbounds]
  · have hvalue : (n.natAbs : Int) = n := by omega
    rw [readInt?_of_readNat? (readNat?_natChars _), hvalue, if_pos ⟨hlo, hhi⟩]

theorem readInt64?_bounds {s : String} {n : Int} (h : readInt64? s = some n) :
    int64Min ≤ n ∧ n ≤ int64Max := by
  unfold readInt64? readInt? at h
  simpa using (Option.filter_eq_some_iff.1 h).2

/-- An integer of 64 bits is read back. -/
theorem readInt64?_intText {s : String} {n : Int} (h : readInt64? s = some n) :
    readInt64? (intText n) = some n := by
  obtain ⟨hlo, hhi⟩ := readInt64?_bounds h
  rw [readInt64?, intText, String.toList_ofList, readInt?_intChars hlo hhi]

end PressRegister.Number
