import PressRegister.Number.Double.Text
import PressRegister.Operand
import PressRegister.Proofs.Schema.Names
import PressRegister.Proofs.Text.Masking

/-!
# Identifiers and numbers are words

Names of the registry, numbers, truth values and identifiers of nodes are written without
quotes. None of them holds a character that separates words.

## Main results

* `Text.isWord_of_isIdentifier`: identifiers are words.
* `Number.isWord_natText`, `Number.isWord_intText`, `Number.isWord_plainText`: so are numbers
  in decimal.
* `Uid.isWord_text`: and so are identifiers of nodes.
-/

namespace PressRegister

open Text

namespace Text

/-- A character of a sort that no separator is of is no separator. -/
theorem isSeparator_eq_false {P : Char → Prop} [DecidablePred P]
    (hall : separators.all (¬ P ·) = true) {c : Char} (h : P c) : isSeparator c = false := by
  unfold isSeparator
  rw [List.contains_eq_mem, decide_eq_false_iff_not]
  exact fun hmem => of_decide_eq_true (List.all_eq_true.1 hall c hmem) h

theorem isSeparator_of_isIdentifierChar {c : Char} (h : IsIdentifierChar c) :
    isSeparator c = false :=
  isSeparator_eq_false (by decide) h

/-- Identifiers are words. -/
theorem isWord_of_isIdentifier {s : String} (h : isIdentifier s = true) : IsWord s :=
  ⟨(isIdentifier_spec h).1, fun c hc =>
    isSeparator_of_isIdentifierChar ((isIdentifier_spec h).2 c hc)⟩

/-- Words run together are a word. -/
theorem IsWord.append {v w : String} (hv : IsWord v) (hw : IsWord w) : IsWord (v ++ w) := by
  refine ⟨by simp [hv.1], fun c hc => ?_⟩
  rw [String.toList_append, List.mem_append] at hc
  exact hc.elim (hv.2 c) (hw.2 c)

end Text

/-! ### Numbers -/

namespace Number

/-- The characters of numbers in decimal. -/
def IsDecimalChar (c : Char) : Prop :=
  isDigit c = true ∨ c = '-' ∨ c = '.'

instance : DecidablePred IsDecimalChar :=
  fun _ => inferInstanceAs (Decidable (_ ∨ _))

theorem isSeparator_of_isDecimalChar {c : Char} (h : IsDecimalChar c) : isSeparator c = false :=
  isSeparator_eq_false (by decide) h

theorem isDigit_of_mem_decimalPadded {k n : Nat} {c : Char} (h : c ∈ decimalPadded k n) :
    isDigit c = true := by
  induction k generalizing n with
  | zero => cases h
  | succ k ih =>
    rw [decimalPadded, List.mem_append, List.mem_singleton] at h
    rcases h with h | rfl
    · exact ih h
    · have hall : ∀ i : Fin 10, isDigit (Char.ofNat ('0'.toNat + i)) = true := by decide
      exact hall ⟨n % 10, Nat.mod_lt _ (by decide)⟩

theorem isDigit_of_mem_natChars {n : Nat} {c : Char} (h : c ∈ natChars n) : isDigit c = true :=
  isDigit_of_mem_decimalPadded h

theorem natChars_ne_nil (n : Nat) : natChars n ≠ [] := by
  have hpos : ∃ k, decimalLength n.log2 n = k + 1 := by
    cases n.log2 with
    | zero => exact ⟨0, rfl⟩
    | succ fuel =>
      unfold decimalLength
      split
      · exact ⟨0, rfl⟩
      · exact ⟨_, rfl⟩
  obtain ⟨k, hk⟩ := hpos
  simp [natChars, hk, decimalPadded]

theorem isWord_ofList {cs : List Char} (hne : cs ≠ []) (h : ∀ c ∈ cs, IsDecimalChar c) :
    IsWord (String.ofList cs) := by
  refine ⟨by simpa using hne, fun c hc => isSeparator_of_isDecimalChar (h c ?_)⟩
  simpa using hc

theorem isWord_natText (n : Nat) : IsWord (natText n) :=
  isWord_ofList (natChars_ne_nil n) fun _ hc => .inl (isDigit_of_mem_natChars hc)

theorem isDecimalChar_of_mem_intChars {n : Int} {c : Char} (h : c ∈ intChars n) :
    IsDecimalChar c := by
  unfold intChars at h
  split at h
  · rcases List.mem_cons.1 h with h | h
    · exact .inr (.inl h)
    · exact .inl (isDigit_of_mem_natChars h)
  · exact .inl (isDigit_of_mem_natChars h)

theorem isWord_intText (n : Int) : IsWord (intText n) := by
  refine isWord_ofList ?_ fun c hc => isDecimalChar_of_mem_intChars hc
  unfold intChars
  split
  · simp
  · exact natChars_ne_nil n.natAbs

theorem isDecimalChar_of_mem_withPoint {digits : List Char}
    (h : ∀ c ∈ digits, isDigit c = true) (point : Int) :
    ∀ c ∈ withPoint .plain digits point, IsDecimalChar c := by
  have hzero {k : Nat} {c : Char} (hc : c ∈ List.replicate k '0') : isDigit c = true := by
    rw [List.eq_of_mem_replicate hc]
    decide
  intro c hc
  unfold withPoint at hc
  split at hc
  · simp only [List.mem_append, List.mem_cons, List.not_mem_nil, or_false] at hc
    rcases hc with ((rfl | rfl) | hc) | hc
    · exact .inl (by decide)
    · exact .inr (.inr rfl)
    · exact .inl (hzero hc)
    · exact .inl (h c hc)
  · split at hc
    · simp only [Layout.plain, List.append_nil, List.mem_append] at hc
      exact .inl (hc.elim (h c) hzero)
    · simp only [List.mem_append, List.mem_cons] at hc
      rcases hc with hc | rfl | hc
      · exact .inl (h c (List.mem_of_mem_take hc))
      · exact .inr (.inr rfl)
      · exact .inl (h c (List.mem_of_mem_drop hc))

theorem withPoint_ne_nil {digits : List Char} (h : digits ≠ []) (point : Int) :
    withPoint .plain digits point ≠ [] := by
  unfold withPoint
  split
  · simp
  · split
    · simp [h]
    · simp

/-- A magnitude in the plain layout is never empty, and digits and a point are all it holds. -/
theorem magnitude_plain_spec (a : Nat) : Layout.plain.magnitude a ≠ [] ∧
    ∀ c ∈ Layout.plain.magnitude a, IsDecimalChar c := by
  unfold Layout.magnitude
  split
  · refine ⟨by simp, fun c hc => .inl ?_⟩
    obtain rfl : c = '0' := by simpa [Layout.plain] using hc
    decide
  · exact ⟨withPoint_ne_nil (natChars_ne_nil _) _,
      isDecimalChar_of_mem_withPoint (fun c hc => isDigit_of_mem_natChars hc) _⟩

theorem isDecimalChar_of_mem_chars {d : Double} (h : d.isFinite = true) {c : Char}
    (hc : c ∈ d.chars .plain) : IsDecimalChar c := by
  cases d with
  | finite s a =>
    rcases List.mem_append.1 hc with hc | hc
    · split at hc
      · exact .inr (.inl (List.mem_singleton.1 hc))
      · cases hc
    · exact (magnitude_plain_spec a).2 c hc
  | infinite s => cases h
  | nan => cases h

/-- A finite double in the plain layout is a word. -/
theorem isWord_plainText {d : Double} (h : d.isFinite = true) : IsWord d.plainText := by
  refine isWord_ofList ?_ fun c hc => isDecimalChar_of_mem_chars h hc
  cases d with
  | finite s a => simp [Double.chars, (magnitude_plain_spec a).1]
  | infinite s => cases h
  | nan => cases h

end Number

theorem isWord_boolText (b : Bool) : IsWord (Scalar.boolText b) := by
  cases b <;> decide

/-- The identifier of a node is a word. -/
theorem Uid.isWord_text (u : Uid) : IsWord u.text := by
  obtain ⟨digits, htext, -, hall⟩ := u.exists_digits
  refine ⟨by simp [htext], fun c hc => ?_⟩
  rw [htext, List.mem_cons, List.mem_cons] at hc
  rcases hc with rfl | rfl | hc
  · decide
  · decide
  · exact isSeparator_eq_false (P := (isLowerHexDigit · = true)) (by decide)
      (List.all_eq_true.1 hall c hc)

end PressRegister
