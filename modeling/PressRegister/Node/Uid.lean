import PressRegister.Text.Blank
import PressRegister.Text.Hex

/-!
# Identifiers of stored nodes

A stored node is known by a hexadecimal number. Its identifier is kept in lower
case, so two spellings of one number are one identifier; leading zeros count.

## Main definitions

* `Uid`: an identifier.
* `Uid.parse?`: reads an identifier, whatever the case of its digits.
* `Uid.ofNat`: the identifier with a number.

## Main results

* `Uid.parse?_text`: an identifier reads back as itself.
-/

namespace PressRegister

open Text

/-- Whether a text is a node identifier in lower case. -/
def isUidChars : List Char → Bool
  | '0' :: 'x' :: digits => !digits.isEmpty && digits.all isLowerHexDigit
  | _ => false

/-- The identifier of a stored node. -/
structure Uid where
  text : String
  isUid : isUidChars text.toList = true
  deriving DecidableEq, Repr

namespace Uid

theorem isLowerHexDigit_toLower {c : Char} (h : isHexDigit c = true) :
    isLowerHexDigit c.toLower = true := by
  have hall : ∀ n : Fin 128, isHexDigit (Char.ofNat n) = true →
      isLowerHexDigit (Char.ofNat n).toLower = true := by decide
  have hlt : c.toNat < 128 := by
    unfold isHexDigit isLowerHexDigit at h
    simp only [Bool.or_eq_true, Bool.and_eq_true, decide_eq_true_eq] at h
    have hc : ∀ d : Char, c ≤ d → c.toNat ≤ d.toNat := fun d hd => hd
    rcases h with (h | h) | h
    · have := hc _ h.2; have : '9'.toNat = 57 := rfl; omega
    · have := hc _ h.2; have : 'f'.toNat = 102 := rfl; omega
    · have := hc _ h.2; have : 'F'.toNat = 70 := rfl; omega
  have := hall ⟨c.toNat, hlt⟩
  simp only [Char.ofNat_toNat] at this
  exact this h

theorem isUidChars_lower {digits : List Char} (hne : digits.isEmpty = false)
    (h : digits.all isHexDigit = true) :
    isUidChars ('0' :: 'x' :: digits.map Char.toLower) = true := by
  simp only [isUidChars, List.isEmpty_map, hne, Bool.not_false, Bool.true_and, List.all_map]
  rw [List.all_eq_true] at h ⊢
  exact fun c hc => isLowerHexDigit_toLower (h c hc)

/-- Reads an identifier, with any blanks around it. -/
def parse? (s : String) : Option Uid :=
  match trimChars s.toList with
  | '0' :: 'x' :: digits =>
    if h : digits.isEmpty = false ∧ digits.all isHexDigit = true then
      some ⟨String.ofList ('0' :: 'x' :: digits.map Char.toLower), by
        rw [String.toList_ofList]
        exact isUidChars_lower h.1 h.2⟩
    else none
  | _ => none

/-- The identifier with a number. -/
def ofNat (n : Nat) : Uid where
  text := String.ofList ('0' :: 'x' :: hexChars n)
  isUid := by
    rw [String.toList_ofList]
    simp only [isUidChars, hexChars_all, Bool.and_true, Bool.not_eq_true']
    exact List.isEmpty_eq_false_iff.2 (hexChars_ne_nil n)

/-- Numbers with one identifier are one number. -/
theorem ofNat_injective {m n : Nat} (h : (ofNat m).text = (ofNat n).text) : m = n := by
  have hlist : ('0' :: 'x' :: hexChars m) = '0' :: 'x' :: hexChars n := String.ofList_injective h
  exact hexChars_injective (List.cons.inj (List.cons.inj hlist).2).2

/-- The identifier in a statement. -/
def chars (u : Uid) : List Char :=
  '<' :: u.text.toList ++ ['>']

/-! ### Reading identifiers back -/

theorem toLower_eq_self {c : Char} (h : isLowerHexDigit c = true) : c.toLower = c := by
  have hc : ¬ ('A' ≤ c ∧ c ≤ 'Z') := by
    unfold isLowerHexDigit at h
    simp only [Bool.or_eq_true, Bool.and_eq_true, decide_eq_true_eq] at h
    have hle : ∀ a b : Char, a ≤ b ↔ a.toNat ≤ b.toNat := fun _ _ => Iff.rfl
    simp only [hle] at h ⊢
    have h1 : '0'.toNat = 48 := rfl
    have h2 : '9'.toNat = 57 := rfl
    have h3 : 'a'.toNat = 97 := rfl
    have h4 : 'f'.toNat = 102 := rfl
    have h5 : 'A'.toNat = 65 := rfl
    have h6 : 'Z'.toNat = 90 := rfl
    omega
  unfold Char.toLower
  rw [dif_neg]
  exact fun h => hc ⟨h.1, h.2⟩

theorem isBlank_of_isLowerHexDigit {c : Char} (h : isLowerHexDigit c = true) :
    isBlank c = false := by
  unfold isLowerHexDigit at h
  simp only [Bool.or_eq_true, Bool.and_eq_true, decide_eq_true_eq] at h
  have hle : ∀ a b : Char, a ≤ b ↔ a.toNat ≤ b.toNat := fun _ _ => Iff.rfl
  simp only [hle] at h
  have h1 : '0'.toNat = 48 := rfl
  have h2 : '9'.toNat = 57 := rfl
  have h3 : 'a'.toNat = 97 := rfl
  have h4 : 'f'.toNat = 102 := rfl
  unfold isBlank
  simp only [Bool.or_eq_false_iff, Bool.and_eq_false_iff, decide_eq_false_iff_not,
    beq_eq_false_iff_ne]
  omega

theorem exists_digits (u : Uid) : ∃ digits, u.text.toList = '0' :: 'x' :: digits ∧
    digits.isEmpty = false ∧ digits.all isLowerHexDigit = true := by
  have h := u.isUid
  unfold isUidChars at h
  split at h
  · rename_i digits heq
    simp only [Bool.and_eq_true, Bool.not_eq_true'] at h
    exact ⟨digits, heq, h.1, h.2⟩
  · cases h

/-- An identifier reads back as itself. -/
theorem parse?_text (u : Uid) : parse? u.text = some u := by
  obtain ⟨digits, htext, hne, hall⟩ := exists_digits u
  have htrim : trimChars u.text.toList = u.text.toList := by
    refine trimChars_eq_self (fun c hc => ?_) (fun c hc => ?_)
    · rw [htext] at hc
      cases hc
      decide
    · rw [htext] at hc
      have hmem : c ∈ digits := by
        cases digits with
        | nil => simp at hne
        | cons d rest =>
          rw [List.getLast?_cons_cons, List.getLast?_cons_cons] at hc
          exact List.mem_of_getLast? hc
      exact isBlank_of_isLowerHexDigit (List.all_eq_true.1 hall c hmem)
  unfold parse?
  rw [htrim, htext]
  have hhex : digits.all isHexDigit = true := by
    rw [List.all_eq_true] at hall ⊢
    exact fun c hc => by simp [isHexDigit, hall c hc]
  have hlower : digits.map Char.toLower = digits := by
    rw [List.all_eq_true] at hall
    calc digits.map Char.toLower = digits.map id :=
          List.map_congr_left fun c hc => toLower_eq_self (hall c hc)
      _ = digits := List.map_id _
  simp only [hne, hhex, and_self, dite_true, Option.some.injEq]
  cases u with
  | mk text h =>
    simp only [mk.injEq]
    rw [hlower, ← htext]
    exact String.ofList_toList

end Uid

end PressRegister
