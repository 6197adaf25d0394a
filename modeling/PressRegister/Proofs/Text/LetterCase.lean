import Mathlib.Data.List.Basic
import PressRegister.Proofs.Text.Slug

/-!
# Lower case

The runs of the case table move letters to where no run begins: an image lies in a gap between the
runs, or between the letters of a run that skips every other one. So lower case leaves alone what
is in lower case, and no letter becomes a blank.

## Main definitions

* `Text.Run.Has`: the code points that a run moves.
* `Text.Run.avoids`: a test that no image under one run is moved by another one.
* `Text.IsLowered`: a character that lower case leaves alone.

## Main results

* `Text.isLowered_of_mem_lowerLetter`: lower-case forms are such characters.
* `Text.lower_lower`: lower case twice.
* `Text.trim_lower`: lower case keeps the ends of a text free of blanks.
-/

namespace PressRegister.Text

open LetterCase

/-! ### The runs of the case table -/

/-- A run `(first, last, step, shift)` of the case table. -/
abbrev Run := Nat × Nat × Nat × Int

namespace Run

/-- A code point is one of those that a run moves. -/
def Has (r : Run) (n : Nat) : Prop :=
  r.1 ≤ n ∧ n ≤ r.2.1 ∧ (n - r.1) % r.2.2.1 = 0

/-- Where a run moves a code point. -/
def image (r : Run) (n : Nat) : Nat :=
  (Int.ofNat n + r.2.2.2).toNat

/-- The images under the run `r` lie beside the run `s`, or between its letters. -/
def avoids (r s : Run) : Bool :=
  Nat.blt (r.image r.2.1) s.1 || Nat.blt s.2.1 (r.image r.1) ||
    (s.2.2.1 == 2 && (r.2.2.1 == 2 || r.1 == r.2.1) && (r.image r.1 + s.1) % 2 == 1)

theorem not_has_image {r s : Run} {n : Nat} (hshift : 0 ≤ Int.ofNat r.1 + r.2.2.2)
    (h : r.avoids s = true) (hn : r.Has n) : ¬ s.Has (r.image n) := by
  obtain ⟨hfirst, hlast, hstep⟩ := hn
  have hblt (a b : Nat) : Nat.blt a b = true ↔ a < b := by
    rw [Nat.blt_eq]
  simp only [avoids, Bool.or_eq_true, Bool.and_eq_true, hblt, beq_iff_eq] at h
  rintro ⟨hlow, hhigh, hskip⟩
  simp only [image, Int.ofNat_eq_natCast] at h hlow hhigh hskip hshift
  rcases h with (h | h) | ⟨⟨hs, hr⟩, hparity⟩
  · omega
  · omega
  · rw [hs] at hskip
    rcases hr with hr | hr
    · rw [hr] at hstep
      omega
    · omega

end Run

/-- Code points that lower case does not lead to: blanks, capitals with rules of their own, and
what is no character. -/
def reservedRuns : List Run :=
  [(9, 13, 1, 0), (0x20, 0x20, 1, 0), (0x41, 0x5A, 1, 0), (0x85, 0x85, 1, 0), (0xA0, 0xA0, 1, 0),
   (0x130, 0x130, 1, 0), (0x3A3, 0x3A3, 1, 0), (0x1680, 0x1680, 1, 0), (0x2000, 0x200A, 1, 0),
   (0x2028, 0x2029, 1, 0), (0x202F, 0x202F, 1, 0), (0x205F, 0x205F, 1, 0), (0x3000, 0x3000, 1, 0),
   (0xD800, 0xDFFF, 1, 0)]

theorem lowerRuns_avoid : (lowerRuns.all fun r : Run =>
    decide (0 ≤ Int.ofNat r.1 + r.2.2.2) && Nat.blt (Run.image r r.2.1) 0x110000 &&
      (reservedRuns ++ lowerRuns).all (Run.avoids r)) = true := by
  decide +kernel

/-- The image of a code point under a run is neither moved nor reserved. -/
theorem image_outside {r : Run} (hr : r ∈ lowerRuns) {n : Nat} (hn : r.Has n) :
    r.image n < 0x110000 ∧ ∀ s ∈ reservedRuns ++ lowerRuns, ¬ s.Has (r.image n) := by
  have havoid := List.all_eq_true.1 lowerRuns_avoid r hr
  simp only [Bool.and_eq_true, decide_eq_true_eq, Nat.blt_eq, List.all_eq_true] at havoid
  obtain ⟨⟨hshift, hvalid⟩, havoid⟩ := havoid
  refine ⟨?_, fun s hs => Run.not_has_image hshift (havoid s hs) hn⟩
  obtain ⟨-, hlast, -⟩ := hn
  unfold Run.image at hvalid ⊢
  simp only [Int.ofNat_eq_natCast] at hvalid ⊢
  omega

/-! ### Letters -/

/-- A character that lower case leaves alone, wherever it stands. -/
def IsLowered (c : Char) : Prop :=
  lowerLetter c = [c] ∧ c ≠ 'Σ'

/-- A character is moved by the run that has it, or by none. -/
theorem shiftByRun_cases (runs : List Run) (c : Char) :
    (∃ r ∈ runs, r.Has c.toNat ∧ shiftByRun runs c = Char.ofNat (r.image c.toNat)) ∨
      (∀ r ∈ runs, ¬ r.Has c.toNat) ∧ shiftByRun runs c = c := by
  unfold shiftByRun
  split
  · rename_i r hr
    have hhas := List.find?_some hr
    simp only [Bool.and_eq_true, decide_eq_true_eq, beq_iff_eq] at hhas
    exact .inl ⟨r, List.mem_of_find?_eq_some hr, ⟨hhas.1.1, hhas.1.2, hhas.2⟩, rfl⟩
  · rename_i hnone
    refine .inr ⟨fun r hr hhas => ?_, rfl⟩
    have := List.find?_eq_none.1 hnone r hr
    simp only [Bool.and_eq_true, decide_eq_true_eq, beq_iff_eq] at this
    exact this ⟨⟨hhas.1, hhas.2.1⟩, hhas.2.2⟩

/-- A character whose code point is neither moved nor reserved is left alone, and is no blank. -/
theorem isLowered_of_outside {n : Nat} (hn : n < 0x110000)
    (h : ∀ s ∈ reservedRuns ++ lowerRuns, ¬ s.Has n) :
    IsLowered (Char.ofNat n) ∧ isBlank (Char.ofNat n) = false := by
  have hreserved : ∀ first last, (first, last, 1, 0) ∈ reservedRuns → ¬ (first ≤ n ∧ n ≤ last) := by
    intro first last hmem hwithin
    exact h _ (List.mem_append_left _ hmem) ⟨hwithin.1, hwithin.2, Nat.mod_one _⟩
  have hnat : (Char.ofNat n).toNat = n := by
    have hsurrogate := hreserved 0xD800 0xDFFF (by decide)
    have hvalid : n.isValidChar := by
      unfold Nat.isValidChar
      omega
    rw [show Char.ofNat n = Char.ofNatAux n hvalid from dif_pos hvalid]
    exact UInt32.toNat_ofNatLT
  have hblank : isBlank (Char.ofNat n) = false := by
    have h₁ := hreserved 9 13 (by decide)
    have h₂ := hreserved 0x20 0x20 (by decide)
    have h₃ := hreserved 0x85 0x85 (by decide)
    have h₄ := hreserved 0xA0 0xA0 (by decide)
    have h₅ := hreserved 0x1680 0x1680 (by decide)
    have h₆ := hreserved 0x2000 0x200A (by decide)
    have h₇ := hreserved 0x2028 0x2029 (by decide)
    have h₈ := hreserved 0x202F 0x202F (by decide)
    have h₉ := hreserved 0x205F 0x205F (by decide)
    have h₁₀ := hreserved 0x3000 0x3000 (by decide)
    unfold isBlank
    simp only [hnat, Bool.or_eq_false_iff, Bool.and_eq_false_iff, decide_eq_false_iff_not,
      beq_eq_false_iff_ne]
    omega
  refine ⟨⟨?_, fun heq => ?_⟩, hblank⟩
  · unfold lowerLetter
    rw [hnat]
    split
    · rename_i hascii
      have hcapital := hreserved 0x41 0x5A (by decide)
      have hall : ∀ n : Fin 128, ¬ (0x41 ≤ n.val ∧ n.val ≤ 0x5A) →
          (Char.ofNat n).toLower = Char.ofNat n := by decide
      rw [hall ⟨n, hascii⟩ hcapital]
    · have hdotted := hreserved 0x130 0x130 (by decide)
      have hrule : (n == 0x130) = false := beq_eq_false_iff_ne.2 (by omega)
      rw [hrule]
      rcases shiftByRun_cases lowerRuns (Char.ofNat n) with ⟨r, hr, hhas, -⟩ | ⟨-, hsame⟩
      · rw [hnat] at hhas
        exact absurd hhas (h r (List.mem_append_right _ hr))
      · rw [hsame]
        rfl
  · have hsigma := hreserved 0x3A3 0x3A3 (by decide)
    have hsame : n = 0x3A3 := by rw [← hnat, heq]; rfl
    omega

/-- A letter in lower case is left alone, and it is a blank only if the letter was one. -/
theorem isLowered_of_mem_lowerLetter {c d : Char} (hc : c ≠ 'Σ') (hd : d ∈ lowerLetter c) :
    IsLowered d ∧ (isBlank c = false → isBlank d = false) := by
  unfold lowerLetter at hd
  split at hd
  · rename_i hascii
    obtain rfl := List.mem_singleton.1 hd
    refine forall_ascii (P := fun c => (lowerLetter c.toLower = [c.toLower] ∧ c.toLower ≠ 'Σ') ∧
      (isBlank c = false → isBlank c.toLower = false)) ?_ hascii
    decide
  split at hd
  · rcases List.mem_cons.1 hd with rfl | hd
    · exact ⟨⟨by decide, by decide⟩, fun _ => by decide⟩
    · obtain rfl := List.mem_singleton.1 hd
      exact ⟨⟨by decide +kernel, by decide⟩, fun _ => by decide⟩
  · rename_i hascii hdotted
    obtain rfl := List.mem_singleton.1 hd
    rcases shiftByRun_cases lowerRuns c with ⟨r, hr, hhas, himage⟩ | ⟨-, hsame⟩
    · obtain ⟨hvalid, houtside⟩ := image_outside hr hhas
      rw [himage]
      obtain ⟨hlowered, hblank⟩ := isLowered_of_outside hvalid houtside
      exact ⟨hlowered, fun _ => hblank⟩
    · rw [hsame]
      refine ⟨⟨?_, hc⟩, id⟩
      rw [lowerLetter, if_neg hascii, if_neg hdotted, hsame]

/-! ### Texts -/

/-- Lower case takes a text letter by letter, and leaves something of each. -/
theorem exists_lowerAfter (before : List Char) (c : Char) (cs : List Char) :
    ∃ piece, piece ≠ [] ∧ lowerAfter before (c :: cs) = piece ++ lowerAfter (c :: before) cs ∧
      ∀ d ∈ piece, IsLowered d ∧ (isBlank c = false → isBlank d = false) := by
  refine ⟨_, ?_, rfl, fun d hd => ?_⟩
  · split
    · exact List.cons_ne_nil _ _
    · unfold lowerLetter
      split
      · exact List.cons_ne_nil _ _
      · split <;> exact List.cons_ne_nil _ _
  · split at hd
    · -- both forms of a small sigma are left alone
      have hsigma : (lowerLetter 'ς' = ['ς'] ∧ lowerLetter 'σ' = ['σ']) ∧
          (isBlank 'ς' = false ∧ isBlank 'σ' = false) := by decide +kernel
      obtain rfl := List.mem_singleton.1 hd
      split
      · exact ⟨⟨hsigma.1.1, by decide⟩, fun _ => hsigma.2.1⟩
      · exact ⟨⟨hsigma.1.2, by decide⟩, fun _ => hsigma.2.2⟩
    · rename_i hsigma
      exact isLowered_of_mem_lowerLetter (by simpa using hsigma) hd

theorem isLowered_of_mem_lowerAfter {before cs : List Char} {d : Char}
    (hd : d ∈ lowerAfter before cs) : IsLowered d := by
  induction cs generalizing before with
  | nil => cases hd
  | cons c cs ih =>
    obtain ⟨piece, -, happend, hpiece⟩ := exists_lowerAfter before c cs
    rw [happend] at hd
    rcases List.mem_append.1 hd with hd | hd
    · exact (hpiece d hd).1
    · exact ih hd

theorem lowerAfter_of_isLowered {before cs : List Char} (h : ∀ c ∈ cs, IsLowered c) :
    lowerAfter before cs = cs := by
  induction cs generalizing before with
  | nil => rfl
  | cons c cs ih =>
    obtain ⟨⟨hletter, hsigma⟩, hcs⟩ := List.forall_mem_cons.1 h
    rw [lowerAfter, ih hcs, if_neg (by simpa using hsigma), hletter]
    rfl

/-- Lower case twice is lower case once. -/
theorem lower_lower (s : String) : lower (lower s) = lower s := by
  rw [lower, lower, String.toList_ofList,
    lowerAfter_of_isLowered fun c hc => isLowered_of_mem_lowerAfter hc]

theorem lowerAfter_ne_nil {before cs : List Char} (h : cs ≠ []) : lowerAfter before cs ≠ [] := by
  obtain ⟨c, cs, rfl⟩ := List.exists_cons_of_ne_nil h
  obtain ⟨piece, hne, happend, -⟩ := exists_lowerAfter before c cs
  rw [happend]
  exact List.append_ne_nil_of_left_ne_nil hne _

theorem isBlank_head?_lowerAfter {before cs : List Char}
    (h : ∀ c, cs.head? = some c → isBlank c = false) {d : Char}
    (hd : (lowerAfter before cs).head? = some d) : isBlank d = false := by
  cases cs with
  | nil => cases hd
  | cons c cs =>
    obtain ⟨piece, hne, happend, hpiece⟩ := exists_lowerAfter before c cs
    rw [happend, List.head?_append_of_ne_nil _ hne] at hd
    exact (hpiece d (List.mem_of_head? hd)).2 (h c rfl)

theorem isBlank_getLast?_lowerAfter {before cs : List Char}
    (h : ∀ c, cs.getLast? = some c → isBlank c = false) {d : Char}
    (hd : (lowerAfter before cs).getLast? = some d) : isBlank d = false := by
  induction cs generalizing before with
  | nil => cases hd
  | cons c cs ih =>
    obtain ⟨piece, -, happend, hpiece⟩ := exists_lowerAfter before c cs
    rw [happend] at hd
    cases cs with
    | nil =>
      rw [lowerAfter, List.append_nil] at hd
      exact (hpiece d (List.mem_of_getLast? hd)).2 (h c rfl)
    | cons e es =>
      rw [List.getLast?_append_of_ne_nil _ (lowerAfter_ne_nil (List.cons_ne_nil e es))] at hd
      refine ih (fun c' hc' => h c' ?_) hd
      rw [List.getLast?_cons_cons]
      exact hc'

/-- Lower case keeps the ends of a text free of blanks. -/
theorem trim_lower {s : String} (h : trim s = s) : trim (lower s) = lower s := by
  have hchars : trimChars s.toList = s.toList := by
    have := congrArg String.toList h
    rwa [trim, String.toList_ofList] at this
  rw [trim, lower, String.toList_ofList, trimChars_eq_self]
  · refine fun d => isBlank_head?_lowerAfter fun c hc => ?_
    rw [← hchars] at hc
    exact head?_trimChars hc
  · refine fun d => isBlank_getLast?_lowerAfter fun c hc => ?_
    rw [← hchars] at hc
    exact getLast?_trimChars hc

end PressRegister.Text
