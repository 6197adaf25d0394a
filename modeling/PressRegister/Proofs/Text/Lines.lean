import PressRegister.Text.Lines

/-!
# Lines of composed texts

A text that is put together from lines has these lines, if none of them holds the end of a line
itself.

## Main definitions

* `IsLine`: a text holds no end of a line.
* `closedLines`: lines with a line feed behind each of them.

## Main results

* `lines_closedLines`, `lines_joinLines`: lines that are put together are found again.
-/

namespace PressRegister.Text

/-- What is said of all characters of a text is decided on its own characters, one by one. -/
instance decidableForallMem {P : Char → Prop} [DecidablePred P] (cs : List Char) :
    Decidable (∀ c ∈ cs, P c) :=
  List.decidableBAll P cs

/-- A text holds neither a line feed nor a carriage return. -/
def IsLine (cs : List Char) : Prop :=
  ∀ c ∈ cs, c ≠ '\n' ∧ c ≠ '\r'

instance : DecidablePred IsLine :=
  fun _ => inferInstanceAs (Decidable (∀ _ ∈ _, _))

namespace IsLine

@[simp]
theorem nil : IsLine [] := by simp [IsLine]

@[simp]
theorem append_iff {cs ds : List Char} : IsLine (cs ++ ds) ↔ IsLine cs ∧ IsLine ds :=
  List.forall_mem_append

@[simp]
theorem cons_iff {c : Char} {cs : List Char} :
    IsLine (c :: cs) ↔ (c ≠ '\n' ∧ c ≠ '\r') ∧ IsLine cs :=
  List.forall_mem_cons

theorem replicate_blank (n : Nat) : IsLine (List.replicate n ' ') := fun c hc => by
  rw [List.eq_of_mem_replicate hc]
  decide

theorem intercalate {sep : List Char} {items : List (List Char)} (hsep : IsLine sep)
    (h : ∀ item ∈ items, IsLine item) : IsLine (sep.intercalate items) := by
  induction items with
  | nil => simp
  | cons first rest ih =>
    obtain ⟨hfirst, hrest⟩ := List.forall_mem_cons.1 h
    cases rest with
    | nil => simpa using hfirst
    | cons second rest =>
      rw [List.intercalate_cons_cons]
      simp [hfirst, hsep, ih hrest]

theorem dropReturn {line : List Char} (h : IsLine line) : dropReturn line = line := by
  unfold Text.dropReturn
  rw [if_neg fun hlast => (h _ (List.mem_of_getLast? hlast)).2 rfl]

end IsLine

/-! ### Lines found again -/

/-- The current line goes on up to the next line feed. -/
theorem linesAfter_append {line : List Char} (h : IsLine line) (current rest : List Char) :
    linesAfter current (line ++ rest) = linesAfter (current ++ line) rest := by
  induction line generalizing current with
  | nil => simp
  | cons c line ih =>
    obtain ⟨⟨hc, -⟩, hline⟩ := IsLine.cons_iff.1 h
    rw [List.cons_append, linesAfter, if_neg hc, ih hline, List.append_assoc, List.singleton_append]

theorem lines_cons {line : List Char} (h : IsLine line) (rest : List Char) :
    lines (line ++ '\n' :: rest) = line :: lines rest := by
  rw [lines, linesAfter_append h, List.nil_append, linesAfter, if_pos rfl, h.dropReturn]
  rfl

/-- Lines with a line feed behind each of them. -/
def closedLines (ls : List (List Char)) : List Char :=
  ls.flatMap (· ++ ['\n'])

theorem closedLines_cons (line : List Char) (ls : List (List Char)) :
    closedLines (line :: ls) = line ++ '\n' :: closedLines ls := by
  simp [closedLines]

@[simp]
theorem closedLines_append (ls ms : List (List Char)) :
    closedLines (ls ++ ms) = closedLines ls ++ closedLines ms :=
  List.flatMap_append

theorem lines_closedLines {ls : List (List Char)} (h : ∀ l ∈ ls, IsLine l) :
    lines (closedLines ls) = ls := by
  induction ls with
  | nil => rfl
  | cons line ls ih =>
    obtain ⟨hline, hls⟩ := List.forall_mem_cons.1 h
    rw [closedLines_cons, lines_cons hline, ih hls]

theorem joinLines_cons_cons (line next : List Char) (ls : List (List Char)) :
    joinLines (line :: next :: ls) = line ++ '\n' :: joinLines (next :: ls) := by
  rw [joinLines, List.intercalate_cons_cons, List.append_assoc]
  rfl

theorem joinLines_append_newline {ls : List (List Char)} (h : ls ≠ []) :
    joinLines ls ++ ['\n'] = closedLines ls := by
  induction ls with
  | nil => exact (h rfl).elim
  | cons line ls ih =>
    cases ls with
    | nil => simp [joinLines, closedLines]
    | cons next ls =>
      rw [joinLines_cons_cons, List.append_assoc, List.cons_append, ih (by simp),
        closedLines_cons line]

/-- The last one of joined lines has no line feed behind it, so it must hold something. -/
theorem lines_joinLines {ls : List (List Char)} (h : ∀ l ∈ ls, IsLine l ∧ l ≠ []) :
    lines (joinLines ls) = ls := by
  induction ls with
  | nil => rfl
  | cons line ls ih =>
    obtain ⟨⟨hline, hne⟩, hls⟩ := List.forall_mem_cons.1 h
    cases ls with
    | nil =>
      have hlast := linesAfter_append hline [] []
      rw [List.append_nil, List.nil_append, linesAfter, if_neg (by simpa using hne)] at hlast
      simpa [joinLines, lines] using hlast
    | cons next ls => rw [joinLines_cons_cons, lines_cons hline, ih hls]

end PressRegister.Text
