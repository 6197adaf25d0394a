import Mathlib.Data.List.Basic
import PressRegister.Mutation
import PressRegister.Proofs.Statement.Unambiguous

/-!
# The text of a mutation carries its statements

The text of a mutation is put together from lines, and lines are moved to the right and back. As
no statement holds the end of a line, every statement is found on a line of its own, whatever is
written in its literals. No statement and no block of a prelude looks like a line that opens or
closes a section, so a reader who looks for these lines finds the statements again.

## Main definitions

* `Mutation.IsLegible`: the names in a mutation are made of the characters of identifiers.
* `Mutation.sectionsOf`: the sections that a reader finds among lines.
* `Mutation.IsLossless`: the text of a mutation carries its statements.

## Main results

* `Mutation.lines_bodyChars`: the lines of the text of a mutation.
* `Mutation.sectionsOf_lines`: the sections in the text are those of the statements.
* `Mutation.IsLegible.isLossless`: the text of a legible mutation carries its statements.
-/

namespace PressRegister

open Text

/-! ### Lines and blanks at their starts -/

namespace Text

theorem trimStart_eq_self {cs : List Char} {c : Char} (h : cs.head? = some c)
    (hc : isBlank c = false) : trimStart cs = cs :=
  dropWhile_eq_self fun d hd => by
    rw [h] at hd
    rwa [← Option.some.inj hd]

theorem trimStart_blanks (n : Nat) (cs : List Char) :
    trimStart (List.replicate n ' ' ++ cs) = trimStart cs := by
  induction n with
  | zero => rfl
  | succ n ih => exact ih

end Text

/-! ### Blocks of a prelude -/

namespace Filter

theorem isLine_callChars {name : String} {args : List (List Char)} (hname : IsLine name.toList)
    (hargs : ∀ cs ∈ args, IsLine cs) : IsLine (callChars name args) := by
  have hjoined : IsLine ([',', ' '].intercalate args) := .intercalate (by decide) hargs
  simp [callChars, hname, hjoined]

theorem isLine_groupChars {word : String} {parts : List (List Char)} (hword : IsLine word.toList)
    (hparts : ∀ cs ∈ parts, IsLine cs) : IsLine (groupChars word parts) := by
  match parts with
  | [] => exact .nil
  | [part] => exact hparts part List.mem_cons_self
  | first :: second :: others =>
    have hjoined : IsLine (word.toList.intercalate (first :: second :: others)) :=
      .intercalate hword hparts
    exact IsLine.append_iff.2 ⟨IsLine.cons_iff.2 ⟨by decide, hjoined⟩, by decide⟩

variable {fs : List Filter} {f : Filter}

theorem isLine_allOf? (hf : allOf? fs = some f) (h : ∀ g ∈ fs, IsLine g.chars) :
    IsLine f.chars := by
  match fs with
  | [] => cases hf
  | [g] =>
    cases hf
    exact h _ List.mem_cons_self
  | first :: second :: others =>
    cases hf
    rw [chars, partChars_eq_map]
    exact isLine_groupChars (by decide) (List.forall_mem_map.2 h)

theorem isLine_anyOf? (hf : anyOf? fs = some f) (h : ∀ g ∈ fs, IsLine g.chars) :
    IsLine f.chars := by
  match fs with
  | [] => cases hf
  | [g] =>
    cases hf
    exact h _ List.mem_cons_self
  | first :: second :: others =>
    cases hf
    rw [chars, partChars_eq_map]
    exact isLine_groupChars (by decide) (List.forall_mem_map.2 h)

end Filter

namespace Block

/-- The line of a block that lists nothing, below the word that opens a prelude. -/
def line (b : Block) : List Char :=
  Selection.indent 2 ++ b.name.toList ++ (if b.bindsVar then " as var(" else "(").toList ++
    b.headChars ++ ')' :: b.directiveChars

theorem chars_eq_line {b : Block} (h : b.body = []) : b.chars 2 = b.line ++ ['\n'] := by
  rw [chars, h]
  rfl

theorem line_of_bindsVar {b : Block} (h : b.bindsVar = true) :
    b.line = Selection.indent 2 ++ b.name.toList ++ " as var(".toList ++ b.headChars ++
      ')' :: b.directiveChars := by
  rw [line, if_pos h]

end Block

namespace Mutation

/-- A block binds the owners of an edge under a name that starts with the mark of a clearing. -/
inductive BindsOwners : Block → Prop
  | intro {mark name edge : String} (hmark : mark = "rev_" ∨ mark = "mut_") (hname : IsName name)
      (hedge : IsName edge) (u : Uid) (owners : List String) :
      BindsOwners (ownersBlock (mark ++ name) edge u owners)

namespace BindsOwners

variable {b : Block}

theorem body_eq (h : BindsOwners b) : b.body = [] := by
  cases h
  rfl

/-- The owners of an edge are bound on one line. -/
theorem isLine (h : BindsOwners b) : IsLine b.line := by
  obtain @⟨mark, name, edge, hmark, hname, hedge, u, owners⟩ := h
  have hmark : IsLine mark.toList := by rcases hmark with rfl | rfl <;> decide
  have htypes : ∀ f ∈ (Filter.anyOf? (owners.map .ofType)).toList, IsLine f.chars := by
    intro f hf
    refine Filter.isLine_anyOf? (Option.mem_toList.1 hf) fun g hg => ?_
    obtain ⟨owner, -, rfl⟩ := List.mem_map.1 hg
    rw [Filter.chars]
    exact Filter.isLine_callChars (by decide) (by simp [isLine_quoteChars])
  have hedges : IsLine (Filter.compare .uidIn edge (.uid u)).chars := by
    rw [Filter.chars]
    exact Filter.isLine_callChars (by decide)
      (by simp [hedge.isLine, Arg.chars, u.isName_text.isLine])
  have hhas : IsLine (Filter.has edge).chars := by
    rw [Filter.chars]
    exact Filter.isLine_callChars (by decide) (by simp [hedge.isLine])
  have hfilter : ∀ f, (ownersBlock (mark ++ name) edge u owners).filter = some f →
      IsLine f.chars := fun f hf => by
    simp only [ownersBlock, Block.binding] at hf
    exact Filter.isLine_allOf? hf (List.forall_mem_cons.2 ⟨hedges, htypes⟩)
  have hdirective : IsLine (ownersBlock (mark ++ name) edge u owners).directiveChars := by
    unfold Block.directiveChars
    split
    · rename_i f hf
      simp [hfilter f hf, ownersBlock, Block.binding]
    · simp [ownersBlock, Block.binding]
  have hhead : IsLine (ownersBlock (mark ++ name) edge u owners).headChars := by
    unfold Block.headChars ownersBlock Block.binding
    rw [List.append_nil, List.append_nil, List.append_nil]
    exact IsLine.append_iff.2 ⟨by decide, hhas⟩
  have hopening : IsLine (Selection.indent 2 ++ (mark ++ name).toList ++ " as var(".toList) := by
    simp [Selection.indent, hmark, hname.isLine]
  rw [Block.line_of_bindsVar rfl]
  exact IsLine.append_iff.2 ⟨IsLine.append_iff.2 ⟨hopening, hhead⟩,
    IsLine.cons_iff.2 ⟨by decide, hdirective⟩⟩

/-- The name of a block does not start as a section does. -/
theorem startsWith_line (h : BindsOwners b) : StartsWith ['r', 'm'] (trimStart b.line) := by
  obtain @⟨mark, name, edge, hmark, hname, hedge, u, owners⟩ := h
  have hname : (ownersBlock (mark ++ name) edge u owners).name.toList =
      mark.toList ++ name.toList := String.toList_append
  rw [Block.line_of_bindsVar rfl, hname, Selection.indent]
  simp only [List.append_assoc]
  rw [trimStart_blanks]
  rcases hmark with rfl | rfl
  · exact ⟨'r', by simp, _, trimStart_eq_self rfl (by decide)⟩
  · exact ⟨'m', by simp, _, trimStart_eq_self rfl (by decide)⟩

end BindsOwners

/-! ### The lines of the text -/

/-- The lines of a section of statements; none if there are no statements. -/
def sectionLines (name : String) (statements : List Statement) : List (List Char) :=
  if statements.isEmpty then []
  else ("    ".toList ++ name.toList ++ " \x7b".toList) ::
    statements.map (fun t => List.replicate 6 ' ' ++ t.chars) ++ ["    \x7d".toList]

/-- The lines of both sections. -/
def operationLines (m : Mutation) : List (List Char) :=
  sectionLines "delete" m.delete ++ sectionLines "set" m.set

/-- The lines of the text of a mutation. -/
def bodyLines (m : Mutation) : List (List Char) :=
  if m.prelude.isEmpty then ["\x7b".toList] ++ m.operationLines.map outdent ++ ["\x7d".toList]
  else ["upsert \x7b".toList, "  query \x7b".toList] ++ m.prelude.map Block.line ++
    ["  \x7d".toList, "  mutation \x7b".toList] ++ m.operationLines ++
    ["  \x7d".toList, "\x7d".toList]

/-- A mutation whose statements are legible, and whose blocks bind owners. -/
structure IsLegible (m : Mutation) : Prop where
  statements : ∀ t ∈ m.delete ++ m.set, t.IsLegible
  prelude : ∀ b ∈ m.prelude, BindsOwners b

theorem sectionChars_eq (name : String) {statements : List Statement}
    (h : ∀ t ∈ statements, t.IsLegible) :
    sectionChars name (statementLines? statements) =
      closedLines (sectionLines name statements) := by
  unfold statementLines? sectionLines
  split
  · rfl
  · rename_i hne
    have hlines : ∀ l ∈ statements.map Statement.chars, IsLine l ∧ l ≠ [] := fun l hl => by
      obtain ⟨t, ht, rfl⟩ := List.mem_map.1 hl
      obtain ⟨c, -, tail, hchars⟩ := t.startsWith_chars
      exact ⟨(h t ht).isLine, by simp [hchars]⟩
    have hsome : statements.map (fun t => List.replicate 6 ' ' ++ t.chars) ≠ [] := by
      simpa using hne
    have hindented : indented 6 (joinLines (statements.map Statement.chars)) ++ ['\n'] =
        closedLines (statements.map fun t => List.replicate 6 ' ' ++ t.chars) := by
      rw [indented, lines_joinLines hlines, List.map_map]
      exact joinLines_append_newline hsome
    calc sectionChars name (some (joinLines (statements.map Statement.chars)))
      _ = "    ".toList ++ name.toList ++ (" \x7b".toList ++ ['\n']) ++
          indented 6 (joinLines (statements.map Statement.chars)) ++
          ('\n' :: closedLines ["    \x7d".toList]) := rfl
      _ = "    ".toList ++ name.toList ++ " \x7b".toList ++ '\n' ::
          (indented 6 (joinLines (statements.map Statement.chars)) ++ ['\n']) ++
          closedLines ["    \x7d".toList] := by
        simp only [List.append_assoc, List.cons_append, List.nil_append]
      _ = closedLines (("    ".toList ++ name.toList ++ " \x7b".toList) ::
          statements.map (fun t => List.replicate 6 ' ' ++ t.chars) ++ ["    \x7d".toList]) := by
        rw [hindented, closedLines_append, closedLines_cons ("    ".toList ++ _ ++ _)]

theorem operationChars_eq {m : Mutation} (h : m.IsLegible) :
    m.operationChars = closedLines m.operationLines := by
  have hdelete := sectionChars_eq "delete" fun t ht =>
    h.statements t (List.mem_append_left m.set ht)
  have hset := sectionChars_eq "set" fun t ht =>
    h.statements t (List.mem_append_right m.delete ht)
  rw [operationChars, hdelete, hset, operationLines, closedLines_append]

theorem isLine_of_mem_operationLines {m : Mutation} (h : m.IsLegible) :
    ∀ l ∈ m.operationLines, IsLine l := by
  have hsection : ∀ {name : String} {statements : List Statement}, IsLine name.toList →
      (∀ t ∈ statements, t.IsLegible) → ∀ l ∈ sectionLines name statements, IsLine l := by
    intro name statements hname hstatements l hl
    unfold sectionLines at hl
    split at hl
    · cases hl
    · rcases List.mem_append.1 hl with hl | hl
      · rcases List.mem_cons.1 hl with rfl | hl
        · simp [hname]
        · obtain ⟨t, ht, rfl⟩ := List.mem_map.1 hl
          exact IsLine.append_iff.2 ⟨IsLine.replicate_blank 6, (hstatements t ht).isLine⟩
      · rw [List.mem_singleton.1 hl]
        decide
  intro l hl
  rcases List.mem_append.1 hl with hl | hl
  · exact hsection (by decide) (fun t ht => h.statements t (List.mem_append_left _ ht)) l hl
  · exact hsection (by decide) (fun t ht => h.statements t (List.mem_append_right _ ht)) l hl

theorem isLine_outdent {l : List Char} (h : IsLine l) : IsLine (outdent l) := by
  unfold outdent
  split
  · exact fun c hc => h c (List.mem_cons_of_mem _ (List.mem_cons_of_mem _ hc))
  · exact h

theorem preludeChars_eq {prelude : List Block} (h : ∀ b ∈ prelude, BindsOwners b) :
    Block.listChars 2 prelude = closedLines (prelude.map Block.line) := by
  rw [Block.listChars, closedLines, List.flatMap_map]
  exact List.flatMap_congr fun b hb => Block.chars_eq_line (h b hb).body_eq

/-- The text of a mutation is put together from lines. -/
theorem bodyChars_eq {m : Mutation} (h : m.IsLegible) : m.bodyChars = closedLines m.bodyLines := by
  have hoperations := operationChars_eq h
  unfold bodyChars preludeChars? bodyLines
  cases hprelude : m.prelude.isEmpty with
  | true =>
    have houtdent : (lines m.operationChars).flatMap (fun l => outdent l ++ ['\n']) =
        closedLines (m.operationLines.map outdent) := by
      rw [hoperations, lines_closedLines (isLine_of_mem_operationLines h), closedLines,
        List.flatMap_map]
    simp only [if_true, houtdent, closedLines_append]
    rfl
  | false =>
    simp only [Bool.false_eq_true, if_false, preludeChars_eq h.prelude, hoperations,
      closedLines_append]
    rfl

/-- The lines of the text of a mutation. -/
theorem lines_bodyChars {m : Mutation} (h : m.IsLegible) : lines m.bodyChars = m.bodyLines := by
  rw [bodyChars_eq h, lines_closedLines]
  have hoperations := isLine_of_mem_operationLines h
  unfold bodyLines
  split
  · simp only [List.forall_mem_append, List.forall_mem_map]
    exact ⟨⟨by decide, fun l hl => isLine_outdent (hoperations l hl)⟩, by decide⟩
  · simp only [List.forall_mem_append, List.forall_mem_map]
    exact ⟨⟨⟨⟨by decide, fun b hb => (h.prelude b hb).isLine⟩, by decide⟩, hoperations⟩, by decide⟩

/-! ### Reading sections -/

/-- The line that opens a section. -/
def opening (name : String) : List Char :=
  name.toList ++ " \x7b".toList

/-- The line that closes a section. -/
def closing : List Char :=
  ['\x7d']

/-- The lines up to the next one that closes a section. -/
def upToClosing? : List (List Char) → Option (List (List Char))
  | [] => none
  | line :: rest => if line = closing then some [] else (upToClosing? rest).map (line :: ·)

/-- Every line that opens a section, with the lines up to the next one that closes it. -/
def sectionsOf : List (List Char) → List (List Char × Option (List (List Char)))
  | [] => []
  | line :: rest =>
    if line = opening "delete" ∨ line = opening "set" then
      (line, upToClosing? rest) :: sectionsOf rest
    else sectionsOf rest

/-- The section that a reader should find for statements; none if there are none. -/
def toldSection (name : String) (statements : List Statement) :
    List (List Char × Option (List (List Char))) :=
  if statements.isEmpty then [] else [(opening name, some (statements.map Statement.chars))]

/-- The text of a mutation carries its statements: each of them stands on a line of its own, the
sections hold just these lines in order, deletions first, and what a statement is made of can be
told from its line. -/
structure IsLossless (m : Mutation) : Prop where
  isLine : ∀ t ∈ m.delete ++ m.set, IsLine t.chars
  sections : sectionsOf ((lines m.bodyChars).map trimStart) =
    toldSection "delete" m.delete ++ toldSection "set" m.set
  told : ∀ t ∈ m.delete ++ m.set, ∀ t' : Statement, t'.IsLegible → t.chars = t'.chars →
    t.subject.chars = t'.subject.chars ∧ t.predicate = t'.predicate ∧
      t.object.value.chars = t'.object.value.chars ∧
      t.object.facets.texts = t'.object.facets.texts

/-- A line that is no section line is passed over. -/
theorem sectionsOf_append {ls rest : List (List Char)}
    (h : ∀ l ∈ ls, l ≠ opening "delete" ∧ l ≠ opening "set") :
    sectionsOf (ls ++ rest) = sectionsOf rest := by
  induction ls with
  | nil => rfl
  | cons l ls ih =>
    obtain ⟨⟨hdelete, hset⟩, hls⟩ := List.forall_mem_cons.1 h
    rw [List.cons_append, sectionsOf, if_neg (by simp [hdelete, hset]), ih hls]

theorem upToClosing?_append {ls rest : List (List Char)} (h : ∀ l ∈ ls, l ≠ closing) :
    upToClosing? (ls ++ closing :: rest) = some ls := by
  induction ls with
  | nil => rw [List.nil_append, upToClosing?, if_pos rfl]
  | cons l ls ih =>
    obtain ⟨hl, hls⟩ := List.forall_mem_cons.1 h
    rw [List.cons_append, upToClosing?, if_neg hl, ih hls, Option.map_some]

/-- A statement does not look like the line of a section. -/
theorem chars_ne_of_startsWith (t : Statement) {line : List Char}
    (h : ∀ c ∈ ['<', '_', 'u', 'v'], line.head? ≠ some c) : t.chars ≠ line := by
  obtain ⟨c, hc, tail, hchars⟩ := t.startsWith_chars
  rintro rfl
  exact h c hc (by rw [hchars, List.head?_cons])

/-- The lines of a section without the blanks at their starts. -/
def trimmedSection (name : String) (statements : List Statement) : List (List Char) :=
  if statements.isEmpty then []
  else [opening name] ++ statements.map Statement.chars ++ [closing]

theorem map_trimStart_sectionLines {name : String}
    (hname : trimStart (opening name) = opening name) (statements : List Statement) :
    (sectionLines name statements).map trimStart = trimmedSection name statements := by
  have hchars : ∀ t : Statement, trimStart (List.replicate 6 ' ' ++ t.chars) = t.chars := by
    intro t
    obtain ⟨c, hc, tail, hchars⟩ := t.startsWith_chars
    have hblank : ∀ c ∈ ['<', '_', 'u', 'v'], isBlank c = false := by decide
    rw [trimStart_blanks, trimStart_eq_self (by rw [hchars, List.head?_cons]) (hblank c hc)]
  have hopening : trimStart ("    ".toList ++ name.toList ++ " \x7b".toList) = opening name := by
    rw [List.append_assoc]
    exact (trimStart_blanks 4 (opening name)).trans hname
  unfold sectionLines trimmedSection
  split
  · rfl
  · simp only [List.map_append, List.map_cons, List.map_map, hopening]
    congr 2
    exact List.map_congr_left fun t _ => hchars t

theorem trimStart_outdent (l : List Char) : trimStart (outdent l) = trimStart l := by
  unfold outdent
  split
  · rfl
  · rfl

/-- A section of statements is found, and the reader goes on behind it. -/
theorem sectionsOf_trimmedSection {name : String} (hname : name = "delete" ∨ name = "set")
    (statements : List Statement) (rest : List (List Char)) :
    sectionsOf (trimmedSection name statements ++ rest) =
      toldSection name statements ++ sectionsOf rest := by
  have hstatement : ∀ l ∈ statements.map Statement.chars,
      (l ≠ opening "delete" ∧ l ≠ opening "set") ∧ l ≠ closing := fun l hl => by
    obtain ⟨t, -, rfl⟩ := List.mem_map.1 hl
    exact ⟨⟨chars_ne_of_startsWith t (by decide), chars_ne_of_startsWith t (by decide)⟩,
      chars_ne_of_startsWith t (by decide)⟩
  unfold trimmedSection toldSection
  split
  · rfl
  · have hopening : opening name = opening "delete" ∨ opening name = opening "set" :=
      hname.imp (congrArg opening) (congrArg opening)
    have hclosing : ∀ l ∈ statements.map Statement.chars ++ [closing],
        l ≠ opening "delete" ∧ l ≠ opening "set" :=
      List.forall_mem_append.2 ⟨fun l hl => (hstatement l hl).1, by decide⟩
    rw [List.append_assoc, List.append_assoc, List.singleton_append, sectionsOf, if_pos hopening,
      ← List.append_assoc, sectionsOf_append hclosing, List.append_assoc, List.singleton_append,
      upToClosing?_append fun l hl => (hstatement l hl).2]
    rfl

/-- The sections in the text of a mutation are those of its statements. -/
theorem sectionsOf_lines {m : Mutation} (h : m.IsLegible) :
    sectionsOf ((lines m.bodyChars).map trimStart) =
      toldSection "delete" m.delete ++ toldSection "set" m.set := by
  have hoperations : m.operationLines.map trimStart =
      trimmedSection "delete" m.delete ++ trimmedSection "set" m.set := by
    rw [operationLines, List.map_append, map_trimStart_sectionLines (by decide),
      map_trimStart_sectionLines (by decide)]
  have hsections : ∀ before after : List (List Char),
      (∀ l ∈ before, l ≠ opening "delete" ∧ l ≠ opening "set") → sectionsOf after = [] →
      sectionsOf (before ++ m.operationLines.map trimStart ++ after) =
        toldSection "delete" m.delete ++ toldSection "set" m.set := by
    intro before after hbefore hafter
    rw [List.append_assoc, sectionsOf_append hbefore, hoperations, List.append_assoc,
      sectionsOf_trimmedSection (.inl rfl), sectionsOf_trimmedSection (.inr rfl), hafter,
      List.append_nil]
  have hblock : ∀ b ∈ m.prelude,
      trimStart b.line ≠ opening "delete" ∧ trimStart b.line ≠ opening "set" := fun b hb => by
    obtain ⟨c, hc, tail, hline⟩ := (h.prelude b hb).startsWith_line
    rw [hline]
    refine ⟨fun heq => ?_, fun heq => ?_⟩
    all_goals
      obtain rfl := (List.cons.inj heq).1
      exact absurd hc (by decide)
  rw [lines_bodyChars h]
  unfold bodyLines
  split
  · have houtdent : (m.operationLines.map outdent).map trimStart =
        m.operationLines.map trimStart := by
      rw [List.map_map]
      exact List.map_congr_left fun l _ => trimStart_outdent l
    rw [List.map_append, List.map_append, houtdent]
    exact hsections _ _ (by decide) (by decide)
  · simp only [List.map_append]
    refine hsections _ _ ?_ (by decide)
    simp only [List.forall_mem_append, List.forall_mem_map]
    exact ⟨⟨by decide, hblock⟩, by decide⟩

/-- The text of a legible mutation carries its statements. -/
theorem IsLegible.isLossless {m : Mutation} (h : m.IsLegible) : m.IsLossless where
  isLine t ht := (h.statements t ht).isLine
  sections := sectionsOf_lines h
  told t ht _ ht' heq := (h.statements t ht).eq_of_chars ht' heq

end Mutation

end PressRegister
