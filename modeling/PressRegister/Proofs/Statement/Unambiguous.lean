import PressRegister.Proofs.Text.Lines
import PressRegister.Proofs.Text.Literals
import PressRegister.Proofs.Text.Slug
import PressRegister.Proofs.Text.Words
import PressRegister.Statement

/-!
# The text of a statement is unambiguous

A statement stands on one line, and what it is made of can be read off the line. Nodes, variables
and numbers are written bare and end before the next blank, comma or bracket, since names are
made of the characters of identifiers. Everything a user writes stands between quotes, with the
ends of lines escaped, and ends at the quote that is meant to end it.

## Main definitions

* `Text.IsName`: a text is made of the characters of identifiers.
* `Text.EndsBefore`: a text ends before the first of some characters, but for a quoted start.
* `Statement.IsLegible`: the names in a statement are made of the characters of identifiers.
* `Facets.texts`: facets as keys and texts.

## Main results

* `Text.EndsBefore.eq_of_append`: such texts can be told from what follows.
* `Statement.IsLegible.isLine`: a statement stands on one line.
* `Statement.IsLegible.eq_of_chars`: what the text of a statement tells of it.
-/

namespace PressRegister

open Calendar Number Text

/-! ### Texts and what follows them -/

namespace Text

/-- A text is made of the characters of identifiers, as every identifier is. -/
def IsName (s : String) : Prop :=
  ∀ c ∈ s.toList, IsIdentifierChar c

instance : DecidablePred IsName :=
  fun _ => inferInstanceAs (Decidable (∀ _ ∈ _, _))

theorem IsName.append {v w : String} (hv : IsName v) (hw : IsName w) : IsName (v ++ w) := by
  intro c hc
  rw [String.toList_append] at hc
  exact (List.mem_append.1 hc).elim (hv c) (hw c)

theorem isName_of_isIdentifier {s : String} (h : isIdentifier s = true) : IsName s :=
  (isIdentifier_spec h).2

/-- A text starts with one of some characters. -/
def StartsWith (stops : List Char) (cs : List Char) : Prop :=
  ∃ c ∈ stops, ∃ tail, cs = c :: tail

/-- A text ends before the first of some characters. If it starts with a quoted text, this holds
of what stands behind the quotes. -/
inductive EndsBefore (stops : List Char) : List Char → Prop
  | bare {cs : List Char} (hquote : cs.head? ≠ some '"') (h : ∀ c ∈ cs, c ∉ stops) :
      EndsBefore stops cs
  | quoted (cs : List Char) {tail : List Char} (h : ∀ c ∈ tail, c ∉ stops) :
      EndsBefore stops (quoteChars cs ++ tail)

variable {stops p q rest rest' : List Char}

/-- Characters of a sort that none of some characters is of. -/
theorem not_mem_of_all {P : Char → Prop} [DecidablePred P] (hall : stops.all (¬ P ·) = true)
    {c : Char} (h : P c) : c ∉ stops :=
  fun hmem => of_decide_eq_true (List.all_eq_true.1 hall c hmem) h

theorem eq_of_stop_append (hp : ∀ c ∈ p, c ∉ stops) (hq : ∀ c ∈ q, c ∉ stops)
    (hrest : StartsWith stops rest) (hrest' : StartsWith stops rest')
    (h : p ++ rest = q ++ rest') : p = q ∧ rest = rest' := by
  obtain ⟨a, ha, tail, rfl⟩ := hrest
  obtain ⟨b, hb, tail', rfl⟩ := hrest'
  induction p generalizing q with
  | nil =>
    cases q with
    | nil => exact ⟨rfl, h⟩
    | cons d q => exact (hq d List.mem_cons_self ((List.cons.inj h).1 ▸ ha)).elim
  | cons c p ih =>
    cases q with
    | nil => exact (hp c List.mem_cons_self ((List.cons.inj h).1 ▸ hb)).elim
    | cons d q =>
      obtain ⟨rfl, htail⟩ := List.cons.inj h
      obtain ⟨rfl, hrest⟩ := ih (fun c hc => hp c (List.mem_cons_of_mem _ hc))
        (fun c hc => hq c (List.mem_cons_of_mem _ hc)) htail
      exact ⟨rfl, hrest⟩

namespace EndsBefore

theorem quoteChars (cs : List Char) : EndsBefore stops (quoteChars cs) := by
  have hquoted : EndsBefore stops (Text.quoteChars cs ++ []) := quoted cs (List.forall_mem_nil _)
  rwa [List.append_nil] at hquoted

/-- A bare text is no quoted one, whatever follows it. -/
theorem bare_ne_quoted (hquote : '"' ∉ stops) (hp : p.head? ≠ some '"')
    (hrest : StartsWith stops rest) (cs : List Char) :
    p ++ rest ≠ Text.quoteChars cs ++ rest' := by
  obtain ⟨c, hc, tail, rfl⟩ := hrest
  intro h
  cases p with
  | nil => exact hquote ((List.cons.inj h).1 ▸ hc)
  | cons d p => exact hp (by rw [List.head?_cons, (List.cons.inj h).1])

/-- Texts that end before some characters can be told from what follows them. -/
theorem eq_of_append (hquote : '"' ∉ stops) (hp : EndsBefore stops p) (hq : EndsBefore stops q)
    (hrest : StartsWith stops rest) (hrest' : StartsWith stops rest')
    (h : p ++ rest = q ++ rest') : p = q ∧ rest = rest' := by
  cases hp with
  | bare hp hstops =>
    cases hq with
    | bare hq hstops' => exact eq_of_stop_append hstops hstops' hrest hrest' h
    | quoted ds hstops' =>
      rw [List.append_assoc] at h
      exact (bare_ne_quoted hquote hp hrest ds h).elim
  | quoted cs hstops =>
    rw [List.append_assoc] at h
    cases hq with
    | bare hq hstops' => exact (bare_ne_quoted hquote hq hrest' cs h.symm).elim
    | quoted ds hstops' =>
      rw [List.append_assoc] at h
      obtain ⟨rfl, htail⟩ := eq_of_quoteChars_append h
      obtain ⟨rfl, hrest⟩ := eq_of_stop_append hstops hstops' hrest hrest' htail
      exact ⟨rfl, hrest⟩

end EndsBefore

/-! ### Texts without ends of lines -/

theorem isLine_escapeChar (c : Char) : IsLine (escapeChar c) := by
  have hdigit : ∀ n < 16, hexDigit n ≠ '\n' ∧ hexDigit n ≠ '\r' := by decide
  unfold escapeChar
  split
  · decide
  split
  · decide
  split
  · decide
  rename_i hfeed
  split
  · decide
  rename_i hreturn
  repeat' split
  · decide
  · decide
  · decide
  · have hhigh := hdigit (c.toNat / 16) (by omega)
    have hlow := hdigit (c.toNat % 16) (by omega)
    simp [hhigh, hlow]
  · simpa using ⟨by simpa using hfeed, by simpa using hreturn⟩

theorem isLine_quoteChars (cs : List Char) : IsLine (quoteChars cs) := by
  have hinside : IsLine (cs.flatMap escapeChar) := fun c hc => by
    obtain ⟨d, -, hd⟩ := List.mem_flatMap.1 hc
    exact isLine_escapeChar d c hd
  simp [quoteChars, hinside]

theorem EndsBefore.isLine (hfeed : '\n' ∈ stops) (hreturn : '\r' ∈ stops)
    (h : EndsBefore stops p) : IsLine p := by
  have hbare : ∀ {cs : List Char}, (∀ c ∈ cs, c ∉ stops) → IsLine cs := fun hcs c hc =>
    ⟨fun heq => hcs c hc (heq ▸ hfeed), fun heq => hcs c hc (heq ▸ hreturn)⟩
  cases h with
  | bare _ hstops => exact hbare hstops
  | quoted cs hstops => exact IsLine.append_iff.2 ⟨isLine_quoteChars cs, hbare hstops⟩

theorem IsName.isLine {s : String} (h : IsName s) : IsLine s.toList := fun c hc => by
  have hstops : c ∉ ['\n', '\r'] := not_mem_of_all (by decide) (h c hc)
  simpa using hstops

end Text

/-! ### Names of nodes -/

theorem isNameChar_of_isSlugLetter {c : Char} (h : isSlugLetter c = true) : isNameChar c = true :=
  forall_ascii (P := fun c => isSlugLetter c = true → isNameChar c = true) (by decide)
    (toNat_lt_of_isSlugLetter h) h

theorem Uid.isNameChar_of_mem_text {u : Uid} {c : Char} (hc : c ∈ u.text.toList) :
    isNameChar c = true := by
  obtain ⟨digits, htext, -, hall⟩ := u.exists_digits
  rw [htext, List.mem_cons, List.mem_cons] at hc
  rcases hc with rfl | rfl | hc
  · decide
  · decide
  · have hdigit := List.all_eq_true.1 hall c hc
    exact isNameChar_of_isSlugLetter (isSlugLetter_of_isLowerHexDigit hdigit)

theorem Uid.isName_text (u : Uid) : IsName u.text := fun _ hc =>
  .inl (isNameChar_of_mem_text hc)

theorem BlankNode.IsSlugged.isName {b : BlankNode} (h : b.IsSlugged) : IsName b.name := by
  intro c hc
  rw [← h.1] at hc
  rcases isSlugLetter_of_mem_slug hc with hc | rfl
  · exact .inl (isNameChar_of_isSlugLetter hc)
  · exact .inl (by decide)

/-! ### Values -/

theorem Variable.chars_cases (x : Variable) :
    x.chars = "val(".toList ++ (x.name.toList ++ [')']) ∨
      x.chars = "uid(".toList ++ (x.name.toList ++ [')']) := by
  unfold chars
  rw [List.append_assoc]
  split
  · exact .inl rfl
  · exact .inr rfl

namespace Operand

/-- The names in an operand are made of the characters of identifiers. -/
def IsLegible : Operand → Prop
  | .new b => b.IsSlugged
  | .var v => IsName v.name
  | _ => True

/-- The characters that a value ends before. -/
def stops : List Char :=
  [' ', '\n', '\r']

theorem not_mem_stops {s : String} (h : IsName s) : ∀ c ∈ s.toList, c ∉ stops := fun c hc =>
  not_mem_of_all (by decide) (h c hc)

/-- A value ends before the blank that follows it. -/
theorem IsLegible.endsBefore {v : Operand} (h : v.IsLegible) : EndsBefore stops v.chars := by
  cases v with
  | existing u =>
    refine .bare (by simp [chars, Uid.chars]) fun c hc => ?_
    simp only [chars, Uid.chars, List.cons_append, List.mem_cons, List.mem_append,
      List.not_mem_nil, or_false] at hc
    rcases hc with rfl | hc | rfl
    · decide
    · exact not_mem_stops u.isName_text c hc
    · decide
  | new b =>
    refine .bare (by simp [chars, BlankNode.chars]) fun c hc => ?_
    simp only [chars, BlankNode.chars, List.mem_cons] at hc
    rcases hc with rfl | rfl | hc
    · decide
    · decide
    · exact not_mem_stops h.isName c hc
  | literal s => exact .quoteChars _
  | geo point => exact .quoted _ (by decide)
  | var x =>
    have hname : ∀ c ∈ x.name.toList ++ [')'], c ∉ stops := fun c hc => by
      rcases List.mem_append.1 hc with hc | hc
      · exact not_mem_stops h c hc
      · rw [List.mem_singleton.1 hc]
        decide
    rw [chars]
    obtain hchars | hchars := x.chars_cases
    · rw [hchars]
      exact .bare (by simp) (List.forall_mem_append.2 ⟨by decide, hname⟩)
    · rw [hchars]
      exact .bare (by simp) (List.forall_mem_append.2 ⟨by decide, hname⟩)
  | wildcard => exact .bare (by decide) (by decide)

theorem IsLegible.isLine {v : Operand} (h : v.IsLegible) : IsLine v.chars :=
  h.endsBefore.isLine (by decide) (by decide)

end Operand

/-! ### Facets -/

namespace Scalar

/-- The characters that the value of a facet ends before. -/
def stops : List Char :=
  [',', ')', '\n', '\r']

/-- The characters of numbers, truth values and instants. -/
def IsBareChar (c : Char) : Prop :=
  isNameChar c = true ∨ c = '-' ∨ c = '+' ∨ c = '.' ∨ c = ':'

instance : DecidablePred IsBareChar :=
  fun _ => inferInstanceAs (Decidable (_ ∨ _))

theorem isBareChar_of_isDigit {c : Char} (h : isDigit c = true) : IsBareChar c := by
  simp only [isDigit, Bool.and_eq_true, decide_eq_true_eq] at h
  refine .inl ?_
  simp only [isNameChar, Char.isAlphanum, Char.isDigit, Bool.or_eq_true, Bool.and_eq_true,
    decide_eq_true_eq]
  exact .inl (.inr h)

theorem isBareChar_of_isDecimalChar {c : Char} (h : IsDecimalChar c) : IsBareChar c := by
  rcases h with h | rfl | rfl
  · exact isBareChar_of_isDigit h
  · decide
  · decide

theorem isBareChar_of_mem_yearChars {y : Int} {c : Char} (h : c ∈ Instant.yearChars y) :
    IsBareChar c := by
  unfold Instant.yearChars at h
  split at h
  · exact isBareChar_of_isDigit (isDigit_of_mem_decimalPadded h)
  · simp only [List.cons_append, List.mem_cons, List.mem_append] at h
    rcases h with rfl | h | h
    · split <;> decide
    · rw [List.eq_of_mem_replicate h]
      decide
    · exact isBareChar_of_isDigit (isDigit_of_mem_natChars h)

theorem isBareChar_of_mem_canonicalChars {t : Instant} {c : Char} (h : c ∈ t.canonicalChars) :
    IsBareChar c := by
  have hpadded : ∀ {n : Nat}, c ∈ decimalPadded 2 n → IsBareChar c := fun hc =>
    isBareChar_of_isDigit (isDigit_of_mem_decimalPadded hc)
  simp only [Instant.canonicalChars, List.append_assoc, List.cons_append, List.mem_append,
    List.mem_cons, List.not_mem_nil, or_false] at h
  rcases h with h | rfl | h | rfl | h | rfl | h | rfl | h | rfl | h | rfl
  · exact isBareChar_of_mem_yearChars h
  all_goals first | exact hpadded h | decide

/-- The text of a literal that is no text. -/
theorem isBareChar_of_mem_canonical {v : Scalar} (htext : ∀ s, v ≠ .text s) {c : Char}
    (h : c ∈ v.canonical.toList) : IsBareChar c := by
  cases v with
  | text s => exact (htext s rfl).elim
  | int n =>
    rw [canonical, intText, String.toList_ofList] at h
    exact isBareChar_of_isDecimalChar (isDecimalChar_of_mem_intChars h)
  | float d =>
    rw [canonical, Double.plainText, String.toList_ofList] at h
    cases d with
    | finite s a => exact isBareChar_of_isDecimalChar (isDecimalChar_of_mem_chars rfl h)
    | infinite s =>
      cases s
      · revert c
        decide
      · revert c
        decide
    | nan =>
      revert c
      decide
  | bool b =>
    cases b
    · revert c
      decide
    · revert c
      decide
  | instant t =>
    rw [canonical, Instant.canonical, String.toList_ofList] at h
    exact isBareChar_of_mem_canonicalChars h

/-- The value of a facet ends before the comma or the bracket that follows it. -/
theorem endsBefore_facetChars (v : Scalar) : EndsBefore stops v.facetChars := by
  have hbare : (∀ s, v ≠ .text s) → EndsBefore stops v.canonical.toList := fun htext => by
    have hchars : ∀ c ∈ v.canonical.toList, IsBareChar c := fun c hc =>
      isBareChar_of_mem_canonical htext hc
    refine .bare (fun hhead => ?_) fun c hc => not_mem_of_all (by decide) (hchars c hc)
    exact absurd (hchars _ (List.mem_of_head? hhead)) (by decide)
  cases v with
  | text s => exact .quoteChars _
  | _ => exact hbare (by simp)

end Scalar

namespace Facets

/-- The keys of facets with the texts of their values. -/
def texts (f : Facets) : List (String × List Char) :=
  f.entries.map fun e => (e.1, e.2.facetChars)

/-- A key with the text of its value. -/
def textChars (e : String × List Char) : List Char :=
  e.1.toList ++ '=' :: e.2

/-- The keys of facets are made of the characters of identifiers. -/
def IsLegible (f : Facets) : Prop :=
  ∀ e ∈ f.entries, IsName e.1

theorem chars_eq (f : Facets) : f.chars = if f.texts.isEmpty then []
    else " (".toList ++ ", ".toList.intercalate (f.texts.map textChars) ++ [')'] := by
  have hentries : f.texts.map textChars = f.entries.map entryChars := by
    rw [texts, List.map_map]
    rfl
  rw [chars, hentries, texts, List.isEmpty_map]

variable {f g : Facets}

theorem IsLegible.of_mem_texts (h : f.IsLegible) {e : String × List Char} (he : e ∈ f.texts) :
    IsName e.1 ∧ EndsBefore Scalar.stops e.2 := by
  obtain ⟨e', he', rfl⟩ := List.mem_map.1 he
  exact ⟨h e' he', e'.2.endsBefore_facetChars⟩

/-- A key ends before the sign behind it, and its value before what follows. -/
theorem IsLegible.eq_of_textChars_append (hf : f.IsLegible) (hg : g.IsLegible)
    {e e' : String × List Char} (he : e ∈ f.texts) (he' : e' ∈ g.texts) {rest rest' : List Char}
    (hrest : StartsWith Scalar.stops rest) (hrest' : StartsWith Scalar.stops rest')
    (h : textChars e ++ rest = textChars e' ++ rest') : e = e' ∧ rest = rest' := by
  obtain ⟨hkey, hvalue⟩ := hf.of_mem_texts he
  obtain ⟨hkey', hvalue'⟩ := hg.of_mem_texts he'
  rw [textChars, textChars, List.append_assoc, List.append_assoc] at h
  have hsign : ∀ {s : String}, IsName s → ∀ c ∈ s.toList, c ∉ ['='] := fun hs c hc =>
    not_mem_of_all (by decide) (hs c hc)
  obtain ⟨hkeys, htail⟩ := eq_of_stop_append (hsign hkey) (hsign hkey') ⟨_, by simp, _, rfl⟩
    ⟨_, by simp, _, rfl⟩ h
  obtain ⟨hvalues, hrest⟩ := hvalue.eq_of_append (by decide) hvalue' hrest hrest'
    (List.cons.inj htail).2
  exact ⟨Prod.ext (String.toList_inj.1 hkeys) hvalues, hrest⟩

/-- The facets at the end of a statement can be told from its text. -/
theorem IsLegible.texts_eq (hf : f.IsLegible) (hg : g.IsLegible)
    (h : f.chars ++ " .".toList = g.chars ++ " .".toList) : f.texts = g.texts := by
  rw [chars_eq, chars_eq] at h
  cases hf' : f.texts with
  | nil =>
    cases hg' : g.texts with
    | nil => rfl
    | cons e' others' =>
      rw [hf', hg'] at h
      simp at h
  | cons e others =>
    cases hg' : g.texts with
    | nil =>
      rw [hf', hg'] at h
      simp at h
    | cons e' others' =>
      have hjoined : textChars e ++ ((others.map textChars).flatMap (", ".toList ++ ·) ++
          ')' :: " .".toList) = textChars e' ++
            ((others'.map textChars).flatMap (", ".toList ++ ·) ++ ')' :: " .".toList) := by
        rw [hf', hg'] at h
        simpa [intercalate_cons] using h
      have hmem : ∀ d ∈ e :: others, d ∈ f.texts := fun d hd => hf' ▸ hd
      have hmem' : ∀ d ∈ e' :: others', d ∈ g.texts := fun d hd => hg' ▸ hd
      have hcomma : ∀ tail, StartsWith Scalar.stops (", ".toList ++ tail) := fun tail =>
        ⟨',', by decide, ' ' :: tail, rfl⟩
      have hclose : ∀ tail, StartsWith Scalar.stops (')' :: tail) := fun tail =>
        ⟨')', by decide, tail, rfl⟩
      obtain ⟨rfl, hothers⟩ := hf.eq_of_textChars_append hg (hmem _ List.mem_cons_self)
        (hmem' _ List.mem_cons_self) (behind_joined hcomma hclose _ _)
        (behind_joined hcomma hclose _ _) hjoined
      obtain ⟨rfl, -⟩ := eq_of_joined_append hcomma hclose (by simp)
        (fun d hd d' hd' _ _ hrest hrest' => hf.eq_of_textChars_append hg
          (hmem d (List.mem_cons_of_mem _ hd)) (hmem' d' (List.mem_cons_of_mem _ hd')) hrest
          hrest') hothers
      rfl

theorem IsLegible.isLine (h : f.IsLegible) : IsLine f.chars := by
  have htexts : ∀ cs ∈ f.texts.map textChars, IsLine cs := fun cs hcs => by
    obtain ⟨e, he, rfl⟩ := List.mem_map.1 hcs
    obtain ⟨hkey, hvalue⟩ := h.of_mem_texts he
    simp [textChars, hkey.isLine, hvalue.isLine (by decide) (by decide)]
  have hjoined : IsLine ([',', ' '].intercalate (f.texts.map textChars)) :=
    .intercalate (by decide) htexts
  rw [chars_eq]
  split
  · exact .nil
  · simp [hjoined]

end Facets

/-! ### Statements -/

namespace Statement

/-- The names in a statement are made of the characters of identifiers. -/
structure IsLegible (t : Statement) : Prop where
  subject : t.subject.operand.IsLegible
  predicate : IsName t.predicate
  value : t.object.value.IsLegible
  facets : t.object.facets.IsLegible

namespace IsLegible

variable {t t' : Statement}

/-- A statement stands on one line. -/
theorem isLine (h : t.IsLegible) : IsLine t.chars := by
  simp [chars, Object.chars, Subject.chars, h.subject.isLine, h.predicate.isLine, h.value.isLine,
    h.facets.isLine]

/-- Behind the value of a statement stands a blank. -/
theorem startsWith_facets (f : Facets) : StartsWith Operand.stops (f.chars ++ " .".toList) := by
  unfold Facets.chars
  split
  · exact ⟨' ', by decide, ['.'], rfl⟩
  · exact ⟨' ', by decide, _, rfl⟩

/-- The text of a statement tells its subject, predicate, value and facets. -/
theorem eq_of_chars (h : t.IsLegible) (h' : t'.IsLegible) (heq : t.chars = t'.chars) :
    t.subject.chars = t'.subject.chars ∧ t.predicate = t'.predicate ∧
      t.object.value.chars = t'.object.value.chars ∧
      t.object.facets.texts = t'.object.facets.texts := by
  have hblank : ∀ tail, StartsWith Operand.stops (" <".toList ++ tail) := fun tail =>
    ⟨' ', by decide, '<' :: tail, rfl⟩
  have hbracket : ∀ tail, StartsWith ['>'] ("> ".toList ++ tail) := fun tail =>
    ⟨'>', by simp, ' ' :: tail, rfl⟩
  have hname : ∀ {s : String}, IsName s → ∀ c ∈ s.toList, c ∉ ['>'] := fun hs c hc =>
    not_mem_of_all (by decide) (hs c hc)
  simp only [chars, Object.chars, List.append_assoc] at heq
  obtain ⟨hsubject, heq⟩ := h.subject.endsBefore.eq_of_append (by decide) h'.subject.endsBefore
    (hblank _) (hblank _) heq
  obtain ⟨hpredicate, heq⟩ := eq_of_stop_append (hname h.predicate) (hname h'.predicate)
    (hbracket _) (hbracket _) (List.append_cancel_left heq)
  obtain ⟨hvalue, heq⟩ := h.value.endsBefore.eq_of_append (by decide) h'.value.endsBefore
    (startsWith_facets _) (startsWith_facets _) (List.append_cancel_left heq)
  exact ⟨hsubject, String.toList_inj.1 hpredicate, hvalue, h.facets.texts_eq h'.facets heq⟩

end IsLegible

/-- How a statement starts. -/
theorem startsWith_chars (t : Statement) : StartsWith ['<', '_', 'u', 'v'] t.chars := by
  obtain ⟨subject, predicate, object⟩ := t
  cases subject with
  | existing u => exact ⟨'<', by simp, _, rfl⟩
  | new b => exact ⟨'_', by simp, _, rfl⟩
  | var x =>
    rw [chars, Subject.chars, Subject.operand, Operand.chars]
    obtain hchars | hchars := x.chars_cases
    · rw [hchars]
      exact ⟨'v', by simp, _, rfl⟩
    · rw [hchars]
      exact ⟨'u', by simp, _, rfl⟩

end Statement

end PressRegister
