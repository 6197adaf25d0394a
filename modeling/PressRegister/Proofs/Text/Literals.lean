import PressRegister.Json.Reader
import PressRegister.Proofs.Text.Masking

/-!
# Reading literals back

A text can be read back from its quoted form, by the rules of JSON, and a pattern gives the
text that it was made for, but for the slashes. Literals and words end where they end: two
texts that start with one of each, and agree, start with the same one.

## Main definitions

* `readPattern?`: reads the rest of a pattern up to the slash that closes it.

## Main results

* `Json.parse?_quote`: a text reads back from its quoted form.
* `readPattern?_patternChars`: a pattern reads back but for slashes.
* `eq_of_quoteChars_append`, `eq_of_patternChars_append`, `eq_of_word_append`: quoted texts,
  patterns and words end where they end.
* `eq_of_joined_append`: so do several of them, once they are joined and closed.
-/

namespace PressRegister

open Text

/-! ### Quoted texts -/

namespace Json

namespace Document

theorem hexValue?_hexDigit {n : Nat} (h : n < 16) : hexValue? (hexDigit n) = some n := by
  revert n
  decide

/-- The number of a control character is read from its last two digits. -/
theorem hexPiece?_hexDigit {n : Nat} (h : n < 0x20) :
    hexPiece? '0' '0' (hexDigit (n / 16)) (hexDigit (n % 16)) = some (.char (Char.ofNat n)) := by
  have hzero : hexValue? '0' = some 0 := by decide
  have hvalue : ((0 * 16 + 0) * 16 + n / 16) * 16 + n % 16 = n := by omega
  simp only [hexPiece?, hzero, hexValue?_hexDigit (show n / 16 < 16 by omega),
    hexValue?_hexDigit (Nat.mod_lt n (show 0 < 16 by decide)), Option.bind_eq_bind,
    Option.bind_some, Option.pure_def, hvalue]
  rw [if_neg]
  simp only [Bool.and_eq_true, decide_eq_true_eq]
  omega

/-- What a string goes on with behind a character. -/
def followed (c : Char) (r : List Piece × List Char) : List Piece × List Char :=
  (.char c :: r.1, r.2)

theorem string?_letter {c d : Char} (hc : c ≠ 'u') (hd : escaped? c = some d)
    (rest : List Char) : string? ('\\' :: c :: rest) = (string? rest).map (followed d) := by
  rw [string?.eq_4 c rest fun _ _ _ _ _ hu _ => hc hu, hd]
  cases string? rest <;> rfl

theorem string?_number {c : Char} (hc : c.toNat < 0x20) (rest : List Char) :
    string? ('\\' :: 'u' :: '0' :: '0' :: hexDigit (c.toNat / 16) :: hexDigit (c.toNat % 16) ::
      rest) = (string? rest).map (followed c) := by
  rw [string?.eq_3, hexPiece?_hexDigit hc, Char.ofNat_toNat]
  cases string? rest <;> rfl

theorem string?_plain {c : Char} (hquote : c ≠ '"') (hslash : c ≠ '\\') (hc : ¬ c.toNat < 0x20)
    (rest : List Char) : string? (c :: rest) = (string? rest).map (followed c) := by
  rw [string?.eq_5 c rest hquote (fun _ _ _ _ _ h _ => hslash h) fun _ _ h _ => hslash h, if_neg]
  · cases string? rest <;> rfl
  · simp [hc, hslash]

/-- The escape of a character is read as the character. -/
theorem string?_escapeChar (c : Char) (rest : List Char) :
    string? (escapeChar c ++ rest) = (string? rest).map (followed c) := by
  have hletter {d letter : Char} (hc : c = d) (hletter : letter ≠ 'u')
      (hd : escaped? letter = some d) :
      string? (['\\', letter] ++ rest) = (string? rest).map (followed c) :=
    hc ▸ string?_letter hletter hd rest
  have hcontrol {n : Nat} (hc : (c.toNat == n) = true) : c = Char.ofNat n := by
    rw [← beq_iff_eq.1 hc, Char.ofNat_toNat]
  unfold escapeChar
  split
  · rename_i hc
    exact hletter (beq_iff_eq.1 hc) (by decide) (by decide)
  rename_i hquote
  split
  · rename_i hc
    exact hletter (beq_iff_eq.1 hc) (by decide) (by decide)
  rename_i hslash
  repeat' split
  · rename_i hc
    exact hletter (beq_iff_eq.1 hc) (by decide) (by decide)
  · rename_i hc
    exact hletter (beq_iff_eq.1 hc) (by decide) (by decide)
  · rename_i hc
    exact hletter (beq_iff_eq.1 hc) (by decide) (by decide)
  · rename_i hc
    exact hletter (hcontrol hc) (by decide) (by decide)
  · rename_i hc
    exact hletter (hcontrol hc) (by decide) (by decide)
  · rename_i hc
    exact string?_number hc rest
  · rename_i hc
    exact string?_plain (by simpa using hquote) (by simpa using hslash) hc rest

/-- The rest of a quoted text is read up to its last quote. -/
theorem string?_quoted (cs rest : List Char) :
    string? (cs.flatMap escapeChar ++ '"' :: rest) = some (cs.map .char, rest) := by
  induction cs with
  | nil => rfl
  | cons c cs ih =>
    rw [List.flatMap_cons, List.append_assoc, string?_escapeChar, ih]
    rfl

theorem joinPieces_map_char (cs : List Char) : joinPieces (cs.map .char) = some cs := by
  induction cs with
  | nil => rfl
  | cons c cs ih => rw [List.map_cons, joinPieces, ih, Option.map_some]

theorem value?_quoteChars (fuel : Nat) (s : String) (rest : List Char) :
    value? (fuel + 1) (quoteChars s.toList ++ rest) = some (.string (some s), rest) := by
  have hread := string?_quoted s.toList rest
  have hskip : skipGap (quoteChars s.toList ++ rest) =
      '"' :: (s.toList.flatMap escapeChar ++ '"' :: rest) := by
    simp [skipGap, quoteChars, isGap]
  simp only [value?, hskip, hread, Option.bind_eq_bind, Option.bind_some, joinPieces_map_char,
    Option.map_some, String.ofList_toList, Option.pure_def]

end Document

/-- A text reads back from its quoted form. -/
theorem parse?_quote (s : String) : parse? (quote s) = some (.string s) := by
  have hread := Document.value?_quoteChars (2 * (quoteChars s.toList).length + 1) s []
  rw [List.append_nil] at hread
  simp only [parse?, Document.parse?, toList_quote, hread]
  rfl

end Json

namespace Text

/-- Quoted texts end where they end. -/
theorem eq_of_quoteChars_append {cs ds rest rest' : List Char}
    (h : quoteChars cs ++ rest = quoteChars ds ++ rest') : cs = ds ∧ rest = rest' := by
  simp only [quoteChars, List.cons_append, List.append_assoc, List.nil_append,
    List.cons.injEq, true_and] at h
  have hread := Json.Document.string?_quoted cs rest
  rw [h, Json.Document.string?_quoted ds rest'] at hread
  obtain ⟨hpieces, hrest⟩ := Prod.mk.inj (Option.some.inj hread)
  have hjoin := Json.Document.joinPieces_map_char cs
  rw [← hpieces, Json.Document.joinPieces_map_char] at hjoin
  exact ⟨(Option.some.inj hjoin).symm, hrest.symm⟩

/-! ### Patterns -/

/-- Reads the rest of a pattern up to the slash that closes it. -/
def readPattern? : List Char → Option (List Char × List Char)
  | [] => none
  | '/' :: rest => some ([], rest)
  | ['\\'] => none
  | '\\' :: c :: rest => (readPattern? rest).map fun r => (c :: r.1, r.2)
  | c :: rest => (readPattern? rest).map fun r => (c :: r.1, r.2)

theorem readPattern?_patternChar (c : Char) (rest : List Char) :
    readPattern? (patternChar c ++ rest) = if c = '/' then readPattern? rest
      else (readPattern? rest).map fun r => (c :: r.1, r.2) := by
  unfold patternChar
  by_cases hslash : c = '/'
  · simp [hslash]
  · rw [if_neg (by simpa using hslash), if_neg hslash]
    split
    · rw [List.cons_append, List.cons_append, List.nil_append, readPattern?]
    · rename_i hsign
      have hne : c ≠ '\\' := by
        rintro rfl
        exact hsign (by decide)
      rw [List.cons_append, List.nil_append, readPattern?.eq_5]
      · exact hslash
      · exact fun h _ => hne h
      · exact fun _ _ h _ => hne h

/-- A pattern reads back but for slashes. -/
theorem readPattern?_patternChars (cs rest : List Char) :
    readPattern? ((patternChars cs).tail ++ rest) = some (cs.filter (· != '/'), 'i' :: rest) := by
  have hread (tail : List Char) : readPattern? (cs.flatMap patternChar ++ '/' :: tail) =
      some (cs.filter (· != '/'), tail) := by
    induction cs with
    | nil => rfl
    | cons c cs ih =>
      rw [List.flatMap_cons, List.append_assoc, readPattern?_patternChar, ih]
      by_cases hslash : c = '/'
      · simp [hslash]
      · simp [hslash]
  simpa [patternChars] using hread ('i' :: rest)

/-- Patterns end where they end. -/
theorem eq_of_patternChars_append {cs ds rest rest' : List Char}
    (h : patternChars cs ++ rest = patternChars ds ++ rest') :
    cs.filter (· != '/') = ds.filter (· != '/') ∧ rest = rest' := by
  have htail := congrArg List.tail h
  have hread := readPattern?_patternChars cs rest
  rw [← List.tail_append_of_ne_nil (by simp [patternChars]), htail,
    List.tail_append_of_ne_nil (by simp [patternChars]), readPattern?_patternChars] at hread
  obtain ⟨hcs, hrest⟩ := Prod.mk.inj (Option.some.inj hread)
  exact ⟨hcs.symm, (List.cons.inj hrest).2.symm⟩

/-! ### Words -/

/-- Words end before the separator that follows them. -/
theorem eq_of_word_append {v w : String} (hv : IsWord v) (hw : IsWord w) {rest rest' : List Char}
    (hrest : startsApart rest = true) (hrest' : startsApart rest' = true)
    (h : v.toList ++ rest = w.toList ++ rest') : v = w ∧ rest = rest' := by
  have hspan {u : String} (hu : IsWord u) {tail : List Char} (htail : startsApart tail = true) :
      (u.toList ++ tail).takeWhile (!isSeparator ·) = u.toList := by
    cases tail with
    | nil => cases htail
    | cons c tail =>
      have hc : isSeparator c = true := htail
      rw [List.takeWhile_append_of_pos fun d hd => by simp [hu.2 d hd], List.takeWhile_cons]
      simp [hc]
  have hwords : v.toList = w.toList := by
    rw [← hspan hv hrest, h, hspan hw hrest']
  rw [hwords] at h
  exact ⟨String.toList_inj.1 hwords, List.append_cancel_left h⟩

/-- A word does not start with a separator. -/
theorem IsWord.append_ne {w : String} (hw : IsWord w) {c : Char} (hc : isSeparator c = true)
    (rest cs : List Char) : w.toList ++ rest ≠ c :: cs := by
  intro h
  cases hlist : w.toList with
  | nil => exact hw.1 hlist
  | cons d ds =>
    rw [hlist, List.cons_append] at h
    have hd := hw.2 d (hlist ▸ List.mem_cons_self)
    rw [(List.cons.inj h).1, hc] at hd
    cases hd

/-! ### Joined texts -/

/-- Texts joined by a separating text, the first of them apart. -/
theorem intercalate_cons (sep first : List Char) (rest : List (List Char)) :
    sep.intercalate (first :: rest) = first ++ rest.flatMap (sep ++ ·) := by
  induction rest generalizing first with
  | nil => simp
  | cons second rest ih =>
    rw [List.intercalate_cons_cons, ih, List.flatMap_cons]
    simp only [List.append_assoc]

/-- Behind an item stands another separating text or the bracket that closes. -/
theorem behind_joined {P : List Char → Prop} {sep : List Char} (hsep : ∀ tail, P (sep ++ tail))
    (hend : ∀ tail, P (')' :: tail)) (items : List (List Char)) (rest : List Char) :
    P (items.flatMap (sep ++ ·) ++ ')' :: rest) := by
  cases items with
  | nil => exact hend rest
  | cons item items =>
    rw [List.flatMap_cons, List.append_assoc, List.append_assoc]
    exact hsep _

theorem startsApart_joined {sep : List Char} (hsep : startsApart sep = true)
    (items : List (List Char)) (rest : List Char) :
    startsApart (items.flatMap (sep ++ ·) ++ ')' :: rest) = true :=
  behind_joined (P := (startsApart · = true)) (startsApart_append_left hsep) (fun _ => rfl) items
    rest

/-- Items that end where they end can be told apart when they are joined and closed. What may
stand behind an item is a separating text or the bracket that closes. -/
theorem eq_of_joined_append {α : Type} {text : α → List Char} {P : List Char → Prop}
    {sep : List Char} {as bs : List α} {rest rest' : List Char} (hsep : ∀ tail, P (sep ++ tail))
    (hend : ∀ tail, P (')' :: tail)) (hclose : ∀ tail tail', ')' :: tail ≠ sep ++ tail')
    (hitem : ∀ a ∈ as, ∀ b ∈ bs, ∀ {rest rest' : List Char}, P rest → P rest' →
      text a ++ rest = text b ++ rest' → a = b ∧ rest = rest')
    (h : (as.map text).flatMap (sep ++ ·) ++ ')' :: rest =
      (bs.map text).flatMap (sep ++ ·) ++ ')' :: rest') : as = bs ∧ rest = rest' := by
  have hstop (c : α) (cs : List α) (rest rest' : List Char) : ')' :: rest ≠
      ((c :: cs).map text).flatMap (sep ++ ·) ++ ')' :: rest' := by
    intro h
    rw [List.map_cons, List.flatMap_cons, List.append_assoc, List.append_assoc] at h
    exact hclose _ _ h
  induction as generalizing bs with
  | nil =>
    cases bs with
    | nil => exact ⟨rfl, (List.cons.inj h).2⟩
    | cons b bs => exact (hstop b bs rest rest' h).elim
  | cons a as ih =>
    cases bs with
    | nil => exact (hstop a as rest' rest h.symm).elim
    | cons b bs =>
      simp only [List.map_cons, List.flatMap_cons, List.append_assoc] at h
      obtain ⟨rfl, htails⟩ := hitem a List.mem_cons_self b List.mem_cons_self
        (behind_joined hsep hend _ rest) (behind_joined hsep hend _ rest')
        (List.append_cancel_left h)
      obtain ⟨rfl, hrest⟩ := ih (fun c hc d hd => hitem c (List.mem_cons_of_mem _ hc) d
        (List.mem_cons_of_mem _ hd)) htails
      exact ⟨rfl, hrest⟩

end Text

end PressRegister
