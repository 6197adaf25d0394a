import PressRegister.Text.Pattern
import PressRegister.Text.Quoted

/-!
# Query text without its literals

A scanner reads query text from left to right and puts a placeholder for every text
between double quotes and for every pattern between slashes. What a user writes stands
inside literals only, so two texts that differ in the insides of literals have one masked
text, and the words in it are the words that stand outside.

## Main definitions

* `Mode`, `Mode.next?`: where the scanner stands, and where a character takes it.
* `mask`: a text with a placeholder for each literal.
* `words`: the words of a text.
* `Alike`: two texts are made of the same words and separators, with literals of one sort
  at the same places.

## Main results

* `reads_quoteChars`, `reads_patternChars`: a literal ends where it is meant to end,
  whatever is written in it.
* `Alike.mask_eq`: texts that are alike have one masked text, and its words are theirs.
-/

namespace PressRegister.Text

/-! ### The scanner -/

/-- Where the scanner stands. -/
inductive Mode where
  | plain
  | quoted
  | quotedEscape
  | pattern
  | patternEscape
  /-- Behind the slash that closes a pattern, where the letter `i` must stand. -/
  | flag
  deriving DecidableEq, Repr

/-- Where a character takes the scanner. -/
def Mode.next? : Mode → Char → Option Mode
  | .plain, c => some (if c = '"' then .quoted else if c = '/' then .pattern else .plain)
  | .quoted, c => some (if c = '\\' then .quotedEscape else if c = '"' then .plain else .quoted)
  | .quotedEscape, _ => some .quoted
  | .pattern, c => some (if c = '\\' then .patternEscape else if c = '/' then .flag else .pattern)
  | .patternEscape, _ => some .pattern
  | .flag, c => if c = 'i' then some .plain else none

/-- What the scanner keeps of a character: what stands outside of literals, and the sign
that opens a literal as its placeholder. -/
def Mode.kept : Mode → Char → List Char
  | .plain, c => [c]
  | _, _ => []

/-- A text with a placeholder for each literal, unless a literal does not end as it should. -/
def mask : Mode → List Char → Option (List Char)
  | mode, [] => if mode = .plain then some [] else none
  | mode, c :: cs => (mode.next? c).bind fun next => (mask next cs).map (mode.kept c ++ ·)

/-- A text takes the scanner from one mode to another, and this is what it keeps of it. -/
def Reads (mode : Mode) (cs : List Char) (next : Mode) (out : List Char) : Prop :=
  ∀ rest, mask mode (cs ++ rest) = (mask next rest).map (out ++ ·)

theorem Reads.nil {mode : Mode} : Reads mode [] mode [] := fun rest => by simp

theorem Reads.append {mode mid next : Mode} {cs ds out out' : List Char}
    (h : Reads mode cs mid out) (h' : Reads mid ds next out') :
    Reads mode (cs ++ ds) next (out ++ out') := fun rest => by
  rw [List.append_assoc, h, h', Option.map_map]
  congr 1
  funext x
  simp

/-- One step of the scanner. -/
theorem Reads.cons {mode mid next : Mode} {c : Char} {cs out : List Char}
    (hc : mode.next? c = some mid) (h : Reads mid cs next out) :
    Reads mode (c :: cs) next (mode.kept c ++ out) := fun rest => by
  rw [List.cons_append, mask, hc, Option.bind_some, h, Option.map_map]
  congr 1
  funext x
  simp

theorem Reads.single {mode next : Mode} {c : Char} (hc : mode.next? c = some next) :
    Reads mode [c] next (mode.kept c) := by
  simpa using Reads.cons hc Reads.nil

/-- What characters do one by one without leaving a mode, a text does. -/
theorem Reads.flatMap {mode : Mode} {f : Char → List Char}
    (h : ∀ c, Reads mode (f c) mode []) (cs : List Char) : Reads mode (cs.flatMap f) mode [] := by
  induction cs with
  | nil => exact .nil
  | cons c cs ih =>
    rw [List.flatMap_cons]
    exact (h c).append ih

/-! ### Literals -/

theorem hexDigit_ne {n : Nat} (h : n < 16) : hexDigit n ≠ '\\' ∧ hexDigit n ≠ '"' := by
  have hall : ∀ i : Fin 16, hexDigit i ≠ '\\' ∧ hexDigit i ≠ '"' := by decide
  exact hall ⟨n, h⟩

theorem next?_quoted {c : Char} (h : c ≠ '\\' ∧ c ≠ '"') : Mode.quoted.next? c = some .quoted := by
  simp [Mode.next?, h]

/-- An escape leaves the scanner between the quotes. -/
theorem reads_escape (c : Char) : Reads .quoted ['\\', c] .quoted [] :=
  .cons rfl (.cons rfl .nil)

/-- The quoted form of a character does not close the quotes. -/
theorem reads_escapeChar (c : Char) : Reads .quoted (escapeChar c) .quoted [] := by
  unfold escapeChar
  split
  · exact reads_escape _
  · rename_i hquote
    split
    · exact reads_escape _
    · rename_i hslash
      repeat' split
      · exact reads_escape _
      · exact reads_escape _
      · exact reads_escape _
      · exact reads_escape _
      · exact reads_escape _
      · rename_i hcontrol
        have hdigits := hexDigit_ne (n := c.toNat / 16) (by omega)
        have hdigits' := hexDigit_ne (n := c.toNat % 16) (by omega)
        exact (reads_escape 'u').append (.cons rfl (.cons rfl
          (.cons (next?_quoted hdigits) (.cons (next?_quoted hdigits') .nil))))
      · exact .cons (next?_quoted ⟨by simpa using hslash, by simpa using hquote⟩) .nil

/-- A quoted text ends at its last quote, whatever it is the quoted form of. -/
theorem reads_quoteChars (cs : List Char) : Reads .plain (quoteChars cs) .plain ['"'] :=
  .append (.cons rfl (.flatMap reads_escapeChar cs)) (.single rfl)

/-- What a character leaves in a pattern does not end the pattern. -/
theorem reads_patternChar (c : Char) : Reads .pattern (patternChar c) .pattern [] := by
  unfold patternChar
  split
  · exact .nil
  · rename_i hslash
    split
    · exact .cons rfl (.cons rfl .nil)
    · rename_i hsign
      have hne : c ≠ '\\' := by
        rintro rfl
        exact hsign (by decide)
      exact .cons (by simp [Mode.next?, hne, show c ≠ '/' by simpa using hslash]) .nil

/-- A pattern ends at its last slash, whatever text it is the pattern of. -/
theorem reads_patternChars (cs : List Char) : Reads .plain (patternChars cs) .plain ['/'] :=
  .append (.cons rfl (.flatMap reads_patternChar cs)) (.cons rfl (.single rfl))

/-! ### Words -/

/-- The characters between words: blanks, punctuation and placeholders. -/
def separators : List Char :=
  [' ', '\n', '(', ')', '\x7b', '\x7d', ',', ':', '"', '/']

/-- Whether a character stands between words. -/
def isSeparator (c : Char) : Bool :=
  separators.contains c

/-- The words of a text: what stands between separators. -/
def words (cs : List Char) : List String :=
  ((cs.splitOnP isSeparator).filter (!·.isEmpty)).map String.ofList

/-- A text is a single word. -/
def IsWord (w : String) : Prop :=
  w.toList ≠ [] ∧ ∀ c ∈ w.toList, isSeparator c = false

instance (w : String) : Decidable (IsWord w) :=
  decidable_of_iff (w.toList ≠ [] ∧ w.toList.all (!isSeparator ·) = true) (by
    simp only [IsWord, List.all_eq_true, Bool.not_eq_true'])

/-- Whether a text starts with a separator. -/
def startsApart : List Char → Bool
  | [] => false
  | c :: _ => isSeparator c

/-- Characters that open no literal are kept. -/
theorem reads_of_forall {cs : List Char} (h : ∀ c ∈ cs, c ≠ '"' ∧ c ≠ '/') :
    Reads .plain cs .plain cs := by
  induction cs with
  | nil => exact .nil
  | cons c cs ih =>
    have hc := h c List.mem_cons_self
    exact .cons (by simp [Mode.next?, hc]) (ih fun d hd => h d (List.mem_cons_of_mem _ hd))

theorem reads_word {w : String} (hw : IsWord w) : Reads .plain w.toList .plain w.toList := by
  refine reads_of_forall fun c hc => ⟨?_, ?_⟩
  all_goals
    rintro rfl
    exact absurd (hw.2 _ hc) (by decide)

theorem words_cons {c : Char} (hc : isSeparator c = true) (cs : List Char) :
    words (c :: cs) = words cs := by
  simp [words, List.splitOnP_cons_eq_if_modifyHead, hc]

theorem words_append {w : String} (hw : IsWord w) {cs : List Char} (hcs : startsApart cs = true) :
    words (w.toList ++ cs) = w :: words cs := by
  cases cs with
  | nil => cases hcs
  | cons c cs =>
    rw [words_cons hcs, words, List.splitOnP_append_cons_of_forall_mem hw.2 c hcs,
      List.filter_cons_of_pos (by simpa using hw.1), List.map_cons, String.ofList_toList]
    rfl

theorem startsApart_append {cs ds : List Char} (h : cs = [] ∨ startsApart cs = true)
    (hds : startsApart ds = true) : startsApart (cs ++ ds) = true := by
  cases cs with
  | nil => exact hds
  | cons c cs => simpa [startsApart] using h

theorem startsApart_append_left {cs : List Char} (h : startsApart cs = true) (ds : List Char) :
    startsApart (cs ++ ds) = true := by
  cases cs with
  | nil => cases h
  | cons c cs => exact h

/-! ### Texts that differ in their literals only -/

/-- Two texts are made of the same words, for which `W` holds, and of the same separators,
with literals of one sort at the same places. Each word has a separator behind it. -/
inductive Alike (W : String → Prop) : List Char → List Char → Prop
  | nil : Alike W [] []
  | separator {c : Char} {as bs : List Char} (hc : isSeparator c = true)
      (hquote : c ≠ '"') (hslash : c ≠ '/') (h : Alike W as bs) : Alike W (c :: as) (c :: bs)
  | word {w : String} {as bs : List Char} (hword : IsWord w) (hW : W w)
      (has : startsApart as = true) (hbs : startsApart bs = true) (h : Alike W as bs) :
      Alike W (w.toList ++ as) (w.toList ++ bs)
  | quoted (s t : List Char) {as bs : List Char} (h : Alike W as bs) :
      Alike W (quoteChars s ++ as) (quoteChars t ++ bs)
  | pattern (s t : List Char) {as bs : List Char} (h : Alike W as bs) :
      Alike W (patternChars s ++ as) (patternChars t ++ bs)

namespace Alike

variable {W : String → Prop} {as bs cs ds : List Char}

theorem append (h : Alike W as bs) (h' : Alike W cs ds) : Alike W (as ++ cs) (bs ++ ds) := by
  induction h with
  | nil => exact h'
  | separator hc hquote hslash _ ih => exact .separator hc hquote hslash ih
  | word hword hW has hbs _ ih =>
    rw [List.append_assoc, List.append_assoc]
    exact .word hword hW (startsApart_append_left has _) (startsApart_append_left hbs _) ih
  | quoted s t _ ih =>
    rw [List.append_assoc, List.append_assoc]
    exact .quoted s t ih
  | pattern s t _ ih =>
    rw [List.append_assoc, List.append_assoc]
    exact .pattern s t ih

/-- A text that is like another one is like itself. -/
theorem left (h : Alike W as bs) : Alike W as as := by
  induction h with
  | nil => exact .nil
  | separator hc hquote hslash _ ih => exact .separator hc hquote hslash ih
  | word hword hW has _ _ ih => exact .word hword hW has has ih
  | quoted s _ _ ih => exact .quoted s s ih
  | pattern s _ _ ih => exact .pattern s s ih

/-- Texts that are alike have one masked text, and all words in it are words for which `W`
holds. -/
theorem mask_eq (h : Alike W as bs) : ∃ out, mask .plain as = some out ∧
    mask .plain bs = some out ∧ ∀ w ∈ words out, W w := by
  -- the masked text starts as the text does, which keeps the words in it apart
  suffices ∃ out, mask .plain as = some out ∧ mask .plain bs = some out ∧
      startsApart out = startsApart as ∧ ∀ w ∈ words out, W w by
    obtain ⟨out, has, hbs, -, hwords⟩ := this
    exact ⟨out, has, hbs, hwords⟩
  induction h with
  | nil => exact ⟨[], rfl, rfl, rfl, by simp [words]⟩
  | @separator c _ _ hc hquote hslash _ ih =>
    obtain ⟨out, has, hbs, -, hwords⟩ := ih
    have hread : Reads .plain [c] .plain [c] := .single (by simp [Mode.next?, hquote, hslash])
    refine ⟨c :: out, ?_, ?_, rfl, by rwa [words_cons hc]⟩
    · exact (hread _).trans (by rw [has]; rfl)
    · exact (hread _).trans (by rw [hbs]; rfl)
  | @word w as bs hword hW hsep hsep' _ ih =>
    obtain ⟨out, has, hbs, hstart, hwords⟩ := ih
    rw [hsep] at hstart
    refine ⟨w.toList ++ out, ?_, ?_, ?_, ?_⟩
    · rw [reads_word hword, has, Option.map_some]
    · rw [reads_word hword, hbs, Option.map_some]
    · cases hw : w.toList with
      | nil => exact absurd hw hword.1
      | cons c cs => rfl
    · rw [words_append hword hstart]
      intro v hv
      rcases List.mem_cons.1 hv with rfl | hv
      · exact hW
      · exact hwords v hv
  | quoted s t _ ih =>
    obtain ⟨out, has, hbs, -, hwords⟩ := ih
    refine ⟨'"' :: out, ?_, ?_, rfl, by rwa [words_cons (by decide)]⟩
    · rw [reads_quoteChars, has]
      rfl
    · rw [reads_quoteChars, hbs]
      rfl
  | pattern s t _ ih =>
    obtain ⟨out, has, hbs, -, hwords⟩ := ih
    refine ⟨'/' :: out, ?_, ?_, rfl, by rwa [words_cons (by decide)]⟩
    · rw [reads_patternChars, has]
      rfl
    · rw [reads_patternChars, hbs]
      rfl

end Alike

/-! ### Texts that need a separator behind them -/

/-- Two texts are alike once a separator follows. -/
def OpenAlike (W : String → Prop) (as bs : List Char) : Prop :=
  ∀ cs ds, startsApart cs = true → startsApart ds = true → Alike W cs ds →
    Alike W (as ++ cs) (bs ++ ds)

/-- A text is empty or starts with a separator. -/
def IsApart (cs : List Char) : Prop :=
  cs = [] ∨ startsApart cs = true

theorem IsApart.append {cs ds : List Char} (h : IsApart cs) (h' : IsApart ds) :
    IsApart (cs ++ ds) := by
  rcases h with rfl | h
  · exact h'
  · exact .inr (startsApart_append_left h ds)

namespace OpenAlike

variable {W : String → Prop} {as bs cs ds : List Char}

theorem nil : OpenAlike W [] [] := fun _ _ _ _ h => h

theorem word {w : String} (hword : IsWord w) (hW : W w) : OpenAlike W w.toList w.toList :=
  fun _ _ hcs hds h => .word hword hW hcs hds h

theorem ofAlike (h : Alike W as bs) : OpenAlike W as bs := fun _ _ _ _ h' => h.append h'

theorem append (h : OpenAlike W as bs) (h' : OpenAlike W cs ds) (hcs : IsApart cs)
    (hds : IsApart ds) : OpenAlike W (as ++ cs) (bs ++ ds) := fun _ _ h₁ h₂ hrest => by
  rw [List.append_assoc, List.append_assoc]
  exact h _ _ (startsApart_append hcs h₁) (startsApart_append hds h₂) (h' _ _ h₁ h₂ hrest)

theorem close (h : OpenAlike W as bs) (hcs : startsApart cs = true) (hds : startsApart ds = true)
    (h' : Alike W cs ds) : Alike W (as ++ cs) (bs ++ ds) :=
  h _ _ hcs hds h'

/-- Behind a text that is alike as it is, no separator is needed. -/
theorem behind (h : Alike W as bs) (h' : OpenAlike W cs ds) :
    OpenAlike W (as ++ cs) (bs ++ ds) := fun _ _ h₁ h₂ hrest => by
  rw [List.append_assoc, List.append_assoc]
  exact h.append (h' _ _ h₁ h₂ hrest)

/-- Items that need a separator, with a separating text between each two of them. -/
theorem intercalate {α : Type} {sep : List Char} {f g : α → List Char} {items : List α}
    (hsep : Alike W sep sep) (hapart : startsApart sep = true)
    (h : ∀ a ∈ items, OpenAlike W (f a) (g a)) :
    OpenAlike W (sep.intercalate (items.map f)) (sep.intercalate (items.map g)) := by
  induction items with
  | nil => exact nil
  | cons a rest ih =>
    obtain ⟨ha, hrest⟩ := List.forall_mem_cons.1 h
    cases rest with
    | nil => simpa using ha
    | cons b rest =>
      simp only [List.map_cons] at ih ⊢
      rw [List.intercalate_cons_cons, List.intercalate_cons_cons, List.append_assoc,
        List.append_assoc]
      have happart {tail : List Char} : IsApart (sep ++ tail) :=
        .inr (startsApart_append_left hapart tail)
      exact ha.append (behind hsep (ih hrest)) happart happart

end OpenAlike

/-! ### Fixed texts -/

/-- The words of a text without literals that ends with a separator; `word` is the part of
a word that stands before the text. -/
def closedWords : List Char → List Char → Option (List String)
  | word, [] => if word.isEmpty then some [] else none
  | word, c :: cs =>
    if c == '"' || c == '/' then none
    else if isSeparator c then
      (closedWords [] cs).map fun ws => if word.isEmpty then ws else String.ofList word :: ws
    else closedWords (word ++ [c]) cs

/-- A fixed text is like itself. -/
theorem Alike.fixed {W : String → Prop} {word cs : List Char} {ws : List String}
    (hword : ∀ c ∈ word, isSeparator c = false) (h : closedWords word cs = some ws)
    (hws : ∀ w ∈ ws, W w) : Alike W (word ++ cs) (word ++ cs) := by
  induction cs generalizing word ws with
  | nil =>
    simp only [closedWords] at h
    split at h
    · rename_i hnil
      rw [List.isEmpty_iff.1 hnil]
      exact .nil
    · cases h
  | cons c cs ih =>
    simp only [closedWords] at h
    split at h
    · cases h
    rename_i hliteral
    obtain ⟨hquote, hslash⟩ : c ≠ '"' ∧ c ≠ '/' := by simpa using hliteral
    split at h
    · rename_i hc
      obtain ⟨rest, hrest, rfl⟩ := Option.map_eq_some_iff.1 h
      cases word with
      | nil => exact .separator hc hquote hslash (ih (by simp) hrest hws)
      | cons d word =>
        obtain ⟨hW, hws⟩ := List.forall_mem_cons.1 hws
        have htail := Alike.separator hc hquote hslash (ih (by simp) hrest hws)
        have hapart : startsApart (c :: cs) = true := hc
        have hisWord : IsWord (String.ofList (d :: word)) := ⟨by simp, by simpa using hword⟩
        simpa using Alike.word hisWord hW hapart hapart htail
    · rename_i hc
      have hlonger : ∀ d ∈ word ++ [c], isSeparator d = false := by
        intro d hd
        rcases List.mem_append.1 hd with hd | hd
        · exact hword d hd
        · simpa [List.mem_singleton.1 hd] using hc
      simpa using ih hlonger h hws

end PressRegister.Text
