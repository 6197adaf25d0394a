import PressRegister.Text.LetterCase

/-!
# Slugs

A slug is a text in lower-case ASCII letters and digits, in groups joined by
single underscores. Common Latin letters with diacritics are folded to their
base letter; every other character separates two groups.

## Main definitions

* `foldLetter`: what a lower-case letter leaves in a slug.
* `slug`: the slug of a text.

## Main results

* `slugChars_append`: the slug of a text is built from left to right.
-/

namespace PressRegister.Text

/-- What a lower-case letter leaves in a slug; `none` for a separator. -/
def foldLetter (c : Char) : Option (List Char) :=
  if c.isAlphanum then some [c]
  else if "äáàâãå".toList.contains c then some ['a']
  else if "öóòôõø".toList.contains c then some ['o']
  else if "üúùû".toList.contains c then some ['u']
  else if "éèêë".toList.contains c then some ['e']
  else if "íìîï".toList.contains c then some ['i']
  else if c == 'ß' then some ['s', 's']
  else if c == 'ç' then some ['c']
  else if c == 'ñ' then some ['n']
  else none

/-- A slug under construction: what is written, and whether a separator is due. -/
structure SlugState where
  written : List Char
  separatorDue : Bool
  deriving Repr, DecidableEq

/-- Takes in one lower-case letter. A separator is written only between two groups. -/
def SlugState.step (st : SlugState) (c : Char) : SlugState :=
  match foldLetter c with
  | some folded =>
    let gap := if st.separatorDue && !st.written.isEmpty then ['_'] else []
    ⟨st.written ++ gap ++ folded, false⟩
  | none => ⟨st.written, true⟩

/-- The slug of a text, letter by letter. -/
def slugChars (cs : List Char) : List Char :=
  ((cs.flatMap lowerLetter).foldl SlugState.step ⟨[], false⟩).written

/-- The slug of a text. -/
def slug (s : String) : String :=
  String.ofList (slugChars s.toList)

theorem slugChars_append (xs ys : List Char) :
    slugChars (xs ++ ys) =
      ((ys.flatMap lowerLetter).foldl SlugState.step
        ((xs.flatMap lowerLetter).foldl SlugState.step ⟨[], false⟩)).written := by
  simp [slugChars, List.flatMap_append, List.foldl_append]

end PressRegister.Text
