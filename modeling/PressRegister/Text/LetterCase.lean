import PressRegister.Text.CodePoints
import PressRegister.Text.LetterCase.Tables

/-!
# Upper and lower case

Case mapping over all letters. A letter may turn into several letters, and a
capital sigma turns into the final form at the end of a word.

## Main definitions

* `lowerLetter`, `upperLetter`: the case mappings of one letter.
* `lower`: a text in lower case.
* `capitalize`: a text with its first letter in upper case.
-/

namespace PressRegister.Text

open LetterCase

/-- The image of a code point under the first run that moves it. -/
def shiftByRun (runs : List (Nat × Nat × Nat × Int)) (c : Char) : Char :=
  match runs.find? fun r =>
      r.1 ≤ c.toNat && c.toNat ≤ r.2.1 && (c.toNat - r.1) % r.2.2.1 == 0 with
  | some r => Char.ofNat (Int.ofNat c.toNat + r.2.2.2).toNat
  | none => c

/-- The lower-case form of a letter. A dotted capital I keeps its dot as a mark. -/
def lowerLetter (c : Char) : List Char :=
  if c.toNat < 0x80 then [c.toLower]
  else if c.toNat == 0x130 then ['i', Char.ofNat 0x307]
  else [shiftByRun lowerRuns c]

/-- The upper-case form of a letter. -/
def upperLetter (c : Char) : List Char :=
  if c.toNat < 0x80 then [c.toUpper]
  else match upperExpansions.find? (·.1 == c.toNat) with
    | some e => e.2.map Char.ofNat
    | none => [shiftByRun upperRuns c]

/-- Whether the nearest character that case depends on is a letter with case. -/
def meetsCased (cs : List Char) : Bool :=
  match cs.dropWhile fun c => inRanges ignorableRanges c.toNat with
  | [] => false
  | c :: _ => inRanges casedRanges c.toNat

/-- Lower case of the rest of a text, given the characters before it in reverse. -/
def lowerAfter : List Char → List Char → List Char
  | _, [] => []
  | before, c :: rest =>
    (if c == 'Σ' then
      [if meetsCased before && !meetsCased rest then 'ς' else 'σ']
    else lowerLetter c) ++ lowerAfter (c :: before) rest

/-- A text in lower case. -/
def lower (s : String) : String :=
  String.ofList (lowerAfter [] s.toList)

/-- A text with its first letter in upper case. -/
def capitalize : List Char → List Char
  | [] => []
  | c :: rest => upperLetter c ++ rest

end PressRegister.Text
