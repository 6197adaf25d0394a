import PressRegister.Text.Hex
import PressRegister.Text.Unprinted

/-!
# Text shown to a reader

A text between double quotes in which every character can be seen: characters
without a printed form of their own are shown by number.

## Main definitions

* `showChar`: how one character is shown.
* `shown`: a text in its shown form.
-/

namespace PressRegister.Text

/-- How one character is shown between quotes. -/
def showChar (c : Char) : List Char :=
  if c.toNat == 0 then ['\\', '0']
  else if c == '\t' then ['\\', 't']
  else if c == '\r' then ['\\', 'r']
  else if c == '\n' then ['\\', 'n']
  else if c == '"' || c == '\\' then ['\\', c]
  else if isUnprinted c then "\\u\x7b".toList ++ hexChars c.toNat ++ ['}']
  else [c]

/-- A text in its shown form. -/
def shown (s : String) : String :=
  String.ofList ('"' :: s.toList.flatMap showChar ++ ['"'])

end PressRegister.Text
