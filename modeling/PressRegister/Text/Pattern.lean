/-!
# Search patterns

A text as a pattern that matches itself, whatever its case. Characters with a
meaning in patterns are escaped; a slash would end the pattern and is left out.

## Main definitions

* `isPatternSign`: the characters with a meaning in patterns.
* `patternChars`: the pattern for a text.
-/

namespace PressRegister.Text

/-- Whether a character has a meaning of its own in a pattern. -/
def isPatternSign (c : Char) : Bool :=
  "\\.+*?()|[]\x7b\x7d^$#&-~".toList.contains c

/-- What one character leaves in a pattern. -/
def patternChar (c : Char) : List Char :=
  if c == '/' then [] else if isPatternSign c then ['\\', c] else [c]

/-- The pattern that matches a text in any case, between its slashes. -/
def patternChars (cs : List Char) : List Char :=
  '/' :: cs.flatMap patternChar ++ ['/', 'i']

end PressRegister.Text
