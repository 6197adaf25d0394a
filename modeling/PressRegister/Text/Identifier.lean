/-!
# Identifiers

Names of predicates, facets, types and variables. An identifier may start with a
tilde, which asks for an edge against its direction, and may hold one dot.

## Main definitions

* `isSimpleName`: a name of ASCII letters, digits and underscores that starts with no digit.
* `isIdentifier`: an identifier.
-/

namespace PressRegister.Text

/-- Whether a character may start a name. -/
def isNameStart (c : Char) : Bool :=
  c.isAlpha || c == '_'

/-- Whether a character may stand inside a name. -/
def isNameChar (c : Char) : Bool :=
  c.isAlphanum || c == '_'

/-- Whether a text is a name without tilde and dot. -/
def isSimpleName : List Char → Bool
  | [] => false
  | c :: rest => isNameStart c && rest.all isNameChar

/-- Whether a text is a simple name, or two of them joined by a dot. -/
def isDottedName (cs : List Char) : Bool :=
  match cs.dropWhile (· != '.') with
  | [] => isSimpleName cs
  | _ :: rest => isSimpleName (cs.takeWhile (· != '.')) && isSimpleName rest

/-- Whether a text is an identifier. -/
def isIdentifierChars : List Char → Bool
  | '~' :: rest => isDottedName rest
  | cs => isDottedName cs

/-- Whether a text is an identifier. -/
def isIdentifier (s : String) : Bool :=
  isIdentifierChars s.toList

end PressRegister.Text
