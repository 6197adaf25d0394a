/-!
# Lines

A line ends at a line feed, or at the end of the text if anything stands there.
A carriage return before the line feed belongs to the line's end.

## Main definitions

* `lines`: the lines of a text.
* `joinLines`: lines put together again, with a line feed between two of them.
-/

namespace PressRegister.Text

/-- A line without the carriage return that belongs to its end. -/
def dropReturn (line : List Char) : List Char :=
  if line.getLast? = some '\r' then line.dropLast else line

/-- The lines of the rest of a text, given the start of the current line. -/
def linesAfter : List Char → List Char → List (List Char)
  | current, [] => if current.isEmpty then [] else [current]
  | current, c :: rest =>
    if c = '\n' then dropReturn current :: linesAfter [] rest
    else linesAfter (current ++ [c]) rest

/-- The lines of a text. -/
def lines (cs : List Char) : List (List Char) :=
  linesAfter [] cs

/-- Lines put together, with a line feed between two of them. -/
def joinLines (ls : List (List Char)) : List Char :=
  ['\n'].intercalate ls

end PressRegister.Text
