/-!
# Lines

A line ends at a newline, which belongs to no line; a carriage return just before that newline
goes with it.
-/

namespace GrammarKit.Text

/-- A line that ended at a newline, without the carriage return before it. -/
def dropCarriageReturn (line : List Char) : List Char :=
  if line.getLast? = some '\r' then line.dropLast else line

/-- The lines of a text: `pending` is what was read of the current line, last character first. -/
def linesFrom : (pending text : List Char) → List (List Char)
  | [], [] => []
  | pending, [] => [pending.reverse]
  | pending, '\n' :: rest => dropCarriageReturn pending.reverse :: linesFrom [] rest
  | pending, c :: rest => linesFrom (c :: pending) rest

/-- The lines of a text.  A newline at the very end opens no further line. -/
def lines (text : List Char) : List (List Char) :=
  linesFrom [] text

def joinLines : List (List Char) → List Char
  | [] => []
  | [line] => line
  | line :: rest => line ++ '\n' :: joinLines rest

end GrammarKit.Text
