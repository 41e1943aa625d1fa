/-!
# Lines

A line ends at a line feed, and a carriage return right before the line feed
belongs to the line's end. A carriage return anywhere else is an ordinary
character. A text that does not end in a line feed has its rest as last line;
the empty text has no line.
-/

namespace WordMachine.Text

/-- A line without the carriage return it may end in. -/
def dropReturn (line : List Char) : List Char :=
  if line.getLast? = some '\r' then line.dropLast else line

/-- The lines of a text, without their ends. -/
def lines (cs : List Char) : List (List Char) :=
  let pieces := cs.splitOnP (· == '\n')
  let rest := pieces.getLast?.filter fun line => !line.isEmpty
  pieces.dropLast.map dropReturn ++ rest.toList

end WordMachine.Text
