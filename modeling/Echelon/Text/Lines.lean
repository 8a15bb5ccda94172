/-!
# Lines

A line ends at a line feed, and a carriage return right before the line feed belongs to the end.
A text that ends with a line feed has no further line after it.
-/

namespace Echelon.Text

/-- A line without the carriage return at its end. -/
def dropReturn (line : List Char) : List Char :=
  if line.getLast? = some '\r' then line.dropLast else line

/-- The lines of a text. -/
def lines (text : List Char) : List (List Char) :=
  let pieces := text.splitOn '\n'
  let last := pieces.getLast?.getD []
  pieces.dropLast.map dropReturn ++ if last.isEmpty then [] else [last]

end Echelon.Text
