import Echelon.Matrix
import Echelon.Text.Lines

/-!
# Matrix text

A matrix is written with one row on a line and blanks between the numbers. Blanks around the text
and around a line do not count, and lines with nothing else are no rows. Lines end at line feeds
only; other line ends are blanks.
-/

namespace Echelon.Matrix

/-- The tokens of each row of a matrix text. Proofs about a document take them as they are: it is
irreducible, as evaluating it on a text that is not known goes deep for nothing. -/
@[irreducible]
def tokenRows (text : String) : List (List String) :=
  let lines := (Text.lines (Text.trim text.toList)).map Text.trim
  (lines.filter fun line => !line.isEmpty).map fun line => (Text.words line).map String.ofList

/-- The tokens of each row of a matrix text, of which there has to be one. -/
def splitText (text : String) : Except Fault (List (List String)) :=
  let rows := tokenRows text
  if rows.isEmpty then .error .emptyMatrix else .ok rows

/-- The matrix that a text describes. -/
def ofText (text : String) : Except Fault Matrix := do ofTokens (← splitText text)

end Echelon.Matrix
