import Echelon.Number.Literal
import Echelon.Number.Numeral
import Echelon.Text.Blank

/-!
# Matrix cells

A cell holds a number, or a fraction that a row division left because it did not come out even.
A fraction keeps the two numbers it came from, neither reduced nor made positive. It is there to
be shown and moved, not to be calculated with.
-/

namespace Echelon

/-- The content of one matrix cell. -/
inductive Cell where
  | number (value : Binary64)
  | fraction (numerator denominator : Binary64)
  deriving DecidableEq, Inhabited

namespace Cell

/-- The cell that a token of matrix text stands for; blanks around the number do not matter. -/
def ofToken? (token : String) : Option Cell :=
  (Literal.parse? (Text.trim token.toList)).map number

/-- The number in a cell, if it holds one. -/
def number? : Cell → Option Binary64
  | number value => some value
  | fraction _ _ => none

def isFraction : Cell → Bool
  | number _ => false
  | fraction _ _ => true

/-- The quotient when the divisor goes evenly into the number, and the fraction otherwise. -/
def quotient (value divisor : Binary64) : Cell :=
  if (value % divisor).isZero then number (value / divisor) else fraction value divisor

/-- The text shown for a cell. -/
def text : Cell → String
  | number value => value.text
  | fraction numerator denominator => numerator.text ++ "/" ++ denominator.text

end Cell

end Echelon
