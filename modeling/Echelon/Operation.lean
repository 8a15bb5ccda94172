import Echelon.Fault
import Echelon.Number.Numeral

/-!
# Row operations

The elementary operations on the rows of a matrix and their written form. Rows are named from one,
as they are written.
-/

namespace Echelon

/-- The name of a row; `R3` is number 3. -/
structure RowName where
  number : Nat
  deriving DecidableEq, Repr

namespace RowName

def text (row : RowName) : String := "R" ++ row.number.repr

/-- The position of a row among `rowCount` rows, counted from zero. -/
def index (row : RowName) (rowCount : Nat) : Except Fault Nat :=
  if 1 ≤ row.number ∧ row.number ≤ rowCount then .ok (row.number - 1)
  else .error (.rowOutOfRange row.number rowCount)

end RowName

/-- How the two rows of a combination are joined. -/
inductive Joiner where
  | plus
  | minus
  deriving DecidableEq, Repr

namespace Joiner

def join : Joiner → Binary64 → Binary64 → Binary64
  | plus, a, b => a + b
  | minus, a, b => a - b

def text : Joiner → String
  | plus => "+"
  | minus => "-"

end Joiner

/-- One elementary row operation. -/
inductive Operation where
  /-- Exchanges two rows. -/
  | swap (first second : RowName)
  /-- Multiplies a row by a factor. -/
  | scale (row : RowName) (factor : Binary64)
  /-- Divides a row by a divisor. -/
  | divide (row : RowName) (divisor : Binary64)
  /-- Puts `left` plus or minus `factor` times `right` into the target row. -/
  | combine (target left : RowName) (joiner : Joiner) (factor : Binary64) (right : RowName)
  deriving DecidableEq

namespace Operation

/-- Every row that an operation reads or writes, in written order. -/
def rows : Operation → List RowName
  | swap first second => [first, second]
  | scale row _ => [row]
  | divide row _ => [row]
  | combine target left _ _ right => [target, left, right]

/-- The written form of a factor in front of a row; the factor one is left out. -/
def coefficientText (factor : Binary64) : String :=
  if factor = .one then "" else factor.text

/-- The written form of an operation. -/
def text : Operation → String
  | swap first second => first.text ++ " <> " ++ second.text
  | scale row factor => row.text ++ " = " ++ row.text ++ " * " ++ factor.text
  | divide row divisor => row.text ++ " = " ++ row.text ++ " / " ++ divisor.text
  | combine target left joiner factor right =>
    target.text ++ " = " ++ left.text ++ " " ++ joiner.text ++ " " ++ coefficientText factor ++
      right.text

end Operation

end Echelon
