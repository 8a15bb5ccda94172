/-!
# Faults

Everything that can go wrong with a matrix, an operation or a matrix file, each with the data that
its message shows. A fault never leaves anything half done, so it carries no state.
-/

namespace Echelon

/-- The kind of a fault, without its data. -/
inductive FaultKind where
  | malformedSwap
  | unrecognized
  | divisionByZero
  | rowOutOfRange
  | noMatrix
  | malformedRow
  | ragged
  | emptyHistory
  | emptyMatrix
  | scaleRowMismatch
  | fractionOperand
  | overflow
  | unreadable
  deriving DecidableEq, Repr

/-- A reason why a request was refused. Rows and columns count from one. -/
inductive Fault where
  | malformedSwap (text : String)
  | unrecognized (text : String)
  | divisionByZero (text : String)
  | rowOutOfRange (row rowCount : Nat)
  | noMatrix
  | malformedRow (row : Nat) (token : String)
  | ragged (row expected found : Nat)
  | emptyHistory
  | emptyMatrix
  | scaleRowMismatch (target read : Nat)
  | fractionOperand (row column : Nat) (value : String)
  | overflow (operation : String)
  | unreadable (cause : String)
  deriving DecidableEq, Repr

namespace Fault

def kind : Fault → FaultKind
  | malformedSwap _ => .malformedSwap
  | unrecognized _ => .unrecognized
  | divisionByZero _ => .divisionByZero
  | rowOutOfRange _ _ => .rowOutOfRange
  | noMatrix => .noMatrix
  | malformedRow _ _ => .malformedRow
  | ragged _ _ _ => .ragged
  | emptyHistory => .emptyHistory
  | emptyMatrix => .emptyMatrix
  | scaleRowMismatch _ _ => .scaleRowMismatch
  | fractionOperand _ _ _ => .fractionOperand
  | overflow _ => .overflow
  | unreadable _ => .unreadable

/-- How operations are written, one example of each form. -/
def operationUsage : String :=
  "Please use \"R1 = R1 + R2\", \"R1 = R1 * 2\", \"R1 = R1 / 3\", or \"R1 <> R2\"."

/-- The text shown for a fault. -/
def message : Fault → String
  | malformedSwap text =>
    "Invalid row swap operation: " ++ text ++ ". Please use \"R1 <> R2\"."
  | unrecognized text => "Invalid operation format: " ++ text ++ ". " ++ operationUsage
  | divisionByZero text => "Cannot divide a row by zero: " ++ text
  | rowOutOfRange row rowCount =>
    "Row R" ++ row.repr ++ " is out of range (matrix has " ++ rowCount.repr ++ " rows)"
  | noMatrix => "No matrix loaded"
  | malformedRow row token => "Row " ++ row.repr ++ ": '" ++ token ++ "' is not a number"
  | ragged row expected found =>
    "All rows must have the same number of columns (row " ++ row.repr ++ " has " ++ found.repr ++
      ", expected " ++ expected.repr ++ ")"
  | emptyHistory => "Nothing to undo"
  | emptyMatrix => "Please enter a valid matrix."
  | scaleRowMismatch target read =>
    "Row scaling must assign to the row it reads: R" ++ target.repr ++ " = R" ++ read.repr ++
      " (use R" ++ target.repr ++ " = R" ++ target.repr ++ " ...)"
  | fractionOperand row column value =>
    "Cell R" ++ row.repr ++ "C" ++ column.repr ++ " holds the fraction " ++ value ++
      ", which cannot be used as an operand"
  | overflow operation => operation ++ " would leave a value too large to represent"
  | unreadable cause => "IO error: " ++ cause

/-- The message followed by its cause, where the cause is a separate failure. -/
def trace : Fault → String
  | unreadable cause => (unreadable cause).message ++ ": " ++ cause
  | fault => fault.message

end Fault

end Echelon
