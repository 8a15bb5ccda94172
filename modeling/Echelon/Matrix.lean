import Echelon.Cell
import Echelon.Operation

/-!
# Matrices

A matrix is a list of rows of cells with its number of columns. `ofRows` accepts the rectangular
ones that have a cell. An operation is tried on the whole: `apply` answers the next matrix or the
first fault, and the matrix it started from is a value that nothing changes.
-/

namespace Echelon

/-- Rows of cells and the number of columns. -/
structure Matrix where
  rows : List (List Cell)
  width : Nat
  deriving DecidableEq

namespace Matrix

/-- The matrix without rows, which stands for no matrix at all. -/
def empty : Matrix := ⟨[], 0⟩

def height (m : Matrix) : Nat := m.rows.length

def isEmpty (m : Matrix) : Bool := m.rows.isEmpty

/-- The row at a position counted from zero. -/
def row? (m : Matrix) (row : Nat) : Option (List Cell) := m.rows[row]?

/-- The cell at a position counted from zero. -/
def cell? (m : Matrix) (row column : Nat) : Option Cell := m.rows[row]? >>= (·[column]?)

/-- The texts of the cells, row by row. -/
def texts (m : Matrix) : List (List String) := m.rows.map fun row => row.map Cell.text

/-- The matrix with the given rows, which have to be equally long and not empty. -/
def ofRows : List (List Cell) → Except Fault Matrix
  | [] => .error .emptyMatrix
  | first :: rest =>
    if first.isEmpty then .error .emptyMatrix
    else
      match ((first :: rest).zipIdx 1).find? fun (row, _) => row.length != first.length with
      | some (row, number) => .error (.ragged number first.length row.length)
      | none => .ok ⟨first :: rest, first.length⟩

/-- The cell of a token in the row with the given number. -/
def readCell (row : Nat) (token : String) : Except Fault Cell :=
  match Cell.ofToken? token with
  | some cell => .ok cell
  | none => .error (.malformedRow row token)

/-- The matrix written by rows of tokens, which have to be numbers. -/
def ofTokens (rows : List (List String)) : Except Fault Matrix := do
  let cells ← (rows.zipIdx 1).mapM fun (tokens, number) => tokens.mapM (readCell number)
  ofRows cells

/-- The numbers of a row, which may hold no fraction. -/
def numbers (m : Matrix) (row : RowName) : Except Fault (List Binary64) := do
  let index ← row.index m.height
  (m.rows.getD index []).zipIdx 1 |>.mapM fun (cell, column) =>
    match cell with
    | .number value => .ok value
    | .fraction _ _ => .error (.fractionOperand row.number column cell.text)

/-- Refuses numbers that an operation made too large. -/
def guardFinite (op : Operation) (numbers : List Binary64) : Except Fault Unit :=
  if numbers.all Binary64.isFinite then .ok () else .error (.overflow op.text)

/-- The matrix with another row in the place of the named one. -/
def replace (m : Matrix) (row : RowName) (cells : List Cell) : Matrix :=
  { m with rows := m.rows.set (row.number - 1) cells }

/-- The matrix with two rows exchanged. -/
def exchange (m : Matrix) (first second : RowName) : Matrix :=
  let a := m.rows.getD (first.number - 1) []
  let b := m.rows.getD (second.number - 1) []
  (m.replace first b).replace second a

/-- The matrix after an operation. The rows that it reads are those before the operation, so a
target that is also read is no special case. -/
def apply (m : Matrix) (op : Operation) : Except Fault Matrix := do
  op.rows.forM fun row => do discard (row.index m.height)
  match op with
  | .swap first second => return m.exchange first second
  | .scale row factor =>
    let scaled := (← m.numbers row).map (· * factor)
    guardFinite op scaled
    return m.replace row (scaled.map .number)
  | .divide row divisor =>
    if divisor.isZero then .error (.divisionByZero op.text)
    let cells ← m.numbers row
    guardFinite op (cells.map (· / divisor))
    return m.replace row (cells.map (Cell.quotient · divisor))
  | .combine target left joiner factor right =>
    let a ← m.numbers left
    let b ← m.numbers right
    let combined := List.zipWith (fun x y => joiner.join x (factor * y)) a b
    guardFinite op combined
    return m.replace target (combined.map .number)

end Matrix

end Echelon
