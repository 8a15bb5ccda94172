import Echelon.Matrix.Grid
import Echelon.Operation.Reader
import Echelon.Store

/-!
# Documents

A document is the state of one reduction: the matrix, the matrices before each operation, and the
text of each operation, both oldest first. The three change together or not at all: each change
answers the next document or a fault.
-/

namespace Echelon

/-- The matrix, its history and the log of the operations that led from one to the next. -/
structure Document where
  matrix : Option Matrix
  history : List Matrix
  log : List String
  deriving DecidableEq

/-- The text of a matrix file. -/
def Matrix.fileText (path : String) (found : Except StoreFault Node) : Except Fault String :=
  match readText path "matrix file" found with
  | .ok text => .ok text
  | .error fault => .error (.unreadable fault.message)

namespace Document

/-- The document without a matrix. -/
def empty : Document := ⟨none, [], []⟩

/-- A document that starts from a matrix. -/
def start (m : Matrix) : Document := ⟨some m, [], []⟩

def isReady (d : Document) : Bool := d.matrix.isSome

/-- The matrix to show, which is empty when there is none. -/
def snapshot (d : Document) : Matrix := d.matrix.getD .empty

/-- The document that starts from rows of tokens. -/
def ofTokens (rows : List (List String)) : Except Fault Document :=
  (Matrix.ofTokens rows).map start

/-- The document that starts from a matrix text. -/
def ofText (text : String) : Except Fault Document := (Matrix.ofText text).map start

/-- The document that starts from a matrix file. -/
def ofFile (path : String) (found : Except StoreFault Node) : Except Fault Document := do
  ofText (← Matrix.fileText path found)

/-- The document after the operation that a text stands for. -/
def apply (d : Document) (text : String) : Except Fault Document :=
  match d.matrix with
  | none => .error .noMatrix
  | some m => do
    let text := Text.trimmed text
    let next ← m.apply (← Operation.parse text)
    return ⟨some next, d.history ++ [m], d.log ++ [text]⟩

/-- The document before the latest operation, and the text of that operation. -/
def undo (d : Document) : Except Fault (Document × String) :=
  if d.matrix.isNone then .error .noMatrix
  else
    match d.history.getLast? with
    | none => .error .emptyHistory
    | some previous =>
      .ok (⟨some previous, d.history.dropLast, d.log.dropLast⟩, d.log.getLast?.getD "")

end Document

end Echelon
