import Echelon.Session

/-!
# The journal

What a session notes while it works, for whoever looks for the cause of trouble. The journal is no
part of a document: how much of it is kept, where, and how it is written is decided elsewhere.
-/

namespace Echelon

/-- The name of a kind of fault. -/
def FaultKind.name : FaultKind → String
  | malformedSwap => "InvalidSwapSyntax"
  | unrecognized => "UnrecognizedOperationSyntax"
  | divisionByZero => "DivisionByZero"
  | rowOutOfRange => "RowOutOfRange"
  | noMatrix => "NoMatrixLoaded"
  | malformedRow => "MalformedRow"
  | ragged => "RaggedMatrix"
  | emptyHistory => "EmptyHistory"
  | emptyMatrix => "EmptyMatrix"
  | scaleRowMismatch => "ScaleRowMismatch"
  | fractionOperand => "FractionOperand"
  | overflow => "NumericOverflow"
  | unreadable => "FileUnreadable"

namespace Journal

/-- How much an entry matters. -/
inductive Level where
  | info
  | debug
  deriving DecidableEq, Repr

/-- The part of the program that notes an entry. -/
inductive Source where
  | document
  | documentFiles
  | session
  | commandMode
  deriving DecidableEq, Repr

/-- Where a journal is written. -/
inductive Place where
  /-- Among the complaints of a run. -/
  | complaints
  /-- At the end of a file. -/
  | file
  deriving DecidableEq, Repr

/-- A note: what happened, and with what, by name. -/
structure Entry where
  level : Level
  source : Source
  message : String
  fields : List (String × String)
  deriving DecidableEq, Repr

namespace Entry

def matrixSet (m : Matrix) : Entry :=
  ⟨.debug, .document, "matrix set", [("rows", m.height.repr), ("cols", m.width.repr)]⟩

def applied (op : Operation) (depth : Nat) : Entry :=
  ⟨.debug, .document, "applied row operation", [("command", op.text), ("depth", depth.repr)]⟩

def undone (text : String) (depth : Nat) : Entry :=
  ⟨.debug, .document, "undid row operation", [("operation", text), ("depth", depth.repr)]⟩

def cleared : Entry := ⟨.debug, .document, "document reset", []⟩

def loading (path : String) : Entry :=
  ⟨.info, .documentFiles, "loading matrix file", [("path", path)]⟩

def exported (path : String) : Entry :=
  ⟨.info, .documentFiles, "exported markdown report", [("path", path)]⟩

/-- An entry about a fault. -/
def ofFault (message : String) (fault : Fault) : Entry :=
  ⟨.debug, .session, message, [("kind", fault.kind.name), ("error", fault.message)]⟩

def rejected (fault : Fault) : Entry := ofFault "operation rejected" fault

def fileRejected (fault : Fault) : Entry := ofFault "matrix file rejected" fault

def nothingToUndo : Entry := ⟨.debug, .session, "undo requested with empty history", []⟩

def finished (operations : Nat) : Entry :=
  ⟨.info, .commandMode, "command mode finished", [("operations", operations.repr)]⟩

end Entry

/-- What setting a matrix notes; `refused` is the entry for a fault. -/
def ofStart (refused : Fault → Entry) : Except Fault Document → List Entry
  | .ok d => [.matrixSet d.snapshot]
  | .error fault => [refused fault]

end Journal

/-- What answering a call notes. -/
def Document.journal (d : Document) : Call → List Journal.Entry
  | .setTokens rows => Journal.ofStart .rejected (ofTokens rows)
  | .setText text => Journal.ofStart .rejected (ofText text)
  | .load path found =>
    match Matrix.fileText path found with
    | .ok text => .loading path :: Journal.ofStart .fileRejected (ofText text)
    | .error fault => [.fileRejected fault]
  | .apply text =>
    match d.apply text with
    | .ok next =>
      (Operation.parse (Text.trimmed text)).toOption.toList.map fun op =>
        .applied op next.history.length
    | .error fault => [.rejected fault]
  | .undo =>
    match d.undo with
    | .ok (next, text) => [.undone text next.history.length]
    | .error .emptyHistory => [.nothingToUndo]
    | .error fault => [.rejected fault]
  | .reset => [.cleared]

end Echelon
