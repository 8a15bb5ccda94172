import Echelon.Document

/-!
# Sessions

A session is a document that reports what happens to it. Each call answers with a result, the
events that tell a front end what changed, and the next document. A refused call changes nothing
and reports one failure.
-/

namespace Echelon

/-- What a front end learns about a session. -/
inductive Event where
  /-- A matrix was set; comes before the change that it causes. -/
  | matrixReady (matrix : Matrix)
  /-- The matrix to show. -/
  | matrixChanged (matrix : Matrix)
  /-- Everything was cleared; comes before the change that it causes. -/
  | reset
  /-- An operation was applied. -/
  | operationLogged (text : String)
  /-- The latest operation was undone. -/
  | operationLogRemoved
  /-- A call was refused. -/
  | failed (kind : FaultKind) (message : String)
  deriving DecidableEq

/-- A request to a session. -/
inductive Call where
  | setTokens (rows : List (List String))
  | setText (text : String)
  | load (path : String) (found : Except StoreFault Node)
  | apply (text : String)
  | undo
  | reset

/-- The answer to a call. -/
structure Reply where
  result : Except Fault Unit
  events : List Event
  document : Document

namespace Reply

/-- The answer that refuses a call and keeps the document. -/
def refuse (d : Document) (fault : Fault) : Reply :=
  ⟨.error fault, [.failed fault.kind fault.message], d⟩

/-- The answer to setting a matrix. -/
def ofStart (d : Document) : Except Fault Document → Reply
  | .ok next =>
    ⟨.ok (), [.matrixReady next.snapshot, .matrixChanged next.snapshot], next⟩
  | .error fault => refuse d fault

/-- The answer to applying an operation. -/
def ofApply (d : Document) : Except Fault Document → Reply
  | .ok next =>
    ⟨.ok (), .matrixChanged next.snapshot :: (next.log.getLast?.map .operationLogged).toList, next⟩
  | .error fault => refuse d fault

/-- The answer to undoing an operation; having nothing to undo is no failure. -/
def ofUndo (d : Document) : Except Fault (Document × String) → Reply
  | .ok (next, _) => ⟨.ok (), [.operationLogRemoved, .matrixChanged next.snapshot], next⟩
  | .error .emptyHistory => ⟨.ok (), [], d⟩
  | .error fault => refuse d fault

end Reply

/-- Answers a call. -/
def Document.call (d : Document) : Call → Reply
  | .setTokens rows => .ofStart d (ofTokens rows)
  | .setText text => .ofStart d (ofText text)
  | .load path found => .ofStart d (ofFile path found)
  | .apply text => .ofApply d (d.apply text)
  | .undo => .ofUndo d d.undo
  | .reset => ⟨.ok (), [.reset, .matrixChanged .empty], .empty⟩

end Echelon
