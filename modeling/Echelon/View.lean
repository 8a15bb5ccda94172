import Echelon.Session

/-!
# The view of a session

What a front end shows of a session, kept up to date by the session's events alone.
-/

namespace Echelon

/-- The seconds since a matrix was set, advanced by whoever keeps the time. -/
structure Stopwatch where
  running : Bool
  seconds : Nat
  deriving DecidableEq, Repr

namespace Stopwatch

def stopped : Stopwatch := ⟨false, 0⟩

def start (_ : Stopwatch) : Stopwatch := ⟨true, 0⟩

/-- A second goes by. -/
def tick (s : Stopwatch) : Stopwatch := if s.running then ⟨true, s.seconds + 1⟩ else s

def text (s : Stopwatch) : String := "Time: " ++ s.seconds.repr ++ " seconds"

end Stopwatch

/-- The latest thing that the user should read. -/
inductive Notice where
  | info (text : String)
  | error (kind : FaultKind) (message : String)
  deriving DecidableEq, Repr

/-- A copy of what a session reported. -/
structure View where
  matrix : Matrix
  log : List String
  stopwatch : Stopwatch
  notice : Option Notice
  deriving DecidableEq

namespace View

def empty : View := ⟨.empty, [], .stopped, none⟩

/-- The view after an event. -/
def handle (v : View) : Event → View
  | .matrixChanged matrix => { v with matrix }
  | .matrixReady matrix =>
    { v with
      log := []
      stopwatch := v.stopwatch.start
      notice :=
        some (.info ("Matrix set: " ++ matrix.height.repr ++ "x" ++ matrix.width.repr)) }
  | .reset => { v with log := [], stopwatch := .stopped, notice := some (.info "Reset") }
  | .operationLogged text => { v with log := v.log ++ [text], notice := none }
  | .operationLogRemoved =>
    match v.log.getLast? with
    | some text => { v with log := v.log.dropLast, notice := some (.info ("Undid " ++ text)) }
    | none => v
  | .failed kind message => { v with notice := some (.error kind message) }

end View

end Echelon
