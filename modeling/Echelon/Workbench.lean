import Echelon.Editor
import Echelon.View

/-!
# The workbench

The interactive front end without its terminal: a session with its view, an input for the matrix
and one for operations, which of them has the focus, and the help text that can cover them. Keys
become actions or edit the focused input.
-/

namespace Echelon

/-- Which input takes typed characters. -/
inductive Focus where
  | matrix
  | operation
  deriving DecidableEq, Repr

/-- What the user asked for, whatever key it was. -/
inductive Action where
  | quit
  | toggleFocus
  | setMatrix
  | insertNewline
  | submitOperation
  | undo
  | reset
  | openHelp
  deriving DecidableEq, Repr

/-- The action of a key for the focused input; other keys edit text. -/
def Action.ofKey? (focus : Focus) (key : Key) : Option Action :=
  match key.code with
  | .escape => some .quit
  | .char 'c' => if key.control then some .quit else none
  | .char 'q' => if key.control then some .quit else none
  | .char 'z' => if key.control then some .undo else none
  | .char 'r' => if key.control then some .reset else none
  | .function 1 => some .openHelp
  | .tab => some .toggleFocus
  | .backTab => some .toggleFocus
  | .enter =>
    match focus with
    | .matrix => if key.shift || key.alt then some .insertNewline else some .setMatrix
    | .operation => some .submitOperation
  | _ => none

/-- How the screen is drawn. -/
structure Appearance where
  columnWidth : Nat
  showTimer : Bool
  deriving DecidableEq, Repr

/-- The state of the interactive front end. -/
structure Workbench where
  document : Document
  view : View
  focus : Focus
  matrixInput : Editor
  operationInput : Editor
  helpOpen : Bool
  helpScroll : Nat
  appearance : Appearance
  deriving DecidableEq

namespace Workbench

/-- The workbench as it starts, without a matrix. -/
def start (appearance : Appearance) : Workbench :=
  ⟨.empty, .empty, .matrix, .empty, .empty, false, 0, appearance⟩

/-- Takes in the answer to a call: the document, and the events for the view. -/
def receive (w : Workbench) (reply : Reply) : Workbench :=
  { w with document := reply.document, view := reply.events.foldl View.handle w.view }

/-- Makes a call to the session. -/
def call (w : Workbench) (request : Call) : Workbench := w.receive (w.document.call request)

/-- The workbench with the matrix of a file, whose text goes to the matrix input. -/
def ofFile (appearance : Appearance) (path : String) (found : Except StoreFault Node) :
    Except Fault Workbench := do
  let text ← Matrix.fileText path found
  let w := start appearance
  let reply := w.document.call (.setText text)
  reply.result
  return { w.receive reply with
    matrixInput := .atEnd (Text.trimmed text)
    focus := .operation }

def toggleFocus (w : Workbench) : Workbench :=
  { w with focus := match w.focus with | .matrix => .operation | .operation => .matrix }

/-- Sets the matrix from the matrix input; on success the focus moves on. -/
def setMatrix (w : Workbench) : Workbench :=
  let reply := w.document.call (.setText w.matrixInput.text)
  { w.receive reply with focus := if reply.result.isOk then .operation else w.focus }

/-- Starts a new line in the matrix input, if it has the focus. -/
def insertNewline (w : Workbench) : Workbench :=
  match w.focus with
  | .matrix => { w with matrixInput := w.matrixInput.type '\n' }
  | .operation => w

/-- Applies the operation input and clears it, whatever comes of it. Blank input is ignored. -/
def submitOperation (w : Workbench) : Workbench :=
  let text := Text.trimmed w.operationInput.text
  if text.isEmpty then w else { w.call (.apply text) with operationInput := .empty }

def undo (w : Workbench) : Workbench := w.call .undo

/-- Clears the session and both inputs. -/
def reset (w : Workbench) : Workbench :=
  { w.call .reset with matrixInput := .empty, operationInput := .empty, focus := .matrix }

def openHelp (w : Workbench) : Workbench := { w with helpOpen := true, helpScroll := 0 }

def closeHelp (w : Workbench) : Workbench := { w with helpOpen := false }

/-- Scrolls the help text by a number of lines, no further than a 16-bit count of lines goes. -/
def scrollHelp (w : Workbench) (lines : Int) : Workbench :=
  { w with helpScroll := min 65535 (w.helpScroll + lines).toNat }

/-- The workbench after an action; quitting is left to whoever runs it. -/
def perform (w : Workbench) : Action → Workbench
  | .quit => w
  | .toggleFocus => w.toggleFocus
  | .setMatrix => w.setMatrix
  | .insertNewline => w.insertNewline
  | .submitOperation => w.submitOperation
  | .undo => w.undo
  | .reset => w.reset
  | .openHelp => w.openHelp

/-- The workbench after a text-editing key. -/
def edit (w : Workbench) (key : Key) : Workbench :=
  match w.focus with
  | .matrix => { w with matrixInput := w.matrixInput.press key }
  | .operation => { w with operationInput := w.operationInput.press key }

/-- The workbench after a key: its action, or else the edit that it makes. -/
def press (w : Workbench) (key : Key) : Workbench :=
  match Action.ofKey? w.focus key with
  | some action => w.perform action
  | none => w.edit key

/-- The workbench after a key that goes to the open help text: it is scrolled or closed. -/
def pressHelp (w : Workbench) (key : Key) : Workbench :=
  match key.code with
  | .escape => w.closeHelp
  | .char 'q' => w.closeHelp
  | .function 1 => w.closeHelp
  | .down => w.scrollHelp 1
  | .char 'j' => w.scrollHelp 1
  | .up => w.scrollHelp (-1)
  | .char 'k' => w.scrollHelp (-1)
  | _ => w

/-- The workbench a second later. -/
def tick (w : Workbench) : Workbench :=
  { w with view := { w.view with stopwatch := w.view.stopwatch.tick } }

end Workbench

end Echelon
