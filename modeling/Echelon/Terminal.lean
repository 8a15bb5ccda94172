import Echelon.Journal
import Echelon.Workbench

/-!
# Sittings

A sitting is the use of a workbench in a terminal. The terminal shows the workbench again whenever
something may have happened to it, and passes on what happens: keys, and time that goes by. A
sitting ends when the user quits, or when the terminal fails.
-/

namespace Echelon

namespace Workbench

/-- What an action notes in the journal. -/
def journal (w : Workbench) : Action → List Journal.Entry
  | .setMatrix => w.document.journal (.setText w.matrixInput.text)
  | .submitOperation =>
    let text := Text.trimmed w.operationInput.text
    if text.isEmpty then [] else w.document.journal (.apply text)
  | .undo => w.document.journal .undo
  | .reset => w.document.journal .reset
  | _ => []

/-- What opening a workbench on a matrix file notes in the journal. -/
def fileJournal (path : String) (found : Except StoreFault Node) : List Journal.Entry :=
  match Matrix.fileText path found with
  | .ok text => Document.empty.journal (.setText text)
  | .error _ => []

end Workbench

/-- What a terminal passes on. -/
inductive Happening where
  | key (key : Key)
  /-- Another second since the matrix was set. -/
  | second
  /-- Nothing that matters: a key let go, another size, or nothing at all for a while. -/
  | other
  deriving DecidableEq, Repr

/-- What comes of a sitting. -/
structure Sitting where
  /-- The workbench each time that it is shown. -/
  shown : List Workbench
  entries : List Journal.Entry
  /-- The user quits, before the terminal has nothing more to pass on. -/
  quits : Bool

namespace Workbench

/-- The workbench after something happened, with what is noted; none if the user quits. The open
help text takes all keys for itself. -/
def heed (w : Workbench) : Happening → Option (Workbench × List Journal.Entry)
  | .key key =>
    if w.helpOpen then some (w.pressHelp key, [])
    else
      match Action.ofKey? w.focus key with
      | some .quit => none
      | some action => some (w.perform action, w.journal action)
      | none => some (w.edit key, [])
  | .second => some (w.tick, [])
  | .other => some (w, [])

/-- The sitting in which some things happen. -/
def sit (w : Workbench) : List Happening → Sitting
  | [] => ⟨[w], [], false⟩
  | happening :: later =>
    match w.heed happening with
    | none => ⟨[w], [], true⟩
    | some (next, entries) =>
      let rest := next.sit later
      ⟨w :: rest.shown, entries ++ rest.entries, rest.quits⟩

end Workbench

/-- A terminal, with all that it will do in a sitting. Only a sitting that ends has an outcome. -/
structure Terminal where
  /-- Why the terminal cannot be used, if it cannot. -/
  refusal : Option String
  happenings : List Happening
  /-- Why the terminal fails when it has nothing more to pass on. -/
  failure : String
  /-- Why the terminal cannot be given back as it was, if it cannot. -/
  leaving : Option String
  /-- What is printed when a workbench is shown in some states, one after the other. -/
  print : List Workbench → String

namespace Terminal

/-- A terminal that is not there. -/
def absent : Terminal :=
  ⟨some "No such device or address (os error 6)", [], "", none, fun _ => ""⟩

/-- What goes wrong in a sitting, if anything does; first trouble with leaving the terminal. -/
def fault? (terminal : Terminal) (sitting : Sitting) : Option String :=
  terminal.leaving <|> if sitting.quits then none else some terminal.failure

end Terminal

end Echelon
