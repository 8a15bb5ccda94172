/-!
# Keys

A key press: which key it was and which modifiers were held. A modifier that no shortcut asks for
keeps a character from being typed, as alt does, and changes nothing on another key.
-/

namespace Echelon

/-- Which key was pressed; the keys that have no name here are all one, as nothing heeds them. -/
inductive KeyCode where
  | char (c : Char)
  | function (number : Nat)
  | left
  | right
  | up
  | down
  | home
  | endOfLine
  | pageUp
  | pageDown
  | insert
  | backspace
  | delete
  | enter
  | escape
  | tab
  | backTab
  | other
  deriving DecidableEq, Repr

/-- A key with the modifiers held. -/
structure Key where
  code : KeyCode
  shift : Bool := false
  control : Bool := false
  alt : Bool := false
  deriving DecidableEq, Repr

/-- Whether the key is a character with no modifier other than shift, so that it is typed. -/
def Key.typed? (key : Key) : Option Char :=
  match key.code with
  | .char c => if key.control || key.alt then none else some c
  | _ => none

end Echelon
