import Echelon.Key
import Echelon.Text.Offset

/-!
# Text inputs

The text of an input and the position of its cursor, counted in bytes of UTF-8. The cursor belongs
between two characters. One that stands inside a character counts as standing before it, and one
beyond the text as standing at its end; every key that moves the cursor or changes the text leaves
it between two characters. `Home` and `End` stay on the line of the cursor.
-/

namespace Echelon

/-- A text and the byte offset of the cursor in it. -/
structure Editor where
  text : String
  cursor : Nat
  deriving DecidableEq, Repr

namespace Editor

open Text

/-- The input without text. -/
def empty : Editor := ⟨"", 0⟩

/-- An input with the cursor at the end of its text. -/
def atEnd (text : String) : Editor := ⟨text, text.utf8ByteSize⟩

/-- An input with the given characters around its cursor. -/
def ofAround (a : Around) : Editor := ⟨String.ofList a.whole, byteLength a.before⟩

/-- The characters around the cursor. -/
def around (e : Editor) : Around := splitAtByte e.cursor e.text.toList

/-- Types a character at the cursor. -/
def type (e : Editor) (c : Char) : Editor :=
  let a := e.around
  ofAround ⟨c :: a.before, a.after⟩

/-- Moves to the nearest place between characters before the cursor, if there is one. -/
def left (e : Editor) : Editor :=
  let before := e.around.before
  { e with cursor := byteLength (if byteLength before < e.cursor then before else before.tail) }

/-- Moves over the character after the cursor. -/
def right (e : Editor) : Editor :=
  match e.around with
  | ⟨before, c :: _⟩ => { e with cursor := byteLength before + c.utf8Size }
  | ⟨_, []⟩ => e

/-- Moves to the start of the line. -/
def home (e : Editor) : Editor :=
  { e with cursor := byteLength (e.around.before.dropWhile (· != '\n')) }

/-- Moves to the end of the line. -/
def lineEnd (e : Editor) : Editor :=
  let a := e.around
  { e with cursor := byteLength a.before + byteLength (a.after.takeWhile (· != '\n')) }

/-- Removes the character before the cursor. -/
def backspace (e : Editor) : Editor :=
  match e.around with
  | ⟨_ :: before, after⟩ => ofAround ⟨before, after⟩
  | ⟨[], _⟩ => e

/-- Removes the character after the cursor. -/
def delete (e : Editor) : Editor :=
  match e.around with
  | ⟨before, _ :: after⟩ => ofAround ⟨before, after⟩
  | ⟨_, []⟩ => e

/-- The input after a key. Keys that edit no text change nothing. -/
def press (e : Editor) (key : Key) : Editor :=
  match key.code with
  | .left => e.left
  | .right => e.right
  | .home => e.home
  | .endOfLine => e.lineEnd
  | .backspace => e.backspace
  | .delete => e.delete
  | _ =>
    match key.typed? with
    | some c => e.type c
    | none => e

end Editor

end Echelon
