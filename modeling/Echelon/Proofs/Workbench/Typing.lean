import Echelon.Proofs.Editor.Around
import Echelon.Proofs.Session.View

/-!
# Typing

Characters without modifiers are no actions, so typing a text puts it into the input that has the
focus, at the cursor.
-/

namespace Echelon

open Text

namespace Editor

/-- Typed characters stand before the cursor. -/
theorem foldl_type (typed : List Char) (a : Around) :
    typed.foldl type (ofAround a) = ofAround ⟨typed.reverse ++ a.before, a.after⟩ := by
  induction typed generalizing a with
  | nil => rfl
  | cons c typed ih =>
    rw [List.foldl_cons, type_ofAround, ih]
    simp [Around.type]

theorem text_foldl_type (text : String) : (text.toList.foldl type .empty).text = text := by
  have hempty : Editor.empty = ofAround ⟨[], []⟩ := rfl
  rw [hempty, foldl_type]
  simp [ofAround, Around.whole]

end Editor

/-- The key that enters what was typed. -/
def Key.enter : Key := { code := .enter }

/-- The key that undoes the latest operation. -/
def Key.takeBack : Key := { code := .char 'z', control := true }

/-- The keys that type a text. -/
def typing (text : String) : List Key := text.toList.map fun c => { code := .char c }

theorem Action.ofKey?_char (focus : Focus) (c : Char) :
    Action.ofKey? focus { code := .char c } = none := by
  unfold Action.ofKey?
  split <;> simp_all

namespace Workbench

/-- The workbench after some keys. -/
def pressAll (w : Workbench) (keys : List Key) : Workbench := keys.foldl press w

/-- The input that has the focus. -/
def focused (w : Workbench) : Editor :=
  match w.focus with
  | .matrix => w.matrixInput
  | .operation => w.operationInput

/-- The workbench with another content of the input that has the focus. -/
def withFocused (w : Workbench) (e : Editor) : Workbench :=
  match w.focus with
  | .matrix => { w with matrixInput := e }
  | .operation => { w with operationInput := e }

theorem pressAll_append (w : Workbench) (keys more : List Key) :
    w.pressAll (keys ++ more) = (w.pressAll keys).pressAll more := List.foldl_append

theorem press_char (w : Workbench) (c : Char) :
    w.press { code := .char c } = w.withFocused (w.focused.type c) := by
  rw [press, Action.ofKey?_char]
  obtain ⟨_, _, focus, _, _, _, _, _⟩ := w
  cases focus <;> rfl

theorem withFocused_focused (w : Workbench) : w.withFocused w.focused = w := by
  obtain ⟨_, _, focus, _, _, _, _, _⟩ := w
  cases focus <;> rfl

theorem focused_withFocused (w : Workbench) (e : Editor) : (w.withFocused e).focused = e := by
  obtain ⟨_, _, focus, _, _, _, _, _⟩ := w
  cases focus <;> rfl

theorem withFocused_withFocused (w : Workbench) (e f : Editor) :
    (w.withFocused e).withFocused f = w.withFocused f := by
  obtain ⟨_, _, focus, _, _, _, _, _⟩ := w
  cases focus <;> rfl

/-- Typing goes to the input that has the focus and changes nothing else. -/
theorem pressAll_typing (w : Workbench) (text : String) :
    w.pressAll (typing text) = w.withFocused (text.toList.foldl Editor.type w.focused) := by
  rw [pressAll, typing, List.foldl_map]
  induction text.toList generalizing w with
  | nil => exact w.withFocused_focused.symm
  | cons c typed ih =>
    rw [List.foldl_cons, press_char, ih, focused_withFocused, withFocused_withFocused]
    rfl

end Workbench

end Echelon
