import Echelon.Proofs.Editor.Bytes
import Echelon.Proofs.Session.View

/-!
# The cursors stay between characters

Whatever happens to a workbench, the cursors of its two inputs stay on boundaries of their texts: an
input is edited by its own keys, starts anew with its cursor at an end, or is left alone. So editing
and drawing never cut a text inside a character, and the workbench whose inputs are edited by byte
offsets does all that the workbench does.
-/

namespace Echelon.Workbench

open Text

/-! ## The workbench by byte offsets -/

def insertNewlineBytes? (w : Workbench) : Option Workbench :=
  match w.focus with
  | .matrix => do
    let text ← insert? w.matrixInput.text w.matrixInput.cursor "\n"
    return { w with matrixInput := ⟨text, w.matrixInput.cursor + 1⟩ }
  | .operation => some w

def performBytes? (w : Workbench) : Action → Option Workbench
  | .insertNewline => w.insertNewlineBytes?
  | action => some (w.perform action)

def editBytes? (w : Workbench) (key : Key) : Option Workbench :=
  match w.focus with
  | .matrix => do return { w with matrixInput := ← w.matrixInput.pressBytes? key }
  | .operation => do return { w with operationInput := ← w.operationInput.pressBytes? key }

def pressBytes? (w : Workbench) (key : Key) : Option Workbench :=
  match Action.ofKey? w.focus key with
  | some action => w.performBytes? action
  | none => w.editBytes? key

/-- The workbench after something happened to it, if no text is cut inside a character. -/
def moveBytes? (w : Workbench) : Move → Option Workbench
  | .press key => w.pressBytes? key
  | .edit key => w.editBytes? key
  | .perform action => w.performBytes? action
  | m => some (w.move m)

/-! ## The invariant -/

/-- Both cursors are between characters. -/
structure CursorsValid (w : Workbench) : Prop where
  matrix : w.matrixInput.Valid
  operation : w.operationInput.Valid

namespace CursorsValid

variable {w : Workbench}

theorem start (appearance : Appearance) : (Workbench.start appearance).CursorsValid :=
  ⟨Editor.valid_empty, Editor.valid_empty⟩

theorem of_ofFile {appearance : Appearance} {path : String} {found : Except StoreFault Node}
    (h : ofFile appearance path found = .ok w) : w.CursorsValid := by
  obtain ⟨text, _, hset⟩ := Result.bind_eq_ok.mp h
  obtain ⟨_, _, hw⟩ := Result.bind_eq_ok.mp hset
  cases hw
  exact ⟨Editor.valid_atEnd _, Editor.valid_empty⟩

variable (h : w.CursorsValid)

include h

theorem insertNewline : w.insertNewline.CursorsValid := by
  unfold Workbench.insertNewline
  split
  · exact ⟨h.matrix.type '\n', h.operation⟩
  · exact h

theorem submitOperation : w.submitOperation.CursorsValid := by
  by_cases hblank : (trimmed w.operationInput.text).isEmpty = true
  · rw [Workbench.submitOperation, if_pos hblank]
    exact h
  · rw [Workbench.submitOperation, if_neg hblank]
    exact ⟨h.matrix, Editor.valid_empty⟩

theorem perform (action : Action) : (w.perform action).CursorsValid := by
  cases action with
  | quit => exact h
  | toggleFocus => exact ⟨h.matrix, h.operation⟩
  | setMatrix => exact ⟨h.matrix, h.operation⟩
  | insertNewline => exact h.insertNewline
  | submitOperation => exact h.submitOperation
  | undo => exact ⟨h.matrix, h.operation⟩
  | reset => exact ⟨Editor.valid_empty, Editor.valid_empty⟩
  | openHelp => exact ⟨h.matrix, h.operation⟩

theorem edit (key : Key) : (w.edit key).CursorsValid := by
  unfold Workbench.edit
  split
  · exact ⟨h.matrix.press key, h.operation⟩
  · exact ⟨h.matrix, h.operation.press key⟩

theorem press (key : Key) : (w.press key).CursorsValid := by
  unfold Workbench.press
  split
  · exact h.perform _
  · exact h.edit key

theorem move (m : Move) : (w.move m).CursorsValid := by
  cases m with
  | press key => exact h.press key
  | edit key => exact h.edit key
  | perform action => exact h.perform action
  | closeHelp => exact ⟨h.matrix, h.operation⟩
  | scrollHelp lines => exact ⟨h.matrix, h.operation⟩
  | call request => exact ⟨h.matrix, h.operation⟩
  | tick => exact ⟨h.matrix, h.operation⟩

/-! ## Nothing is cut inside a character -/

theorem insertNewlineBytes?_eq : w.insertNewlineBytes? = some w.insertNewline := by
  cases hfocus : w.focus with
  | operation => simp only [insertNewlineBytes?, Workbench.insertNewline, hfocus]
  | matrix =>
    have hsize : '\n'.utf8Size = 1 := rfl
    obtain ⟨text, hinsert, htyped⟩ :=
      Option.bind_eq_some_iff.mp (h.matrix.typeBytes?_eq '\n')
    rw [hsize] at htyped
    have hline : insert? w.matrixInput.text w.matrixInput.cursor "\n" = some text := hinsert
    simp only [insertNewlineBytes?, Workbench.insertNewline, hfocus, hline]
    rw [← Option.some.inj htyped]
    rfl

theorem performBytes?_eq (action : Action) : w.performBytes? action = some (w.perform action) := by
  cases action with
  | insertNewline => exact h.insertNewlineBytes?_eq
  | _ => rfl

theorem editBytes?_eq (key : Key) : w.editBytes? key = some (w.edit key) := by
  cases hfocus : w.focus with
  | matrix =>
    simp only [editBytes?, Workbench.edit, hfocus, h.matrix.pressBytes?_eq key]
    rfl
  | operation =>
    simp only [editBytes?, Workbench.edit, hfocus, h.operation.pressBytes?_eq key]
    rfl

theorem pressBytes?_eq (key : Key) : w.pressBytes? key = some (w.press key) := by
  cases haction : Action.ofKey? w.focus key with
  | some action =>
    simp only [pressBytes?, Workbench.press, haction]
    exact h.performBytes?_eq action
  | none =>
    simp only [pressBytes?, Workbench.press, haction]
    exact h.editBytes?_eq key

theorem moveBytes?_eq (m : Move) : w.moveBytes? m = some (w.move m) := by
  cases m with
  | press key => exact h.pressBytes?_eq key
  | edit key => exact h.editBytes?_eq key
  | perform action => exact h.performBytes?_eq action
  | _ => rfl

theorem foldlM_moveBytes?_eq (moves : List Move) :
    moves.foldlM moveBytes? w = some (moves.foldl Workbench.move w) := by
  induction moves generalizing w with
  | nil => rfl
  | cons m moves ih =>
    rw [List.foldlM_cons, h.moveBytes?_eq m]
    exact ih (h.move m)

end CursorsValid

theorem Reachable.cursorsValid {w : Workbench} (h : Reachable w) : w.CursorsValid := by
  induction h with
  | start appearance => exact .start appearance
  | ofFile hfile => exact .of_ofFile hfile
  | move m _ ih => exact ih.move m

/-- **The cursors are always valid.** In every workbench that the front end can come to, each cursor
is within its text and between two characters of it or at an end. So no edit and no drawing asks for
an operation inside a character: edited by byte offsets the workbench makes all further moves, and
the marked texts that are drawn can be cut at the cursors. -/
theorem cursors_valid {w : Workbench} (h : Reachable w) :
    (∀ e ∈ [w.matrixInput, w.operationInput],
      e.cursor ≤ e.text.utf8ByteSize ∧ IsBoundary e.text e.cursor ∧
      ∀ focused, ∃ shown, e.markedBytes? focused = some shown ∧
        inputLines e focused = (lines shown.toList).map (Strip.paint .plain)) ∧
    ∀ moves : List Move, moves.foldlM moveBytes? w = some (moves.foldl move w) := by
  have hvalid := h.cursorsValid
  have hinputs : ∀ e ∈ [w.matrixInput, w.operationInput], e.Valid := by
    simp [hvalid.matrix, hvalid.operation]
  refine ⟨fun e he => ?_, hvalid.foldlM_moveBytes?_eq⟩
  have hinput := hinputs e he
  exact ⟨hinput.le, hinput, hinput.exists_marked⟩

/-- Characters of two and three bytes typed, passed over and removed. -/
theorem cursors_valid_wide : ∃ (w : Workbench) (moves : List Move) (shown : String),
    Reachable w ∧ w.matrixInput = ⟨"1\n€2", 5⟩ ∧ ¬ IsBoundary "1\n€2" 4 ∧
    IsBoundary w.matrixInput.text w.matrixInput.cursor ∧
    w.matrixInput.markedBytes? true = some shown ∧ shown = "1\n€│2" ∧
    moves.foldlM moveBytes? (start ⟨10, true⟩) = some w := by
  let typed (text : String) : List Move := text.toList.map fun c => .press { code := .char c }
  let back : Move := .press { code := .left }
  let forth : Move := .press { code := .right }
  let moves : List Move := typed "1é" ++ [.perform .insertNewline] ++ typed "€2" ++
    [back, back, back, .press { code := .backspace }, forth, forth]
  have hstart := Reachable.start ⟨10, true⟩
  have hr := hstart.moves moves
  have hinput : (moves.foldl move (start ⟨10, true⟩)).matrixInput = ⟨"1\n€2", 5⟩ := by
    decide +kernel
  obtain ⟨_, hboundary, hdrawn⟩ := (cursors_valid hr).1 _ List.mem_cons_self
  obtain ⟨shown, hshown, _⟩ := hdrawn true
  have hmarked := hshown
  rw [hinput] at hmarked
  have htext : Editor.markedBytes? ⟨"1\n€2", 5⟩ true = some "1\n€│2" := by decide +kernel
  rw [htext] at hmarked
  exact ⟨_, moves, shown, hr, hinput, by decide +kernel, hboundary, hshown,
    (Option.some.inj hmarked).symm, (cursors_valid hstart).2 moves⟩

end Echelon.Workbench
