import Echelon.Proofs.Editor.Around
import Echelon.Proofs.Text.Boundary
import Echelon.Screen
import Mathlib.Data.List.TakeWhile

/-!
# Editing by byte offsets

The editor once more, by operations that only boundaries allow: steps that look for the next
boundary byte by byte, and cuts, insertions and removals that answer nothing elsewhere. With the
cursor on a boundary all of them answer, and they do what the editor does, which leaves the cursor
on a boundary.
-/

namespace Echelon.Editor

open Text

/-- The cursor is between two characters or at an end of the text. -/
def Valid (e : Editor) : Prop := IsBoundary e.text e.cursor

/-! ## The operations -/

def leftBytes (e : Editor) : Editor :=
  if 0 < e.cursor then { e with cursor := boundaryBelow e.text (e.cursor - 1) } else e

def rightBytes (e : Editor) : Editor :=
  if e.cursor < e.text.utf8ByteSize then
    { e with cursor := boundaryAbove e.text (e.cursor + 1) }
  else e

def homeBytes? (e : Editor) : Option Editor := do
  let (before, _) ← cut? e.text e.cursor
  return { e with cursor := ((rfind? '\n' before.toList).map (· + 1)).getD 0 }

def lineEndBytes? (e : Editor) : Option Editor := do
  let (_, after) ← cut? e.text e.cursor
  return { e with
    cursor := ((find? '\n' after.toList).map (e.cursor + ·)).getD e.text.utf8ByteSize }

def backspaceBytes? (e : Editor) : Option Editor :=
  if 0 < e.cursor then do
    let first := boundaryBelow e.text (e.cursor - 1)
    return ⟨← remove? e.text first e.cursor, first⟩
  else some e

def deleteBytes? (e : Editor) : Option Editor :=
  if e.cursor < e.text.utf8ByteSize then do
    return { e with text := ← remove? e.text e.cursor (boundaryAbove e.text (e.cursor + 1)) }
  else some e

def typeBytes? (e : Editor) (c : Char) : Option Editor := do
  return ⟨← insert? e.text e.cursor (String.singleton c), e.cursor + c.utf8Size⟩

/-- The input after a key, if no operation is asked for off a boundary. -/
def pressBytes? (e : Editor) (key : Key) : Option Editor :=
  match key.code with
  | .left => some e.leftBytes
  | .right => some e.rightBytes
  | .home => e.homeBytes?
  | .endOfLine => e.lineEndBytes?
  | .backspace => e.backspaceBytes?
  | .delete => e.deleteBytes?
  | _ =>
    match key.typed? with
    | some c => e.typeBytes? c
    | none => some e

/-- The text of an input as it is drawn, with a mark at the cursor if it has the focus. -/
def markedBytes? (e : Editor) (focused : Bool) : Option String :=
  if focused then do
    let (before, after) ← cut? e.text (min e.cursor e.text.utf8ByteSize)
    return before ++ "│" ++ after
  else some e.text

/-! ## What they do between characters -/

theorem toList_text_ofAround (a : Around) :
    (ofAround a).text.toList = a.before.reverse ++ a.after := String.toList_ofList

theorem cursor_ofAround (a : Around) : (ofAround a).cursor = byteLength a.before.reverse :=
  (byteLength_reverse a.before).symm

theorem valid_ofAround (a : Around) : (ofAround a).Valid := by
  rw [Valid, cursor_ofAround]
  exact isBoundary_byteLength (toList_text_ofAround a)

theorem Valid.exists_around {e : Editor} (h : e.Valid) : ∃ a, e = ofAround a := by
  obtain ⟨before, after, htext, hcursor⟩ := isBoundary_iff.mp h
  refine ⟨⟨before.reverse, after⟩, ?_⟩
  obtain ⟨text, cursor⟩ := e
  rw [ofAround, Around.whole, List.reverse_reverse, ← htext, String.ofList_toList,
    byteLength_reverse, ← hcursor]

theorem cut?_ofAround (a : Around) : cut? (ofAround a).text (ofAround a).cursor =
    some (String.ofList a.before.reverse, String.ofList a.after) := by
  rw [cursor_ofAround, cut?_eq (toList_text_ofAround a)]

theorem utf8ByteSize_ofAround (a : Around) :
    (ofAround a).text.utf8ByteSize = (ofAround a).cursor + byteLength a.after := by
  rw [ofAround, utf8ByteSize_ofList, Around.whole, byteLength_append, byteLength_reverse]

section

variable (before after : List Char) (c : Char)

/-- The offsets at a character before the cursor. -/
theorem cursor_ofAround_cons : (ofAround ⟨c :: before, after⟩).cursor =
    byteLength before.reverse + c.utf8Size := by
  rw [byteLength_reverse, Nat.add_comm]
  rfl

theorem toList_ofAround_cons : (ofAround ⟨c :: before, after⟩).text.toList =
    before.reverse ++ c :: after := by
  simp [toList_text_ofAround]

theorem boundaryBelow_ofAround : boundaryBelow (ofAround ⟨c :: before, after⟩).text
    ((ofAround ⟨c :: before, after⟩).cursor - 1) = byteLength before.reverse := by
  rw [cursor_ofAround_cons, boundaryBelow_char (toList_ofAround_cons before after c)]

theorem boundaryAbove_ofAround : boundaryAbove (ofAround ⟨before, c :: after⟩).text
    ((ofAround ⟨before, c :: after⟩).cursor + 1) = byteLength before.reverse + c.utf8Size := by
  rw [cursor_ofAround, boundaryAbove_char (toList_text_ofAround ⟨before, c :: after⟩)]

theorem cursor_pos : 0 < (ofAround ⟨c :: before, after⟩).cursor := by
  have hsize := c.utf8Size_pos
  rw [cursor_ofAround_cons]
  omega

theorem cursor_lt : (ofAround ⟨before, c :: after⟩).cursor <
    (ofAround ⟨before, c :: after⟩).text.utf8ByteSize := by
  have hsize := c.utf8Size_pos
  rw [utf8ByteSize_ofAround, byteLength_cons]
  omega

theorem cursor_at_end : ¬ (ofAround ⟨before, []⟩).cursor <
    (ofAround ⟨before, []⟩).text.utf8ByteSize := by
  rw [utf8ByteSize_ofAround]
  exact Nat.lt_irrefl _

end

theorem leftBytes_ofAround (a : Around) : (ofAround a).leftBytes = ofAround a.left := by
  obtain ⟨_ | ⟨c, before⟩, after⟩ := a
  · rfl
  · rw [leftBytes, if_pos (cursor_pos before after c), boundaryBelow_ofAround, byteLength_reverse]
    exact (ofAround_of_whole (Around.whole_left ⟨c :: before, after⟩)).symm

theorem rightBytes_ofAround (a : Around) : (ofAround a).rightBytes = ofAround a.right := by
  obtain ⟨before, _ | ⟨c, after⟩⟩ := a
  · rw [rightBytes, if_neg (cursor_at_end before)]
    rfl
  · rw [rightBytes, if_pos (cursor_lt before after c), boundaryAbove_ofAround,
      ← cursor_ofAround_cons before after c]
    exact (ofAround_of_whole (Around.whole_right ⟨before, c :: after⟩)).symm

theorem homeBytes?_ofAround (a : Around) :
    (ofAround a).homeBytes? = some (ofAround a.home) := by
  have hline : ((rfind? '\n' a.before.reverse).map (· + 1)).getD 0 =
      byteLength (a.before.dropWhile (· != '\n')) := rfind?_reverse '\n' a.before
  rw [homeBytes?, cut?_ofAround, ofAround_of_whole a.whole_home]
  simp [hline, Around.home]

theorem lineEndBytes?_ofAround (a : Around) :
    (ofAround a).lineEndBytes? = some (ofAround a.lineEnd) := by
  have hline : ((find? '\n' a.after).map ((ofAround a).cursor + ·)).getD
      (ofAround a).text.utf8ByteSize = byteLength a.lineEnd.before := by
    rw [Around.lineEnd, byteLength_append, byteLength_reverse, find?_eq, utf8ByteSize_ofAround]
    by_cases hmem : '\n' ∈ a.after
    · simp [hmem, ofAround, Nat.add_comm]
    · have hwhole : a.after.takeWhile (· != '\n') = a.after := by
        refine List.takeWhile_eq_self_iff.mpr fun c hc => ?_
        rw [bne_iff_ne]
        rintro rfl
        exact hmem hc
      simp [hmem, hwhole, ofAround, Nat.add_comm]
  rw [lineEndBytes?, cut?_ofAround, ofAround_of_whole a.whole_lineEnd]
  simp [hline]

theorem backspaceBytes?_ofAround (a : Around) :
    (ofAround a).backspaceBytes? = some (ofAround a.backspace) := by
  obtain ⟨_ | ⟨c, before⟩, after⟩ := a
  · rfl
  · have hremove := remove?_char (toList_ofAround_cons before after c)
    rw [← cursor_ofAround_cons before after c] at hremove
    rw [backspaceBytes?, if_pos (cursor_pos before after c), boundaryBelow_ofAround]
    simp only [hremove]
    rw [byteLength_reverse]
    rfl

theorem deleteBytes?_ofAround (a : Around) :
    (ofAround a).deleteBytes? = some (ofAround a.delete) := by
  obtain ⟨before, _ | ⟨c, after⟩⟩ := a
  · rw [deleteBytes?, if_neg (cursor_at_end before)]
    rfl
  · have hremove := remove?_char (toList_text_ofAround ⟨before, c :: after⟩)
    rw [← cursor_ofAround] at hremove
    rw [deleteBytes?, if_pos (cursor_lt before after c), boundaryAbove_ofAround,
      ← cursor_ofAround ⟨before, c :: after⟩, hremove]
    rfl

theorem typeBytes?_ofAround (a : Around) (c : Char) :
    (ofAround a).typeBytes? c = some (ofAround (a.type c)) := by
  have hinsert := insert?_eq (toList_text_ofAround a) (String.singleton c)
  rw [← cursor_ofAround] at hinsert
  rw [typeBytes?, hinsert]
  simp [Around.type, ofAround, Around.whole, byteLength_cons, Nat.add_comm]

/-- **Editing by bytes is the editor.** With the cursor between characters no operation is asked
for off a boundary. -/
theorem pressBytes?_ofAround (a : Around) (key : Key) :
    (ofAround a).pressBytes? key = some (ofAround (a.press key)) := by
  obtain ⟨code, shift, control, alt⟩ := key
  cases code with
  | left => exact congrArg some (leftBytes_ofAround a)
  | right => exact congrArg some (rightBytes_ofAround a)
  | home => exact homeBytes?_ofAround a
  | endOfLine => exact lineEndBytes?_ofAround a
  | backspace => exact backspaceBytes?_ofAround a
  | delete => exact deleteBytes?_ofAround a
  | char c =>
    cases hheld : control || alt with
    | true => simp [pressBytes?, Around.press, Key.typed?, hheld]
    | false => simp [pressBytes?, Around.press, Key.typed?, hheld, typeBytes?_ofAround]
  | _ => rfl

theorem Valid.pressBytes?_eq {e : Editor} (h : e.Valid) (key : Key) :
    e.pressBytes? key = some (e.press key) := by
  obtain ⟨a, rfl⟩ := h.exists_around
  rw [pressBytes?_ofAround, press_ofAround]

theorem Valid.press {e : Editor} (h : e.Valid) (key : Key) : (e.press key).Valid := by
  obtain ⟨a, rfl⟩ := h.exists_around
  rw [press_ofAround]
  exact valid_ofAround _

theorem Valid.typeBytes?_eq {e : Editor} (h : e.Valid) (c : Char) :
    e.typeBytes? c = some (e.type c) := by
  obtain ⟨a, rfl⟩ := h.exists_around
  rw [typeBytes?_ofAround, type_ofAround]

theorem Valid.type {e : Editor} (h : e.Valid) (c : Char) : (e.type c).Valid := by
  obtain ⟨a, rfl⟩ := h.exists_around
  rw [type_ofAround]
  exact valid_ofAround _

theorem valid_empty : Valid .empty := valid_ofAround ⟨[], []⟩

theorem valid_atEnd (text : String) : Valid (.atEnd text) := by
  have hend : Editor.atEnd text = ofAround ⟨text.toList.reverse, []⟩ := by
    rw [ofAround, Around.whole, byteLength_reverse, ← utf8ByteSize_ofList]
    simp [atEnd]
  rw [hend]
  exact valid_ofAround _

/-! ## Drawing -/

/-- The mark is drawn where the cursor stands. -/
theorem Valid.exists_marked {e : Editor} (h : e.Valid) (focused : Bool) :
    ∃ shown, e.markedBytes? focused = some shown ∧
      Workbench.inputLines e focused = (lines shown.toList).map (Strip.paint .plain) := by
  obtain ⟨a, rfl⟩ := h.exists_around
  cases focused with
  | false => exact ⟨_, rfl, rfl⟩
  | true =>
    have hle : min (ofAround a).cursor (ofAround a).text.utf8ByteSize = (ofAround a).cursor :=
      Nat.min_eq_left (valid_ofAround a).le
    refine ⟨_, by rw [markedBytes?, if_pos rfl, hle, cut?_ofAround]; rfl, ?_⟩
    rw [Workbench.inputLines, around_ofAround]
    simp

end Echelon.Editor
