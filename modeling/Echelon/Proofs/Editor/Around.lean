import Echelon.Editor
import Echelon.Proofs.Text.Offset

/-!
# Editing around the cursor

An input is known by the characters before its cursor and those after it. On these each key is a
change of one character or a move over some, and the editor with its byte offset does the same.
-/

namespace Echelon

namespace Text.Around

def type (a : Around) (c : Char) : Around := ⟨c :: a.before, a.after⟩

def left : Around → Around
  | ⟨c :: before, after⟩ => ⟨before, c :: after⟩
  | ⟨[], after⟩ => ⟨[], after⟩

def right : Around → Around
  | ⟨before, c :: after⟩ => ⟨c :: before, after⟩
  | ⟨before, []⟩ => ⟨before, []⟩

/-- Moves back to a line feed, or to the start. -/
def home (a : Around) : Around :=
  ⟨a.before.dropWhile (· != '\n'), (a.before.takeWhile (· != '\n')).reverse ++ a.after⟩

/-- Moves on to a line feed, or to the end. -/
def lineEnd (a : Around) : Around :=
  ⟨(a.after.takeWhile (· != '\n')).reverse ++ a.before, a.after.dropWhile (· != '\n')⟩

def backspace : Around → Around
  | ⟨_ :: before, after⟩ => ⟨before, after⟩
  | ⟨[], after⟩ => ⟨[], after⟩

def delete : Around → Around
  | ⟨before, _ :: after⟩ => ⟨before, after⟩
  | ⟨before, []⟩ => ⟨before, []⟩

/-- What stands around the cursor after a key. -/
def press (a : Around) (key : Key) : Around :=
  match key.code with
  | .left => a.left
  | .right => a.right
  | .home => a.home
  | .endOfLine => a.lineEnd
  | .backspace => a.backspace
  | .delete => a.delete
  | _ =>
    match key.typed? with
    | some c => a.type c
    | none => a

theorem whole_left (a : Around) : a.left.whole = a.whole := by
  obtain ⟨_ | ⟨c, before⟩, after⟩ := a
  · rfl
  · simp [left, whole]

theorem whole_right (a : Around) : a.right.whole = a.whole := by
  obtain ⟨before, _ | ⟨c, after⟩⟩ := a
  · rfl
  · simp [right, whole]

theorem whole_home (a : Around) : a.home.whole = a.whole := by
  rw [whole, home, whole, ← List.append_assoc, ← List.reverse_append,
    List.takeWhile_append_dropWhile]

theorem whole_lineEnd (a : Around) : a.lineEnd.whole = a.whole := by
  rw [whole, lineEnd, whole, List.reverse_append, List.reverse_reverse, List.append_assoc,
    List.takeWhile_append_dropWhile]

end Text.Around

namespace Editor

open Text

@[simp] theorem around_ofAround (a : Around) : (ofAround a).around = a := by
  rw [around, ofAround, String.toList_ofList, splitAtByte_whole]

/-- An input with the same text and another position. -/
theorem ofAround_of_whole {a b : Around} (h : b.whole = a.whole) :
    ofAround b = { ofAround a with cursor := byteLength b.before } := by
  rw [ofAround, h]
  rfl

theorem type_ofAround (a : Around) (c : Char) : (ofAround a).type c = ofAround (a.type c) := by
  rw [type, around_ofAround]
  rfl

theorem left_ofAround (a : Around) : (ofAround a).left = ofAround a.left := by
  have hcursor : (ofAround a).cursor = byteLength a.before := rfl
  have hbefore : a.left.before = a.before.tail := by obtain ⟨_ | _, _⟩ := a <;> rfl
  rw [ofAround_of_whole a.whole_left, hbefore, left, around_ofAround, hcursor,
    if_neg (Nat.lt_irrefl _)]

theorem right_ofAround (a : Around) : (ofAround a).right = ofAround a.right := by
  rw [ofAround_of_whole a.whole_right, right, around_ofAround]
  obtain ⟨before, _ | ⟨c, after⟩⟩ := a
  · rfl
  · rw [Around.right, byteLength_cons, Nat.add_comm]

theorem home_ofAround (a : Around) : (ofAround a).home = ofAround a.home := by
  rw [ofAround_of_whole a.whole_home, home, around_ofAround]
  rfl

theorem lineEnd_ofAround (a : Around) : (ofAround a).lineEnd = ofAround a.lineEnd := by
  rw [ofAround_of_whole a.whole_lineEnd, lineEnd, around_ofAround, Around.lineEnd,
    byteLength_append, byteLength_reverse, Nat.add_comm]

theorem backspace_ofAround (a : Around) : (ofAround a).backspace = ofAround a.backspace := by
  rw [backspace, around_ofAround]
  obtain ⟨_ | ⟨c, before⟩, after⟩ := a <;> rfl

theorem delete_ofAround (a : Around) : (ofAround a).delete = ofAround a.delete := by
  rw [delete, around_ofAround]
  obtain ⟨before, _ | ⟨c, after⟩⟩ := a <;> rfl

/-- Each key changes what stands around the cursor. -/
theorem press_ofAround (a : Around) (key : Key) :
    (ofAround a).press key = ofAround (a.press key) := by
  obtain ⟨code, shift, control, alt⟩ := key
  cases code with
  | left => exact left_ofAround a
  | right => exact right_ofAround a
  | home => exact home_ofAround a
  | endOfLine => exact lineEnd_ofAround a
  | backspace => exact backspace_ofAround a
  | delete => exact delete_ofAround a
  | char c =>
    cases hheld : control || alt with
    | true => simp [press, Around.press, Key.typed?, hheld]
    | false => simp [press, Around.press, Key.typed?, hheld, type_ofAround]
  | _ => rfl

end Editor

end Echelon
