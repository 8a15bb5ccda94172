import Echelon.Proofs.Editor.Bytes
import Mathlib.Data.Nat.Find

/-!
# Editing by characters

The editor as one would describe it: a list of characters and an index into it. Every key does to
these what it does to the text and its byte offset, so with the cursor on a boundary the offset is
always the length in bytes of the characters before the index.
-/

namespace Echelon

/-- A text as its characters, and how many of them stand before the cursor. -/
structure CharEditor where
  chars : List Char
  index : Nat
  deriving DecidableEq

namespace CharEditor

def left (p : CharEditor) : CharEditor := { p with index := p.index - 1 }

def right (p : CharEditor) : CharEditor := { p with index := min (p.index + 1) p.chars.length }

/-- Moves to just after the nearest line feed before the index, or to the start. -/
def home (p : CharEditor) : CharEditor :=
  { p with index := Nat.findGreatest (fun k => p.chars[k - 1]? = some '\n') p.index }

/-- Moves to the nearest line feed at or after the index, or to the end. -/
def lineEnd (p : CharEditor) : CharEditor :=
  { p with index := p.index + (p.chars.drop p.index).findIdx (· == '\n') }

def backspace (p : CharEditor) : CharEditor :=
  if p.index = 0 then p else ⟨p.chars.eraseIdx (p.index - 1), p.index - 1⟩

def delete (p : CharEditor) : CharEditor := { p with chars := p.chars.eraseIdx p.index }

def type (p : CharEditor) (c : Char) : CharEditor := ⟨p.chars.insertIdx p.index c, p.index + 1⟩

/-- The characters and the index after a key. -/
def press (p : CharEditor) (key : Key) : CharEditor :=
  match key.code with
  | .left => p.left
  | .right => p.right
  | .home => p.home
  | .endOfLine => p.lineEnd
  | .backspace => p.backspace
  | .delete => p.delete
  | .char c => if key.control || key.alt then p else p.type c
  | _ => p

end CharEditor

namespace Text.Around

/-- The characters of a text around a position, and the index of the position. -/
def indexed (a : Around) : CharEditor := ⟨a.whole, a.before.length⟩

variable (a : Around)

theorem take_whole : a.whole.take a.before.length = a.before.reverse := by
  rw [whole, List.take_left' (by simp)]

theorem drop_whole : a.whole.drop a.before.length = a.after := by
  rw [whole, List.drop_left' (by simp)]

theorem indexed_left : a.left.indexed = a.indexed.left := by
  rw [indexed, whole_left]
  obtain ⟨_ | ⟨c, before⟩, after⟩ := a <;> rfl

theorem indexed_right : a.right.indexed = a.indexed.right := by
  rw [indexed, whole_right]
  obtain ⟨before, _ | ⟨c, after⟩⟩ := a
  · simp [right, indexed, CharEditor.right, whole]
  · simp [right, indexed, CharEditor.right, whole]

/-- The nearest line feed before a position, found by counting and by passing over characters. -/
theorem findGreatest_lineFeed (before after : List Char) :
    Nat.findGreatest (fun k => (before.reverse ++ after)[k - 1]? = some '\n') before.length =
      (before.dropWhile (· != '\n')).length := by
  induction before generalizing after with
  | nil => rfl
  | cons c before ih =>
    have hlast : ((c :: before).reverse ++ after)[before.length]? = some c := by simp
    have hrest : (c :: before).reverse ++ after = before.reverse ++ (c :: after) := by simp
    rw [List.length_cons, Nat.findGreatest_succ, Nat.add_sub_cancel, hlast]
    by_cases hc : c = '\n'
    · simp [hc]
    · rw [if_neg (by simpa using hc), hrest, ih, List.dropWhile_cons_of_pos (by simpa using hc)]

theorem indexed_home : a.home.indexed = a.indexed.home := by
  rw [indexed, whole_home, CharEditor.home]
  exact congrArg (CharEditor.mk a.whole) (findGreatest_lineFeed a.before a.after).symm

theorem indexed_lineEnd : a.lineEnd.indexed = a.indexed.lineEnd := by
  have hlength : (a.after.takeWhile (· != '\n')).length = a.after.findIdx (· == '\n') := by
    rw [List.takeWhile_eq_take_findIdx_not, List.length_take]
    simp [bne, List.findIdx_le_length]
  rw [indexed, whole_lineEnd, CharEditor.lineEnd]
  simp only [indexed, drop_whole, lineEnd, List.length_append, List.length_reverse, hlength,
    Nat.add_comm]

theorem indexed_backspace : a.backspace.indexed = a.indexed.backspace := by
  obtain ⟨_ | ⟨c, before⟩, after⟩ := a
  · rfl
  · have hwhole : whole ⟨c :: before, after⟩ = before.reverse ++ c :: after := by simp [whole]
    rw [CharEditor.backspace, indexed, indexed, if_neg (by simp), hwhole]
    simp [backspace, whole, List.eraseIdx_append_of_length_le]

theorem indexed_delete : a.delete.indexed = a.indexed.delete := by
  rw [CharEditor.delete, indexed, indexed]
  obtain ⟨before, _ | ⟨c, after⟩⟩ := a
  · simp [delete, whole, List.eraseIdx_of_length_le]
  · simp [delete, whole, List.eraseIdx_append_of_length_le]

theorem indexed_type (c : Char) : (a.type c).indexed = a.indexed.type c := by
  have hinsert (before after : List Char) :
      (before ++ after).insertIdx before.length c = before ++ c :: after := by
    induction before with
    | nil => rfl
    | cons d before ih => rw [List.cons_append, List.length_cons, List.insertIdx_succ_cons, ih]; rfl
  rw [CharEditor.type, indexed, indexed]
  have hwhole := hinsert a.before.reverse a.after
  rw [List.length_reverse] at hwhole
  simp [type, whole, hwhole]

theorem indexed_press (key : Key) : (a.press key).indexed = a.indexed.press key := by
  obtain ⟨code, shift, control, alt⟩ := key
  cases code with
  | left => exact a.indexed_left
  | right => exact a.indexed_right
  | home => exact a.indexed_home
  | endOfLine => exact a.indexed_lineEnd
  | backspace => exact a.indexed_backspace
  | delete => exact a.indexed_delete
  | char c =>
    cases hheld : control || alt with
    | true => simp [press, CharEditor.press, Key.typed?, hheld]
    | false => simp [press, CharEditor.press, Key.typed?, hheld, indexed_type]
  | _ => rfl

end Text.Around

namespace Editor

open Text

/-- An editor and one on characters show the same: the offset of the cursor is the length in bytes
of the characters before the index. -/
structure Refines (e : Editor) (p : CharEditor) : Prop where
  chars_eq : e.text.toList = p.chars
  index_le : p.index ≤ p.chars.length
  cursor_eq : e.cursor = (String.ofList (p.chars.take p.index)).utf8ByteSize

variable {e : Editor} {p : CharEditor}

theorem refines_indexed (a : Around) : (ofAround a).Refines a.indexed := by
  refine ⟨toList_text_ofAround a, ?_, ?_⟩
  · simp [Around.indexed, Around.whole]
  · rw [cursor_ofAround, utf8ByteSize_ofList, Around.indexed, Around.take_whole]

theorem Refines.exists_around (h : e.Refines p) : ∃ a, e = ofAround a ∧ p = Around.indexed a := by
  refine ⟨⟨(p.chars.take p.index).reverse, p.chars.drop p.index⟩, ?_, ?_⟩
  · have htext : e.text = String.ofList p.chars := by rw [← h.chars_eq, String.ofList_toList]
    have hcursor := h.cursor_eq
    rw [utf8ByteSize_ofList, ← byteLength_reverse] at hcursor
    rw [ofAround, Around.whole, List.reverse_reverse, List.take_append_drop, ← htext, ← hcursor]
  · have hle := h.index_le
    simp [Around.indexed, Around.whole, Nat.min_eq_left hle]

theorem Refines.press (h : e.Refines p) (key : Key) : (e.press key).Refines (p.press key) := by
  obtain ⟨a, rfl, rfl⟩ := h.exists_around
  rw [press_ofAround, ← Around.indexed_press]
  exact refines_indexed _

theorem Refines.foldl_press (h : e.Refines p) (keys : List Key) :
    (keys.foldl Editor.press e).Refines (keys.foldl CharEditor.press p) := by
  induction keys generalizing e p with
  | nil => exact h
  | cons key keys ih => exact ih (h.press key)

theorem Valid.exists_refines (h : e.Valid) : ∃ p, e.Refines p := by
  obtain ⟨a, rfl⟩ := h.exists_around
  exact ⟨a.indexed, refines_indexed a⟩

theorem Valid.foldlM_pressBytes? (h : e.Valid) (keys : List Key) :
    keys.foldlM pressBytes? e = some (keys.foldl Editor.press e) := by
  induction keys generalizing e with
  | nil => rfl
  | cons key keys ih =>
    rw [List.foldlM_cons, h.pressBytes?_eq key]
    exact ih (h.press key)

/-- **Editing by byte offsets is editing by characters.** From a cursor on a boundary, the editor
shows after any keys what the editor on characters shows after them, and edited byte by byte it
never asks for an operation inside a character. -/
theorem keys_refine_chars (h : IsBoundary e.text e.cursor) :
    (∃ p, e.Refines p) ∧
    ∀ keys : List Key, keys.foldlM pressBytes? e = some (keys.foldl Editor.press e) ∧
      ∀ p, e.Refines p → (keys.foldl Editor.press e).Refines (keys.foldl CharEditor.press p) :=
  ⟨Valid.exists_refines h, fun keys =>
    ⟨Valid.foldlM_pressBytes? h keys, fun _ hp => hp.foldl_press keys⟩⟩

/-- Characters of one, two and three bytes typed, passed over and removed on two lines. -/
theorem keys_refine_chars_wide : ∃ (e : Editor) (p : CharEditor) (keys : List Key),
    e = ⟨"1é\n€2", 7⟩ ∧ p = ⟨['1', 'é', '\n', '€', '2'], 4⟩ ∧ IsBoundary e.text e.cursor ∧
    e.Refines p ∧ keys.map Key.code = [.backspace, .left, .backspace, .char 'ü', .char 'x',
      .endOfLine, .right, .endOfLine, .home, .delete] ∧
    keys.foldlM pressBytes? e = some ⟨"1ü\n", 4⟩ ∧
    keys.foldl CharEditor.press p = ⟨['1', 'ü', '\n'], 3⟩ ∧
    (⟨"1ü\n", 4⟩ : Editor).Refines ⟨['1', 'ü', '\n'], 3⟩ := by
  let e : Editor := ⟨"1é\n€2", 7⟩
  let p : CharEditor := ⟨['1', 'é', '\n', '€', '2'], 4⟩
  let keys : List Key := [{ code := .backspace }, { code := .left }, { code := .backspace },
    { code := .char 'ü', shift := true }, { code := .char 'x', alt := true },
    { code := .endOfLine }, { code := .right }, { code := .endOfLine }, { code := .home },
    { code := .delete }]
  have hboundary : IsBoundary e.text e.cursor := by decide +kernel
  have hrefines : e.Refines p := ⟨by decide +kernel, by decide, by decide +kernel⟩
  have hafter : keys.foldl Editor.press e = ⟨"1ü\n", 4⟩ := by decide +kernel
  have hchars : keys.foldl CharEditor.press p = ⟨['1', 'ü', '\n'], 3⟩ := by decide +kernel
  obtain ⟨hbytes, hrun⟩ := (keys_refine_chars hboundary).2 keys
  have hshown := hrun p hrefines
  rw [hafter, hchars] at hshown
  exact ⟨e, p, keys, rfl, rfl, hboundary, hrefines, rfl, hafter ▸ hbytes, hchars, hshown⟩

end Editor

end Echelon
