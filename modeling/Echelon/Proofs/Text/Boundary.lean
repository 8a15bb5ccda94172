import Echelon.Proofs.Text.Offset
import Mathlib.Data.List.Basic

/-!
# Boundaries between characters

A byte offset is a boundary of a text when whole characters end there. Cutting, inserting and
removing at byte offsets are operations that only boundaries allow: elsewhere they answer nothing.
Two walks look for a boundary byte by byte, and from inside a character they stop at its two ends.
-/

namespace Echelon.Text

/-- Whole characters of the text end at the offset. -/
abbrev IsBoundary (text : String) (offset : Nat) : Prop := String.Pos.Raw.IsValid text ⟨offset⟩

/-! ## Operations at byte offsets -/

/-- The two parts of a text, if the offset is a boundary. -/
def cut? (text : String) (offset : Nat) : Option (String × String) :=
  if h : IsBoundary text offset then
    some ((text.sliceTo (text.pos ⟨offset⟩ h)).copy, (text.sliceFrom (text.pos ⟨offset⟩ h)).copy)
  else none

/-- The text with another one put in at a boundary. -/
def insert? (text : String) (offset : Nat) (more : String) : Option String :=
  (cut? text offset).map fun (before, after) => before ++ more ++ after

/-- The text without what stands between two boundaries. -/
def remove? (text : String) (first last : Nat) : Option String :=
  if first ≤ last then do
    let (before, _) ← cut? text first
    let (_, after) ← cut? text last
    return before ++ after
  else none

/-- Steps back, byte by byte, to a boundary or the start of the text. -/
def boundaryBelow (text : String) : Nat → Nat
  | 0 => 0
  | offset + 1 =>
    if IsBoundary text (offset + 1) then offset + 1 else boundaryBelow text offset

/-- Steps on, byte by byte, to a boundary or the end of the text. -/
def boundaryAbove (text : String) (offset : Nat) : Nat :=
  if offset < text.utf8ByteSize ∧ ¬ IsBoundary text offset then boundaryAbove text (offset + 1)
  else offset
termination_by text.utf8ByteSize - offset

/-- The byte offset of the first place of a character. -/
def find? (c : Char) : List Char → Option Nat
  | [] => none
  | d :: rest => if d = c then some 0 else (find? c rest).map (d.utf8Size + ·)

/-- The byte offset of the last place of a character. -/
def rfind? (c : Char) : List Char → Option Nat
  | [] => none
  | d :: rest =>
    match rfind? c rest with
    | some offset => some (d.utf8Size + offset)
    | none => if d = c then some 0 else none

/-! ## Where the boundaries are -/

theorem utf8ByteSize_ofList (chars : List Char) :
    (String.ofList chars).utf8ByteSize = byteLength chars := by
  induction chars with
  | nil => simp [byteLength]
  | cons c chars ih =>
    have hcons : String.ofList (c :: chars) = String.singleton c ++ String.ofList chars := by
      rw [← String.toList_inj]
      simp
    rw [hcons, String.utf8ByteSize_append, ih, String.utf8ByteSize_singleton, byteLength_cons]

variable {text : String} {offset : Nat}

theorem IsBoundary.le (h : IsBoundary text offset) : offset ≤ text.utf8ByteSize :=
  h.le_utf8ByteSize

theorem isBoundary_iff : IsBoundary text offset ↔
    ∃ before after, text.toList = before ++ after ∧ offset = byteLength before := by
  rw [IsBoundary, String.Pos.Raw.isValid_iff_exists_append]
  constructor
  · rintro ⟨before, after, rfl, hoffset⟩
    refine ⟨before.toList, after.toList, String.toList_append, ?_⟩
    rw [← utf8ByteSize_ofList, String.ofList_toList]
    exact congrArg String.Pos.Raw.byteIdx hoffset
  · rintro ⟨before, after, htext, rfl⟩
    refine ⟨String.ofList before, String.ofList after, ?_, ?_⟩
    · rw [← String.ofList_append, ← htext, String.ofList_toList]
    · rw [← utf8ByteSize_ofList]
      rfl

variable {before after : List Char}

theorem isBoundary_byteLength (h : text.toList = before ++ after) :
    IsBoundary text (byteLength before) :=
  isBoundary_iff.mpr ⟨before, after, h, rfl⟩

/-- No boundary is inside a character. -/
theorem not_isBoundary {c : Char} (h : text.toList = before ++ c :: after)
    (hfirst : byteLength before < offset) (hlast : offset < byteLength before + c.utf8Size) :
    ¬ IsBoundary text offset := by
  intro hb
  obtain ⟨first, rest, htext, rfl⟩ := isBoundary_iff.mp hb
  rw [h] at htext
  rcases List.append_eq_append_iff.mp htext with ⟨more, rfl, hrest⟩ | ⟨more, rfl, hrest⟩
  · cases more with
    | nil => simp at hfirst
    | cons d more =>
      obtain ⟨rfl, _⟩ := List.cons.inj hrest
      rw [byteLength_append, byteLength_cons] at hlast
      omega
  · rw [byteLength_append] at hfirst
    omega

theorem cut?_eq (h : text.toList = before ++ after) :
    cut? text (byteLength before) = some (String.ofList before, String.ofList after) := by
  have hb := isBoundary_byteLength h
  have hsplits : (text.pos ⟨byteLength before⟩ hb).Splits (String.ofList before)
      (String.ofList after) := by
    constructor
    · rw [← String.ofList_append, ← h, String.ofList_toList]
    · show String.Pos.Raw.mk (byteLength before) = ⟨(String.ofList before).utf8ByteSize⟩
      rw [utf8ByteSize_ofList]
  rw [cut?, dif_pos hb, hsplits.copy_sliceTo_eq, hsplits.copy_sliceFrom_eq]

theorem insert?_eq (h : text.toList = before ++ after) (more : String) :
    insert? text (byteLength before) more =
      some (String.ofList (before ++ more.toList ++ after)) := by
  simp [insert?, cut?_eq h, String.ofList_append, String.append_assoc]

/-! ## The walks -/

theorem boundaryBelow_eq {start : Nat} (hs : IsBoundary text start) (hle : start ≤ offset)
    (hno : ∀ n, start < n → n ≤ offset → ¬ IsBoundary text n) :
    boundaryBelow text offset = start := by
  induction offset with
  | zero =>
    rw [boundaryBelow]
    omega
  | succ offset ih =>
    rw [boundaryBelow]
    by_cases hstart : start = offset + 1
    · rw [← hstart, if_pos hs]
    · rw [if_neg (hno (offset + 1) (by omega) (Nat.le_refl _))]
      exact ih (by omega) fun n hl hr => hno n hl (by omega)

theorem boundaryAbove_eq {stop : Nat} (hs : IsBoundary text stop) (hle : offset ≤ stop)
    (hno : ∀ n, offset ≤ n → n < stop → ¬ IsBoundary text n) :
    boundaryAbove text offset = stop := by
  have hend := hs.le
  fun_induction boundaryAbove text offset with
  | case1 offset hstep ih =>
    have hne : offset ≠ stop := by
      rintro rfl
      exact hstep.2 hs
    exact ih (by omega) fun n hl hr => hno n (by omega) hr
  | case2 offset hstop =>
    by_contra hne
    exact hstop ⟨by omega, hno offset (Nat.le_refl _) (by omega)⟩

variable {c : Char} (h : text.toList = before ++ c :: after)

include h

theorem toList_eq_concat : text.toList = (before ++ [c]) ++ after := by simpa using h

theorem isBoundary_end : IsBoundary text (byteLength before + c.utf8Size) := by
  have hb := isBoundary_byteLength (toList_eq_concat h)
  rwa [byteLength_append] at hb

theorem remove?_char : remove? text (byteLength before) (byteLength before + c.utf8Size) =
    some (String.ofList (before ++ after)) := by
  have hlast := cut?_eq (toList_eq_concat h)
  rw [byteLength_append] at hlast
  have hend : byteLength before + byteLength [c] = byteLength before + c.utf8Size := rfl
  rw [hend] at hlast
  simp [remove?, cut?_eq h, hlast, String.ofList_append]

/-- Stepping back from the end of a character leads to its start. -/
theorem boundaryBelow_char :
    boundaryBelow text (byteLength before + c.utf8Size - 1) = byteLength before := by
  have hpos := c.utf8Size_pos
  exact boundaryBelow_eq (isBoundary_byteLength h) (by omega) fun n hl hr =>
    not_isBoundary h hl (by omega)

/-- Stepping on from the start of a character leads to its end. -/
theorem boundaryAbove_char :
    boundaryAbove text (byteLength before + 1) = byteLength before + c.utf8Size := by
  have hpos := c.utf8Size_pos
  exact boundaryAbove_eq (isBoundary_end h) (by omega) fun n hl hr =>
    not_isBoundary h (by omega) hr

omit h

/-! ## Places of a character -/

theorem find?_eq (c : Char) (text : List Char) :
    find? c text = if c ∈ text then some (byteLength (text.takeWhile (· != c))) else none := by
  induction text with
  | nil => rfl
  | cons d rest ih =>
    by_cases hd : d = c
    · simp [find?, hd, byteLength]
    · by_cases hc : c ∈ rest
      · simp [find?, hd, ih, hc, byteLength_cons]
      · simp [find?, hd, ih, hc, Ne.symm hd]

theorem rfind?_concat (c d : Char) (text : List Char) :
    rfind? c (text ++ [d]) = if d = c then some (byteLength text) else rfind? c text := by
  induction text with
  | nil => simp [rfind?, byteLength]
  | cons first rest ih =>
    rw [List.cons_append, rfind?, ih, rfind?]
    by_cases hd : d = c
    · simp [hd, byteLength_cons]
    · simp [hd]

/-- Right after the last place of a character, or at the start of the text. -/
theorem rfind?_reverse (c : Char) (before : List Char) :
    ((rfind? c before.reverse).map (· + c.utf8Size)).getD 0 =
      byteLength (before.dropWhile (· != c)) := by
  induction before with
  | nil => rfl
  | cons d before ih =>
    rw [List.reverse_cons, rfind?_concat]
    by_cases hd : d = c
    · simp [hd, byteLength_cons, byteLength_reverse, Nat.add_comm]
    · simp [hd, ih]

end Echelon.Text
