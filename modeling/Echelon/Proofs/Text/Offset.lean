import Echelon.Text.Offset

/-!
# Byte offsets between characters

The offset after some characters of a text splits it there, so what stands around a position is
found again from the whole text and the length of the part before the position.
-/

namespace Echelon.Text

theorem byteLength_cons (c : Char) (text : List Char) :
    byteLength (c :: text) = c.utf8Size + byteLength text := rfl

theorem byteLength_append (a b : List Char) :
    byteLength (a ++ b) = byteLength a + byteLength b := by
  induction a with
  | nil => simp [byteLength]
  | cons c a ih =>
    rw [List.cons_append, byteLength_cons, byteLength_cons, ih]
    omega

theorem byteLength_reverse (text : List Char) : byteLength text.reverse = byteLength text := by
  induction text with
  | nil => rfl
  | cons c text ih =>
    have hsingle : byteLength [c] = c.utf8Size := rfl
    rw [List.reverse_cons, byteLength_append, ih, hsingle, byteLength_cons]
    omega

theorem advance_append (first before after : List Char) :
    Around.advance (byteLength first) before (first ++ after) =
      ⟨first.reverse ++ before, after⟩ := by
  induction first generalizing before with
  | nil =>
    cases after with
    | nil => rfl
    | cons c after =>
      have hpos := c.utf8Size_pos
      rw [List.nil_append, Around.advance, if_neg (by simp [byteLength]; omega)]
      rfl
  | cons c first ih =>
    have hrest : byteLength (c :: first) - c.utf8Size = byteLength first := by
      rw [byteLength_cons]
      omega
    rw [List.cons_append, Around.advance, if_pos (by rw [byteLength_cons]; omega), hrest, ih]
    simp

theorem splitAtByte_whole (a : Around) : splitAtByte (byteLength a.before) a.whole = a := by
  rw [splitAtByte, Around.whole, ← byteLength_reverse, advance_append]
  simp

end Echelon.Text
