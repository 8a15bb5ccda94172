import Echelon.Proofs.Matrix.WellFormed
import Echelon.Proofs.Number.Literals

/-!
# Shown cells as tokens

What is shown for a proper cell is one word. For a number it is a token that stands for that number,
up to the sign of a zero. For a fraction it is no token at all, as no literal has a slash in it.
-/

namespace Echelon

open Text

/-! ## No literal has a slash -/

namespace Literal

variable {text run sign : List Char} {negative : Bool} {x : Binary64}

theorem Digits.slash_not_mem (h : Digits run) : '/' ∉ run := by
  intro hmem
  cases h '/' hmem

theorem Sign.slash_not_mem (h : Sign sign negative) : '/' ∉ sign := by
  cases h <;> simp

theorem Point.slash_not_mem {point fraction : List Char} (h : Point point fraction) :
    '/' ∉ point := by
  cases h with
  | none => simp
  | some hdigits => simp [hdigits.slash_not_mem]

theorem Exponent.slash_not_mem {e : Int} (h : Exponent text e) : '/' ∉ text := by
  cases h with
  | none => simp
  | some hmark hsign hdigits _ =>
    rcases hmark with rfl | rfl <;> simp [hsign.slash_not_mem, hdigits.slash_not_mem]

theorem Special.slash_not_mem (h : Special negative text x) : '/' ∉ text := by
  intro hmem
  have hlower : '/' ∈ text.map Char.toLower := List.mem_map.mpr ⟨'/', hmem, by decide⟩
  cases h with
  | infinity hword =>
    rcases hword with hword | hword
    · exact absurd (hword ▸ hlower) (by decide)
    · exact absurd (hword ▸ hlower) (by decide)
  | nan hword => exact absurd (hword ▸ hlower) (by decide)

theorem Names.slash_not_mem (h : Names text x) : '/' ∉ text := by
  cases h with
  | decimal hsign hbody =>
    obtain ⟨hwhole, hpoint, _, hexponent⟩ := hbody
    simp [hsign.slash_not_mem, hwhole.slash_not_mem, hpoint.slash_not_mem,
      hexponent.slash_not_mem]
  | special hsign hword => simp [hsign.slash_not_mem, hword.slash_not_mem]

theorem parse?_of_slash (h : '/' ∈ text) : parse? text = none := by
  cases hp : parse? text with
  | none => rfl
  | some x => exact absurd h (parse?_eq_some.mp hp).1.slash_not_mem

end Literal

/-! ## Cells -/

namespace Cell

/-- A cell as it is shown: a zero has no sign. -/
def plain : Cell → Cell
  | number value => number value.plain
  | fraction numerator denominator => fraction numerator.plain denominator.plain

/-- Cells that compare as equal, their numbers as numbers do. -/
def SameValue : Cell → Cell → Prop
  | number x, number y => x.SameValue y
  | fraction n d, fraction n' d' => n.SameValue n' ∧ d.SameValue d'
  | _, _ => False

variable {cell : Cell}

theorem sameValue_plain (h : cell.Proper) : cell.plain.SameValue cell := by
  cases h with
  | number hx => exact Binary64.sameValue_plain hx
  | fraction hn hd _ _ _ => exact ⟨Binary64.sameValue_plain hn, Binary64.sameValue_plain hd⟩

theorem word_chars {x : Binary64} (h : x.isFinite = true) : Word x.chars := by
  obtain ⟨w, hchars, _⟩ := Binary64.exists_chars_value h
  rw [hchars]
  exact Grammar.word_number w

theorem Proper.word_text (h : cell.Proper) : Word cell.text.toList := by
  cases h with
  | number hx => simpa [text, Binary64.text] using word_chars hx
  | fraction hn hd _ _ _ =>
    have hword := (word_chars hn).append ((word_chars hd).cons (c := '/') (by decide))
    simpa [text, Binary64.text] using hword

theorem ofToken?_number {x : Binary64} (h : x.isFinite = true) :
    ofToken? (number x).text = some (number x).plain := by
  have hword := (Proper.number h).word_text
  rw [ofToken?, hword.trim, text, Binary64.text, String.toList_ofList, Binary64.parse?_chars h]
  rfl

theorem ofToken?_fraction {n d : Binary64} (h : (fraction n d).Proper) :
    ofToken? (fraction n d).text = none := by
  have hslash : '/' ∈ (fraction n d).text.toList := by simp [text]
  rw [ofToken?, h.word_text.trim, Literal.parse?_of_slash hslash]
  rfl

/-- A fraction is shown by its two numbers. -/
theorem text_fraction_eq_iff {n d k e : Binary64} (hn : n.isFinite = true)
    (hk : k.isFinite = true) :
    (fraction n d).text = (fraction k e).text ↔ n.text = k.text ∧ d.text = e.text := by
  have hslash {x : Binary64} (hx : x.isFinite = true) : '/' ∉ x.text.toList := by
    rw [Binary64.text, String.toList_ofList]
    exact Binary64.not_mem_chars hx (by decide) (by decide) (by decide)
  have hcut :=
    append_separator_inj (x := d.text.toList) (y := e.text.toList) (hslash hn) (hslash hk)
  simpa [text, ← String.toList_inj] using hcut

/-- Proper cells are shown alike when they compare as equal. -/
theorem text_eq_iff {a b : Cell} (ha : a.Proper) (hb : b.Proper) :
    a.text = b.text ↔ a.SameValue b := by
  cases ha with
  | number hx =>
    cases hb with
    | number hy => exact Binary64.text_eq_iff hx hy
    | @fraction n d hn hd hz hrem hq =>
      refine ⟨fun h => ?_, fun h => h.elim⟩
      have hread := ofToken?_number hx
      rw [h, ofToken?_fraction (.fraction hn hd hz hrem hq)] at hread
      cases hread
  | @fraction n d hn hd hz hrem hq =>
    cases hb with
    | number hy =>
      refine ⟨fun h => ?_, fun h => h.elim⟩
      have hread := ofToken?_number hy
      rw [← h, ofToken?_fraction (.fraction hn hd hz hrem hq)] at hread
      cases hread
    | fraction hk he _ _ _ =>
      rw [text_fraction_eq_iff hn hk, Binary64.text_eq_iff hn hk, Binary64.text_eq_iff hd he]
      rfl

end Cell

end Echelon
