import Echelon.Proofs.Matrix.Applies
import Echelon.Proofs.Number.ReadBack
import Echelon.Proofs.Operation.Readable

/-!
# Well-formed matrices

Every cell of a well-formed matrix is a finite number or a fraction that a division really left.
Building from tokens gives such a matrix, as only literals of finite numbers are read, and every
readable operation keeps it one: products and sums are checked before they are stored, quotients
before they are split into numbers and fractions, and a swap only moves cells.
-/

namespace Echelon

open Result

/-! ## Cells -/

namespace Cell

/-- The number is finite, or the fraction is one that a division by a finite number left. -/
inductive Proper : Cell → Prop where
  | number {x : Binary64} : x.isFinite = true → Proper (.number x)
  | fraction {n d : Binary64} : n.isFinite = true → d.isFinite = true → d.isZero = false →
      (n % d).isZero = false → (n / d).isFinite = true → Proper (.fraction n d)

theorem proper_quotient {x d : Binary64} (hx : x.isFinite = true) (hd : d.isFinite = true)
    (hz : d.isZero = false) (hq : (x / d).isFinite = true) : (quotient x d).Proper := by
  unfold quotient
  split
  · exact .number hq
  · rename_i hrem
    exact .fraction hx hd hz (Bool.eq_false_iff.mpr hrem) hq

theorem proper_of_ofToken? {token : String} {cell : Cell} (h : ofToken? token = some cell) :
    cell.Proper := by
  obtain ⟨x, hx, rfl⟩ := Option.map_eq_some_iff.mp h
  exact .number (Option.filter_eq_some_iff.mp hx).2

/-- What is shown for a proper cell is made of digits, minus signs, points and a slash. -/
theorem Proper.not_mem_text {cell : Cell} (h : cell.Proper) {c : Char} (hdigit : c.isDigit = false)
    (hmark : c ∉ ['-', '.', '/']) : c ∉ cell.text.toList := by
  simp only [List.mem_cons, List.not_mem_nil, or_false, not_or] at hmark
  obtain ⟨hminus, hpoint, hslash⟩ := hmark
  have hchars {x : Binary64} (hx : x.isFinite = true) : c ∉ x.chars :=
    Binary64.not_mem_chars hx hdigit hminus hpoint
  cases h with
  | number hx => simpa [text, Binary64.text] using hchars hx
  | fraction hn hd _ _ _ => simpa [text, Binary64.text] using ⟨hchars hn, hslash, hchars hd⟩

/-- What is shown for a proper cell never shows the sign of an infinity. -/
theorem Proper.hash_not_mem_text {cell : Cell} (h : cell.Proper) : '#' ∉ cell.text.toList :=
  h.not_mem_text (by decide) (by decide)

end Cell

/-! ## Matrices -/

namespace Matrix

/-- A rectangular matrix of proper cells. -/
structure WellFormed (m : Matrix) : Prop extends m.Rectangular where
  proper : ∀ row ∈ m.rows, ∀ cell ∈ row, cell.Proper

variable {m n : Matrix}

theorem wellFormed_of_ofTokens {rows : List (List String)} (h : ofTokens rows = .ok m) :
    m.WellFormed := by
  obtain ⟨cells, hcells, hm⟩ := bind_eq_ok.mp h
  obtain ⟨hrows, hrect⟩ := ofRows_eq_ok.mp hm
  refine ⟨hrect, ?_⟩
  rw [hrows]
  intro row hrow cell hcell
  obtain ⟨⟨tokens, number⟩, _, hread⟩ := exists_of_mapM hcells row hrow
  obtain ⟨token, _, htoken⟩ := exists_of_mapM hread cell hcell
  unfold readCell at htoken
  split at htoken
  · rename_i found hfound
    cases htoken
    exact Cell.proper_of_ofToken? hfound
  · cases htoken

/-- Every readable operation keeps a matrix well formed. -/
theorem WellFormed.applies {op : Operation} (h : m.WellFormed) (hop : op.Readable)
    (ha : Applies m op n) : n.WellFormed := by
  refine ⟨ha.rectangular h.toRectangular, ha.forall_cells h.proper (fun _ => .number) ?_⟩
  intro row x d hdivide hz hx hquotient
  have hd : d.isFinite = true := hop.scalar_finite d (by rw [hdivide, Operation.scalar?])
  cases hx with
  | number hfinite => exact Cell.proper_quotient hfinite hd hz hquotient

end Matrix

end Echelon
