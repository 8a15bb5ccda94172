import Echelon.Proofs.Operation.Classification

/-!
# Readable operations

What every operation that a text stands for has in common: its rows are named by one digit, its
number is finite, and it does not divide by zero.
-/

namespace Echelon

theorem Binary64.isFinite_one : Binary64.one.isFinite = true := by decide +kernel

namespace Operation

/-- The number in an operation, if it has one. -/
def scalar? : Operation → Option Binary64
  | swap _ _ => none
  | scale _ factor => some factor
  | divide _ divisor => some divisor
  | combine _ _ _ factor _ => some factor

/-- An operation that some text stands for. -/
structure Readable (op : Operation) : Prop where
  rows_le : ∀ row ∈ op.rows, row.number ≤ 9
  scalar_finite : ∀ x, op.scalar? = some x → x.isFinite = true
  divisor_ne_zero : ∀ row divisor, op = .divide row divisor → divisor.isZero = false

end Operation

namespace Grammar

open Operation Text

theorem Row.number_le {a : List Char} {i : RowName} (h : Row a i) : i.number ≤ 9 := by
  obtain ⟨hd⟩ := h
  obtain ⟨_, hle⟩ := Char.isDigit_iff_toNat.mp hd
  exact Nat.sub_le_sub_right hle _

theorem Assignment.number_le {head : List Char} {i j : RowName} (h : Assignment head i j) :
    i.number ≤ 9 ∧ j.number ≤ 9 := by
  obtain ⟨hi, _, _, hj, _⟩ := h
  exact ⟨hi.number_le, hj.number_le⟩

theorem Derives.readable {text : List Char} {op : Operation} (h : Derives text op) :
    op.Readable := by
  cases h with
  | swap hf =>
    obtain ⟨hi, _, _, hj⟩ := hf
    refine ⟨?_, by simp [scalar?], by simp⟩
    simpa [Operation.rows] using ⟨hi.number_le, hj.number_le⟩
  | scale hf hfin =>
    obtain ⟨_, ha, _⟩ := hf
    refine ⟨?_, by simpa [scalar?] using hfin, by simp⟩
    simpa [Operation.rows] using ha.number_le.1
  | divide hf hfin hz =>
    obtain ⟨_, ha, _⟩ := hf
    refine ⟨?_, by simpa [scalar?] using hfin, by simpa using hz⟩
    simpa [Operation.rows] using ha.number_le.1
  | combine hf hfin =>
    obtain ⟨_, _, ha, _, hk⟩ := hf
    refine ⟨?_, by simpa [scalar?] using hfin, by simp⟩
    simpa [Operation.rows] using ⟨ha.number_le.1, ha.number_le.2, hk.number_le⟩
  | combineOne hf =>
    obtain ⟨_, _, ha, _, hk⟩ := hf
    refine ⟨?_, by simpa [scalar?] using Binary64.isFinite_one, by simp⟩
    simpa [Operation.rows] using ⟨ha.number_le.1, ha.number_le.2, hk.number_le⟩

end Grammar

theorem Operation.readable_of_parse {s : String} {op : Operation} (h : parse s = .ok op) :
    op.Readable := (Grammar.derives_of_parse h).readable

end Echelon
