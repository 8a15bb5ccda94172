import Echelon.Proofs.Matrix.Applies

/-!
# What an operation computes

The places of a matrix after an operation, from the places before it. All rows are read before one
is written, so a target may be one of the rows that it is computed from. Every cell that is read is
a number: an operation can move a fraction, and a division can leave one, but none calculates with
it.
-/

namespace Echelon

namespace Operation

/-- The rows whose numbers an operation reads. -/
def operands : Operation → List RowName
  | swap _ _ => []
  | scale row _ => [row]
  | divide row _ => [row]
  | combine _ left _ _ right => [left, right]

/-- The rows that an operation writes. -/
def written : Operation → List RowName
  | swap first second => [first, second]
  | scale row _ => [row]
  | divide row _ => [row]
  | combine target _ _ _ _ => [target]

theorem mem_rows_of_mem_operands {op : Operation} {row : RowName} (h : row ∈ op.operands) :
    row ∈ op.rows := by
  cases op with
  | swap first second => cases h
  | scale target factor => exact h
  | divide target divisor => exact h
  | combine target left joiner factor right => exact List.mem_cons_of_mem target h

end Operation

namespace Matrix

open Result

/-- The cell of a row in a column counted from zero. -/
def at? (m : Matrix) (row : RowName) (column : Nat) : Option Cell :=
  m.cell? (row.number - 1) column

/-- The rows that an operation writes into `n` hold what it makes of the rows of `m`. -/
def Computes (m n : Matrix) : Operation → Prop
  | .swap first second => n.cells first = m.cells second ∧ n.cells second = m.cells first
  | .scale row factor => ∀ column < m.width, ∃ x,
      m.at? row column = some (.number x) ∧ n.at? row column = some (.number (x * factor))
  | .divide row divisor => ∀ column < m.width, ∃ x,
      m.at? row column = some (.number x) ∧ n.at? row column = some (.quotient x divisor)
  | .combine target left joiner factor right => ∀ column < m.width, ∃ x y,
      m.at? left column = some (.number x) ∧ m.at? right column = some (.number y) ∧
        n.at? target column = some (.number (joiner.join x (factor * y)))

variable {m n : Matrix} {row : RowName} {xs : List Binary64} {column : Nat}

theorem at?_eq (m : Matrix) (row : RowName) (column : Nat) :
    m.at? row column = (m.cells row)[column]? := by
  rw [at?, cell?, cells, List.getD_eq_getElem?_getD]
  cases m.rows[row.number - 1]? <;> rfl

theorem at?_replace (h : m.Has row) (cells : List Cell) :
    (m.replace row cells).at? row column = cells[column]? := by
  rw [at?_eq, cells_replace h]

/-- A row without fractions has a number in every column. -/
theorem Holds.exists_at? (h : m.Holds row xs) (hm : m.Rectangular) (hc : column < m.width) :
    ∃ x, xs[column]? = some x ∧ m.at? row column = some (.number x) := by
  rw [← h.length_eq hm] at hc
  refine ⟨xs[column], List.getElem?_eq_getElem hc, ?_⟩
  rw [at?_eq, h.2, List.getElem?_map, List.getElem?_eq_getElem hc]
  rfl

theorem Holds.isFraction_eq_false (h : m.Holds row xs) :
    ∀ cell ∈ m.cells row, cell.isFraction = false := by
  rw [h.2, List.forall_mem_map]
  exact fun _ _ => rfl

section

variable {op : Operation} (h : Applies m op n)

include h

theorem Applies.has : ∀ row ∈ op.rows, m.Has row := by
  cases h with
  | swap hi hj => simpa [Operation.rows] using ⟨hi, hj⟩
  | scale hxs _ => simpa [Operation.rows] using hxs.1
  | divide _ hxs _ => simpa [Operation.rows] using hxs.1
  | combine hi hxs hys _ => simpa [Operation.rows] using ⟨hi, hxs.1, hys.1⟩

theorem Applies.computes (hm : m.Rectangular) : Computes m n op := by
  cases h with
  | swap hi hj => exact ⟨cells_exchange_left hi hj, cells_exchange_right hj⟩
  | scale hxs _ =>
    intro column hc
    obtain ⟨x, hx, hold⟩ := hxs.exists_at? hm hc
    refine ⟨x, hold, ?_⟩
    rw [at?_replace hxs.1, List.getElem?_map, List.getElem?_map, hx]
    rfl
  | divide _ hxs _ =>
    intro column hc
    obtain ⟨x, hx, hold⟩ := hxs.exists_at? hm hc
    refine ⟨x, hold, ?_⟩
    rw [at?_replace hxs.1, List.getElem?_map, hx]
    rfl
  | combine hi hxs hys _ =>
    intro column hc
    obtain ⟨x, hx, hleft⟩ := hxs.exists_at? hm hc
    obtain ⟨y, hy, hright⟩ := hys.exists_at? hm hc
    refine ⟨x, y, hleft, hright, ?_⟩
    rw [at?_replace hi, List.getElem?_map, combined, List.getElem?_zipWith, hx, hy]
    rfl

theorem Applies.cells_of_not_written (hrow : m.Has row) (hnot : row ∉ op.written) :
    n.cells row = m.cells row := by
  cases h with
  | swap hi hj =>
    simp only [Operation.written, List.mem_cons, List.not_mem_nil, or_false, not_or] at hnot
    exact cells_exchange_of_ne hi hj hrow hnot.1 hnot.2
  | scale hxs _ =>
    exact cells_replace_of_ne hxs.1 hrow (by simpa [Operation.written] using hnot) _
  | divide _ hxs _ =>
    exact cells_replace_of_ne hxs.1 hrow (by simpa [Operation.written] using hnot) _
  | combine hi _ _ _ =>
    exact cells_replace_of_ne hi hrow (by simpa [Operation.written] using hnot) _

theorem Applies.operands_hold : ∀ row ∈ op.operands, ∃ xs, m.Holds row xs := by
  cases h with
  | swap _ _ => simp [Operation.operands]
  | scale hxs _ => simpa [Operation.operands] using ⟨_, hxs⟩
  | divide _ hxs _ => simpa [Operation.operands] using ⟨_, hxs⟩
  | combine _ hxs hys _ => simpa [Operation.operands] using ⟨⟨_, hxs⟩, ⟨_, hys⟩⟩

/-- Only a division puts a fraction into a row that was not there before. -/
theorem Applies.mem_rows_of_fraction (hop : ∀ row divisor, op ≠ .divide row divisor)
    {cells : List Cell} (hcells : cells ∈ n.rows)
    (hf : ∃ cell ∈ cells, cell.isFraction = true) : cells ∈ m.rows := by
  have hnumbers (xs : List Binary64) : ¬ ∃ cell ∈ xs.map Cell.number, cell.isFraction = true := by
    simp [Cell.isFraction]
  cases h with
  | swap hi hj =>
    rw [exchange_eq] at hcells
    rcases mem_replace hcells with rfl | hcells
    · exact cells_mem hi
    · rcases mem_replace hcells with rfl | hcells
      · exact cells_mem hj
      · exact hcells
  | scale _ _ =>
    rcases mem_replace hcells with rfl | hcells
    · exact absurd hf (hnumbers _)
    · exact hcells
  | divide _ _ _ => exact absurd rfl (hop _ _)
  | combine _ _ _ _ =>
    rcases mem_replace hcells with rfl | hcells
    · exact absurd hf (hnumbers _)
    · exact hcells

end

/-- **What a successful operation computes.** The shape stays, the rows written hold what
`Computes` says of the matrix before, and every other row is the same. All cells that are read are
numbers, and unless the operation divides, each row with a fraction was there before. -/
theorem operation_computes {rows : List (List Cell)} {op : Operation} (hm : ofRows rows = .ok m)
    (h : m.apply op = .ok n) :
    SameShape m n ∧ n.Rectangular ∧ (∀ row ∈ op.rows, m.Has row) ∧ Computes m n op ∧
    (∀ row, m.Has row → row ∉ op.written → n.cells row = m.cells row) ∧
    (∀ row ∈ op.operands, ∀ cell ∈ m.cells row, cell.isFraction = false) ∧
    ((∀ row divisor, op ≠ .divide row divisor) → ∀ cells ∈ n.rows,
      (∃ cell ∈ cells, cell.isFraction = true) → cells ∈ m.rows) := by
  have hrect : m.Rectangular := (ofRows_eq_ok.mp hm).2
  have ha : Applies m op n := apply_eq_ok.mp h
  refine ⟨ha.sameShape, ha.rectangular hrect, ha.has, ha.computes hrect,
    fun _ => ha.cells_of_not_written, fun row hrow => ?_, fun hop _ => ha.mem_rows_of_fraction hop⟩
  obtain ⟨xs, hxs⟩ := ha.operands_hold row hrow
  exact hxs.isFraction_eq_false

/-- A target that is also multiplied, below a row with a fraction. -/
theorem operation_computes_aliased : ∃ rows m n, ofRows rows = .ok m ∧
    m.apply (.combine ⟨2⟩ ⟨3⟩ .minus (.ofNat 2) ⟨2⟩) = .ok n ∧
    m.texts = [["7/3", "1"], ["5", "6"], ["1", "2"]] ∧
    n.texts = [["7/3", "1"], ["-9", "-10"], ["1", "2"]] ∧
    Computes m n (.combine ⟨2⟩ ⟨3⟩ .minus (.ofNat 2) ⟨2⟩) ∧ n.cells ⟨1⟩ = m.cells ⟨1⟩ := by
  let numbers (a b : Nat) : List Cell := [.number (.ofNat a), .number (.ofNat b)]
  let rows : List (List Cell) :=
    [[.fraction (.ofNat 7) (.ofNat 3), .number .one], numbers 5 6, numbers 1 2]
  let op : Operation := .combine ⟨2⟩ ⟨3⟩ .minus (.ofNat 2) ⟨2⟩
  let m : Matrix := ⟨rows, 2⟩
  have hm : ofRows rows = .ok m := rfl
  have htexts : (m.apply op).map texts = .ok [["7/3", "1"], ["-9", "-10"], ["1", "2"]] := by
    decide +kernel
  obtain ⟨n, h, htexts⟩ := map_eq_ok.mp htexts
  obtain ⟨_, _, _, hcomputes, hframe, _⟩ := operation_computes hm h
  exact ⟨rows, m, n, hm, h, by decide +kernel, htexts, hcomputes,
    hframe ⟨1⟩ (by decide) (by decide)⟩

end Matrix

end Echelon
