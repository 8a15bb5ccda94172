import Echelon.Proofs.Matrix.Locality
import Echelon.Proofs.Matrix.Refusal
import Mathlib.Data.List.Find

/-!
# The names of rows are only names

Exchanging two rows moves their cells to each other's name. An operation on the exchanged matrix
does what the operation with the two names exchanged does on the matrix itself, and has the same
kinds of faults.
-/

namespace Echelon

namespace Operation

variable {op : Operation} {name : RowName → RowName} {i j : RowName}

theorem operands_rename : (op.rename name).operands = op.operands.map name := by cases op <;> rfl

theorem dividesByZero_rename : (op.rename name).DividesByZero ↔ op.DividesByZero := by
  cases op <;> simp [DividesByZero, rename]

theorem rename_swap_rename_swap (op : Operation) :
    (op.rename (Equiv.swap i j)).rename (Equiv.swap i j) = op := by
  cases op <;> simp [rename]

end Operation

namespace Matrix

open Result

variable {m n : Matrix} {op : Operation} {fault other : Fault} {i j row : RowName}

section

variable (hi : m.Has i) (hj : m.Has j)

include hi hj

/-! ## An exchange as a change of names -/

theorem apply_swap : m.apply (.swap i j) = .ok (m.exchange i j) := apply_eq_ok.mpr (.swap hi hj)

/-- What an operation does, it does after an exchange under the exchanged names. -/
theorem Applies.exchange (h : Applies m op n) :
    Applies (m.exchange i j) (op.rename (Equiv.swap i j)) (n.exchange i j) := by
  have hs := sameShape_exchange m i j
  have hcells : ∀ row ∈ op.sources, (m.exchange i j).cells (Equiv.swap i j row) = m.cells row :=
    fun row hrow =>
      cells_exchange_swap hi hj (h.has row (Operation.mem_rows_of_mem_sources hrow))
  obtain ⟨l, hl, hwritten⟩ := h.transport (Equiv.swap i j)
    (fun row hrow => hs.has_iff.mp ((has_swap hi hj).mpr (h.has row hrow))) hcells
  suffices heq : l = n.exchange i j from heq ▸ hl
  have hn := h.sameShape
  refine eq_exchange (hn.has_iff.mp hi) (hn.has_iff.mp hj)
    (hn.symm.trans (hs.trans hl.sameShape)) fun row hrow => ?_
  by_cases hrw : row ∈ op.written
  · exact hwritten row hrw
  · have hm : m.Has row := hn.has_iff.mpr hrow
    have hother : Equiv.swap i j row ∉ (op.rename (Equiv.swap i j)).written := by
      rw [Operation.written_rename, List.mem_map_of_injective (Equiv.swap i j).injective]
      exact hrw
    rw [hl.cells_of_not_written (hs.has_iff.mp ((has_swap hi hj).mpr hm)) hother,
      cells_exchange_swap hi hj hm, h.cells_of_not_written hm hrw]

/-! ## Faults under an exchange -/

theorem at?_exchange_swap (hrow : m.Has row) (column : Nat) :
    (m.exchange i j).at? (Equiv.swap i j row) column = m.at? row column := by
  rw [at?_eq, at?_eq, cells_exchange_swap hi hj hrow]

theorem calculates_exchange {x : Binary64} (hrows : ∀ row ∈ op.rows, m.Has row)
    (h : m.Calculates x op) : (m.exchange i j).Calculates x (op.rename (Equiv.swap i j)) := by
  cases op with
  | swap first second => cases h
  | scale row factor =>
    have hrow := hrows row (by simp [Operation.rows])
    simpa only [Calculates, Operation.rename, at?_exchange_swap hi hj hrow] using h
  | divide row divisor =>
    have hrow := hrows row (by simp [Operation.rows])
    simpa only [Calculates, Operation.rename, at?_exchange_swap hi hj hrow] using h
  | combine target left joiner factor right =>
    have hleft := hrows left (by simp [Operation.rows])
    have hright := hrows right (by simp [Operation.rows])
    simpa only [Calculates, Operation.rename, at?_exchange_swap hi hj hleft,
      at?_exchange_swap hi hj hright] using h

theorem hasFraction_exchange_swap (hrow : m.Has row) :
    (m.exchange i j).HasFraction (Equiv.swap i j row) ↔ m.HasFraction row := by
  rw [HasFraction, HasFraction, cells_exchange_swap hi hj hrow]

/-- The fault that counts first has its like after an exchange. -/
theorem First.exists_exchange (h : m.First op fault) :
    ∃ other, (m.exchange i j).Objects (op.rename (Equiv.swap i j)) other ∧
      other.rank = fault.rank := by
  have hhas (row : RowName) : (m.exchange i j).Has (Equiv.swap i j row) ↔ m.Has row := by
    rw [has_exchange, has_swap hi hj]
  cases h.objects with
  | @rowOutOfRange row hfind =>
    have hsame : (fun row => decide (¬ (m.exchange i j).Has (Equiv.swap i j row))) =
        fun row => decide (¬ m.Has row) := by simp only [hhas]
    have hfind' : (op.rename (Equiv.swap i j)).rows.find? (¬ (m.exchange i j).Has ·) =
        some (Equiv.swap i j row) := by
      rw [Operation.rows_rename, List.find?_map, Function.comp_def, hsame, hfind, Option.map_some]
    exact ⟨_, .rowOutOfRange hfind', rfl⟩
  | divisionByZero hz => exact ⟨_, .divisionByZero (Operation.dividesByZero_rename.mpr hz), rfl⟩
  | @fractionOperand row column n d hfind hleftmost =>
    have hrows : ∀ row ∈ op.operands, m.Has row := fun row hrow =>
      h.has (Nat.succ_pos _) row (Operation.mem_rows_of_mem_operands hrow)
    have hrow := hrows row (List.mem_of_find?_eq_some hfind)
    have hfind' : (op.rename (Equiv.swap i j)).operands.find? ((m.exchange i j).HasFraction ·) =
        some (Equiv.swap i j row) := by
      have hsame : op.operands.find?
          (fun row => decide ((m.exchange i j).HasFraction (Equiv.swap i j row))) = some row := by
        rw [← hfind]
        exact List.find?_congr fun other hother =>
          decide_eq_decide.mpr (hasFraction_exchange_swap hi hj (hrows other hother))
      rw [Operation.operands_rename, List.find?_map, Function.comp_def, hsame, Option.map_some]
    have hleftmost' : (m.exchange i j).Leftmost (Equiv.swap i j row) column n d :=
      ⟨by rw [at?_exchange_swap hi hj hrow, hleftmost.at?_eq],
        fun c hc => by simpa only [at?_exchange_swap hi hj hrow] using hleftmost.number_of_lt c hc⟩
    exact ⟨_, .fractionOperand hfind' hleftmost', rfl⟩
  | overflow hx hinfinite =>
    exact ⟨_, .overflow (calculates_exchange hi hj (h.has (Nat.succ_pos _)) hx) hinfinite, rfl⟩

theorem First.rank_le_exchange (h : m.First op fault)
    (h' : (m.exchange i j).First (op.rename (Equiv.swap i j)) other) : other.rank ≤ fault.rank := by
  obtain ⟨like, hlike, hrank⟩ := h.exists_exchange hi hj
  rw [← hrank]
  exact h'.rank_le like hlike

/-- What refuses an operation after an exchange is of the kind that refuses the renamed one. -/
theorem kind_eq_of_exchange (h : (m.exchange i j).apply op = .error fault)
    (h' : m.apply (op.rename (Equiv.swap i j)) = .error other) : fault.kind = other.kind := by
  have hs := sameShape_exchange m i j
  rw [apply_eq_error] at h h'
  have hle : fault.rank ≤ other.rank := by
    refine h'.rank_le_exchange hi hj ?_
    rwa [Operation.rename_swap_rename_swap]
  have hge : other.rank ≤ fault.rank := by
    refine h.rank_le_exchange (hs.has_iff.mp hi) (hs.has_iff.mp hj) ?_
    rwa [exchange_exchange hi hj]
  exact h.objects.kind_eq h'.objects (Nat.le_antisymm hle hge)

end

/-- **Row names are only names.** Exchanging two rows, applying an operation and exchanging the rows
again has the same outcome as applying the operation with the two names exchanged: the same matrix,
or a fault of the same kind. Exchanging them twice gives the matrix back. -/
theorem row_names_exchangeable (hi : m.Has i) (hj : m.Has j) (op : Operation) :
    (do
      let a ← m.apply (.swap i j)
      let b ← a.apply op
      b.apply (.swap i j)).mapError Fault.kind =
        (m.apply (op.rename (Equiv.swap i j))).mapError Fault.kind ∧
    (do let a ← m.apply (.swap i j); a.apply (.swap i j)) = .ok m := by
  have hs := sameShape_exchange m i j
  have hi' := hs.has_iff.mp hi
  have hj' := hs.has_iff.mp hj
  rw [apply_swap hi hj]
  refine ⟨?_, by rw [ok_bind, apply_swap hi' hj', exchange_exchange hi hj]⟩
  cases happly : (m.exchange i j).apply op with
  | ok n =>
    have h := apply_eq_ok.mp happly
    have hback := h.exchange hi' hj'
    rw [exchange_exchange hi hj] at hback
    rw [ok_bind, happly, ok_bind, apply_eq_ok.mpr hback,
      apply_swap (h.sameShape.has_iff.mp hi') (h.sameShape.has_iff.mp hj')]
  | error fault =>
    cases hother : m.apply (op.rename (Equiv.swap i j)) with
    | ok n =>
      have h := (apply_eq_ok.mp hother).exchange hi hj
      rw [Operation.rename_swap_rename_swap, ← apply_eq_ok, happly] at h
      cases h
    | error other =>
      rw [ok_bind, happly, error_bind, Except.mapError, Except.mapError,
        kind_eq_of_exchange hi hj happly hother]

/-- A combination of rows, and one that is refused for a fraction that is moved to its operand. -/
theorem row_names_exchangeable_fraction : ∃ (m k : Matrix) (i j : RowName) (op refused : Operation),
    m.texts = [["7/3", "1"], ["5", "6"], ["3", "4"]] ∧ m.Has i ∧ m.Has j ∧
    op.text = "R1 = R1 - 2R2" ∧ (op.rename (Equiv.swap i j)).text = "R3 = R3 - 2R2" ∧
    k.texts = [["7/3", "1"], ["5", "6"], ["-7", "-8"]] ∧
    m.apply (op.rename (Equiv.swap i j)) = .ok k ∧
    (do
      let a ← m.apply (.swap i j)
      let b ← a.apply op
      b.apply (.swap i j)).mapError Fault.kind = .ok k ∧
    refused.text = "R3 = R3 * 2" ∧
    (do
      let a ← m.apply (.swap i j)
      let b ← a.apply refused
      b.apply (.swap i j)).mapError Fault.kind = .error .fractionOperand := by
  let m : Matrix := ⟨[[.fraction (.ofNat 7) (.ofNat 3), .number .one],
    [.number (.ofNat 5), .number (.ofNat 6)], [.number (.ofNat 3), .number (.ofNat 4)]], 2⟩
  let op : Operation := .combine ⟨1⟩ ⟨1⟩ .minus (.ofNat 2) ⟨2⟩
  let refused : Operation := .scale ⟨3⟩ (.ofNat 2)
  have hi : m.Has ⟨1⟩ := by decide
  have hj : m.Has ⟨3⟩ := by decide
  have htexts : (m.apply (op.rename (Equiv.swap ⟨1⟩ ⟨3⟩))).map texts =
      .ok [["7/3", "1"], ["5", "6"], ["-7", "-8"]] := by decide +kernel
  obtain ⟨k, hk, htexts⟩ := map_eq_ok.mp htexts
  have hsame := (row_names_exchangeable hi hj op).1
  rw [hk] at hsame
  have hrefused : (m.apply (refused.rename (Equiv.swap ⟨1⟩ ⟨3⟩))).mapError Fault.kind =
      .error .fractionOperand := by decide +kernel
  exact ⟨m, k, ⟨1⟩, ⟨3⟩, op, refused, by decide +kernel, hi, hj, by decide +kernel,
    by decide +kernel, htexts, hk, hsame, by decide +kernel,
    (row_names_exchangeable hi hj refused).1.trans hrefused⟩

end Matrix

end Echelon
