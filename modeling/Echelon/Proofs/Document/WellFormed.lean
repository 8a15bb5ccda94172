import Echelon.Proofs.Document.Replay
import Echelon.Proofs.Matrix.Refusal
import Echelon.Proofs.Matrix.WellFormed

/-!
# Well-formed documents

The matrices of a document that calls lead to, the one shown and those of the history, are all well
formed and of one shape. Starting reads the first one, operations that were read add to it, and
undoing leaves some of them.
-/

namespace Echelon.Document

open Result Echelon.Matrix

/-- The matrices of a document, oldest first. -/
def matrices (d : Document) : List Matrix := d.history ++ d.matrix.toList

/-- All matrices of the document are well formed, and they have one shape. -/
structure WellFormed (d : Document) : Prop where
  wellFormed : ∀ m ∈ d.matrices, m.WellFormed
  shape : ∃ height width, ∀ m ∈ d.matrices, m.height = height ∧ m.width = width

variable {d e : Document} {text : String}

theorem wellFormed_empty : WellFormed .empty := by
  constructor
  · intro m hm
    cases hm
  · exact ⟨0, 0, fun m hm => (nomatch hm)⟩

theorem wellFormed_start {m : Matrix} (h : m.WellFormed) : WellFormed (.start m) := by
  have hmatrices : (start m).matrices = [m] := rfl
  constructor
  · rw [hmatrices, List.forall_mem_singleton]
    exact h
  · refine ⟨m.height, m.width, ?_⟩
    rw [hmatrices, List.forall_mem_singleton]
    exact ⟨rfl, rfl⟩

/-- An operation adds the matrix that it leads to. -/
theorem exists_of_apply (h : d.apply text = .ok e) : ∃ m op next, m ∈ d.matrices ∧
    Operation.Readable op ∧ Applies m op next ∧ e.matrices = d.matrices ++ [next] := by
  obtain ⟨m, op, next, hm, hop, hnext, rfl⟩ := apply_eq_ok.mp h
  have hmatrices : d.matrices = d.history ++ [m] := by rw [matrices, hm, Option.toList_some]
  refine ⟨m, op, next, ?_, Operation.readable_of_parse hop, Matrix.apply_eq_ok.mp hnext, ?_⟩
  · rw [hmatrices]
    exact List.mem_concat_self
  · rw [hmatrices]
    rfl

theorem WellFormed.apply (hd : d.WellFormed) (h : d.apply text = .ok e) : e.WellFormed := by
  obtain ⟨m, op, next, hm, hop, hnext, hmatrices⟩ := exists_of_apply h
  have hwell : next.WellFormed := (hd.wellFormed m hm).applies hop hnext
  constructor
  · rw [hmatrices, List.forall_mem_append, List.forall_mem_singleton]
    exact ⟨hd.wellFormed, hwell⟩
  · obtain ⟨height, width, hshape⟩ := hd.shape
    obtain ⟨hheight, hwidth⟩ := hshape m hm
    refine ⟨height, width, ?_⟩
    rw [hmatrices, List.forall_mem_append, List.forall_mem_singleton]
    refine ⟨hshape, ?_, ?_⟩
    · rw [← hheight, hnext.sameShape.height_eq]
    · rw [← hwidth, hnext.sameShape.width_eq]

/-- Undoing leaves the matrices before the one shown. -/
theorem matrices_of_undo (h : d.undo = .ok (e, text)) : e.matrices = d.history := by
  obtain ⟨m, previous, _, hlast, rfl, _⟩ := undo_eq_ok.mp h
  exact List.dropLast_append_getLast? previous hlast

theorem WellFormed.undo (hd : d.WellFormed) (h : d.undo = .ok (e, text)) : e.WellFormed := by
  have hsub : ∀ m ∈ e.matrices, m ∈ d.matrices := by
    rw [matrices_of_undo h]
    intro m hm
    exact List.mem_append_left _ hm
  obtain ⟨height, width, hshape⟩ := hd.shape
  exact ⟨fun m hm => hd.wellFormed m (hsub m hm), height, width, fun m hm => hshape m (hsub m hm)⟩

theorem WellFormed.leads (hd : d.WellFormed) (h : Leads d e) : e.WellFormed := by
  cases h with
  | stay => exact hd
  | clear => exact wellFormed_empty
  | start hm => exact wellFormed_start (wellFormed_of_ofTokens hm)
  | apply ha => exact hd.apply ha
  | undo hu => exact hd.undo hu

theorem Reachable.wellFormed (h : Reachable d) : d.WellFormed := by
  obtain ⟨calls, rfl⟩ := h
  exact run_induction wellFormed_empty WellFormed.leads calls

/-- What was read never divides a row by zero. -/
theorem harmless_apply_of_parse (m : Matrix) {op : Operation} (h : Operation.parse text = .ok op)
    (fault : Fault) (hfault : m.apply op = .error fault) : fault.kind ≠ .divisionByZero := by
  cases (first_of_apply hfault).objects with
  | divisionByZero hz =>
    obtain ⟨row, divisor, hdivide, hzero⟩ := hz
    rw [(Operation.readable_of_parse h).divisor_ne_zero row divisor hdivide] at hzero
    cases hzero
  | _ => simp [Fault.kind]

/-- A division by zero is refused by reading already. -/
theorem parse_of_divisionByZero {shown : String}
    (h : d.apply text = .error (.divisionByZero shown)) :
    Operation.parse text = .error (.divisionByZero shown) := by
  rcases apply_eq_error.mp h with ⟨_, hfault⟩ | ⟨m, _, hparse | ⟨op, hop, happly⟩⟩
  · cases hfault
  · exact hparse
  · exact absurd rfl (harmless_apply_of_parse m hop _ happly)

/-- **The matrices of a document are well formed and of one shape.** So infinities and what is not
a number are never shown, and no operation that was read is refused for a division by zero. -/
theorem reachable_matrices_wellFormed (h : Reachable d) :
    (∀ m ∈ d.matrices, m.WellFormed) ∧
    (∀ m ∈ d.matrices, ∀ n ∈ d.matrices, m.height = n.height ∧ m.width = n.width) ∧
    (∀ m ∈ d.matrices, ∀ row ∈ m.rows, ∀ cell ∈ row,
      cell.text ≠ "#INF!" ∧ cell.text ≠ "#NAN!" ∧ '#' ∉ cell.text.toList) ∧
    (∀ m text op shown, d.matrix = some m → Operation.parse text = .ok op →
      m.apply op ≠ .error (.divisionByZero shown)) ∧
    ∀ text shown, d.apply text = .error (.divisionByZero shown) →
      Operation.parse text = .error (.divisionByZero shown) := by
  obtain ⟨hwell, height, width, hshape⟩ := h.wellFormed
  refine ⟨hwell, fun m hm n hn => ?_, fun m hm row hrow cell hcell => ?_,
    fun m text op shown _ hop hfault => ?_, fun text shown => parse_of_divisionByZero⟩
  · obtain ⟨hmh, hmw⟩ := hshape m hm
    obtain ⟨hnh, hnw⟩ := hshape n hn
    exact ⟨hmh.trans hnh.symm, hmw.trans hnw.symm⟩
  · have hhash := ((hwell m hm).proper row hrow cell hcell).hash_not_mem_text
    refine ⟨?_, ?_, hhash⟩
    · intro heq
      rw [heq] at hhash
      exact hhash (by decide)
    · intro heq
      rw [heq] at hhash
      exact hhash (by decide)
  · exact harmless_apply_of_parse m hop _ hfault rfl

/-- A run that leaves a fraction and a snapshot. -/
theorem reachable_matrices_wellFormed_fraction : ∃ d m, Reachable d ∧ m ∈ d.matrices ∧
    m.texts = [["7/3", "3"], ["1", "-0.5"]] ∧ d.matrices.length = 2 ∧ m.WellFormed := by
  let calls : List Call := [.setText "7 9\n1 -0.5", .apply "R1 = R1 / 0", .apply "R1 = R1 / 3"]
  have hr : Reachable (Document.empty.run calls) := ⟨calls, rfl⟩
  have hm : (Document.empty.run calls).snapshot ∈ (Document.empty.run calls).matrices := by
    decide +kernel
  exact ⟨_, _, hr, hm, by decide +kernel, by decide +kernel,
    (reachable_matrices_wellFormed hr).1 _ hm⟩

end Echelon.Document
