import Echelon.Proofs.Matrix.Effect

/-!
# Operations look only at the rows they read

Whether an operation succeeds and what it writes is settled by the cells of the rows that it reads;
how those rows are called, and what stands in the others, does not matter. So operations that stay
out of each other's rows can be applied in either order.
-/

namespace Echelon

namespace Operation

/-- The rows whose cells an operation depends on: those with its operands, or both rows of a
swap. -/
def sources : Operation → List RowName
  | swap first second => [first, second]
  | scale row _ => [row]
  | divide row _ => [row]
  | combine _ left _ _ right => [left, right]

/-- The operation on rows of other names. -/
def rename (name : RowName → RowName) : Operation → Operation
  | swap first second => swap (name first) (name second)
  | scale row factor => scale (name row) factor
  | divide row divisor => divide (name row) divisor
  | combine target left joiner factor right =>
    combine (name target) (name left) joiner factor (name right)

/-- No row that is written by one operation is read or written by the other. -/
def Independent (a b : Operation) : Prop :=
  (∀ row ∈ a.written, row ∉ b.sources ∧ row ∉ b.written) ∧
    ∀ row ∈ b.written, row ∉ a.sources ∧ row ∉ a.written

instance (a b : Operation) : Decidable (a.Independent b) := inferInstanceAs (Decidable (_ ∧ _))

variable {a b op : Operation} {name : RowName → RowName} {row : RowName}

theorem Independent.symm (h : a.Independent b) : b.Independent a := ⟨h.2, h.1⟩

theorem rename_id (op : Operation) : op.rename id = op := by cases op <;> rfl

theorem rows_rename : (op.rename name).rows = op.rows.map name := by cases op <;> rfl

theorem written_rename : (op.rename name).written = op.written.map name := by cases op <;> rfl

theorem mem_rows_of_mem_sources (h : row ∈ op.sources) : row ∈ op.rows := by
  cases op with
  | combine target left joiner factor right => exact List.mem_cons_of_mem target h
  | _ => exact h

end Operation

namespace Matrix

open Result

variable {k l m n : Matrix} {a b op : Operation} {row : RowName}

/-- **An operation depends on the cells of its rows only.** Where other rows of another matrix hold
what it reads, it does the same to them. -/
theorem Applies.transport (name : RowName → RowName) (h : Applies m op n)
    (hrows : ∀ row ∈ op.rows, k.Has (name row))
    (hcells : ∀ row ∈ op.sources, k.cells (name row) = m.cells row) :
    ∃ l, Applies k (op.rename name) l ∧ ∀ row ∈ op.written, l.cells (name row) = n.cells row := by
  have hholds {row : RowName} {xs : List Binary64} (hrow : row ∈ op.sources)
      (hxs : m.Holds row xs) : k.Holds (name row) xs :=
    ⟨hrows row (Operation.mem_rows_of_mem_sources hrow), (hcells row hrow).trans hxs.2⟩
  have hwritten {i : RowName} (hi : m.Has i) (hki : k.Has (name i)) (cells : List Cell) :
      ∀ row ∈ [i], (k.replace (name i) cells).cells (name row) = (m.replace i cells).cells row := by
    simp only [List.mem_singleton, forall_eq]
    rw [cells_replace hki, cells_replace hi]
  cases h with
  | @swap i j hi hj =>
    have hki := hrows i (by simp [Operation.rows])
    have hkj := hrows j (by simp [Operation.rows])
    have hcellsi := hcells i (by simp [Operation.sources])
    have hcellsj := hcells j (by simp [Operation.sources])
    refine ⟨_, .swap hki hkj, ?_⟩
    simp only [Operation.written, List.mem_cons, List.not_mem_nil, or_false, forall_eq_or_imp,
      forall_eq]
    rw [cells_exchange_left hki hkj, cells_exchange_left hi hj, cells_exchange_right hkj,
      cells_exchange_right hj]
    exact ⟨hcellsj, hcellsi⟩
  | @scale i factor xs hxs hfinite =>
    have hk := hholds (by simp [Operation.sources]) hxs
    exact ⟨_, .scale hk hfinite, hwritten hxs.1 hk.1 _⟩
  | @divide i divisor xs hz hxs hfinite =>
    have hk := hholds (by simp [Operation.sources]) hxs
    exact ⟨_, .divide hz hk hfinite, hwritten hxs.1 hk.1 _⟩
  | @combine i left joiner factor right xs ys hi hxs hys hfinite =>
    have hki := hrows i (by simp [Operation.rows])
    have hleft := hholds (by simp [Operation.sources]) hxs
    have hright := hholds (by simp [Operation.sources]) hys
    exact ⟨_, .combine hki hleft hright hfinite, hwritten hi hki _⟩

/-! ## Independent operations -/

/-- An operation does the same to a matrix of the same shape that agrees where it reads. -/
theorem Applies.frame (h : Applies m op n) (hs : SameShape m k)
    (hcells : ∀ row ∈ op.sources, k.cells row = m.cells row) :
    ∃ l, Applies k op l ∧ ∀ row ∈ op.written, l.cells row = n.cells row := by
  have htransport := h.transport id (fun row hrow => hs.has_iff.mp (h.has row hrow)) hcells
  rwa [Operation.rename_id] at htransport

theorem Applies.cells_of_mem_sources (h : Applies m a n) (hab : a.Independent b)
    (hrow : row ∈ b.sources) (hm : m.Has row) : n.cells row = m.cells row :=
  h.cells_of_not_written hm fun hwritten => (hab.1 row hwritten).1 hrow

/-- Each row is written by one of the operations at most, and is then computed from the same rows in
either order. -/
theorem Applies.commute (hab : a.Independent b) (ha : Applies m a n) (hb : Applies n b k) :
    ∃ l, Applies m b l ∧ Applies l a k := by
  have hrows : ∀ row ∈ b.sources, m.Has row := fun row hrow =>
    ha.sameShape.has_iff.mpr (hb.has row (Operation.mem_rows_of_mem_sources hrow))
  obtain ⟨l, hl, hlb⟩ := hb.frame ha.sameShape.symm fun row hrow =>
    (ha.cells_of_mem_sources hab hrow (hrows row hrow)).symm
  obtain ⟨k', hk', hka⟩ := ha.frame hl.sameShape fun row hrow =>
    hl.cells_of_mem_sources hab.symm hrow (ha.has row (Operation.mem_rows_of_mem_sources hrow))
  have hshape : SameShape m k' := hl.sameShape.trans hk'.sameShape
  suffices heq : k' = k from ⟨l, hl, heq ▸ hk'⟩
  refine (hshape.symm.trans (ha.sameShape.trans hb.sameShape)).ext fun row hrow => ?_
  have hm : m.Has row := hshape.has_iff.mpr hrow
  by_cases hra : row ∈ a.written
  · rw [hka row hra, hb.cells_of_not_written (ha.sameShape.has_iff.mp hm) (hab.1 row hra).2]
  · rw [hk'.cells_of_not_written (hl.sameShape.has_iff.mp hm) hra]
    by_cases hrb : row ∈ b.written
    · exact hlb row hrb
    · rw [hl.cells_of_not_written hm hrb, hb.cells_of_not_written (ha.sameShape.has_iff.mp hm) hrb,
        ha.cells_of_not_written hm hra]

/-- **Independent operations commute.** If no row written by one of two operations is read or
written by the other, then applying them in one order succeeds exactly when applying them in the
other order does, and both orders give the same matrix. -/
theorem independent_commute (h : a.Independent b) (m k : Matrix) :
    (do let n ← m.apply a; n.apply b) = .ok k ↔ (do let l ← m.apply b; l.apply a) = .ok k := by
  simp only [bind_eq_ok, apply_eq_ok]
  constructor
  · rintro ⟨n, ha, hb⟩
    exact ha.commute h hb
  · rintro ⟨l, hb, ha⟩
    exact hb.commute h.symm ha

/-- One operation moves a fraction, the other one leaves a fraction behind. -/
theorem independent_commute_fractions : ∃ (m k : Matrix) (a b : Operation), a.Independent b ∧
    m.texts = [["7/3", "1"], ["5", "6"], ["3", "4"]] ∧
    a.text = "R1 <> R3" ∧ b.text = "R2 = R2 / 2" ∧
    k.texts = [["3", "4"], ["5/2", "3"], ["7/3", "1"]] ∧
    (do let n ← m.apply a; n.apply b) = .ok k ∧ (do let l ← m.apply b; l.apply a) = .ok k := by
  let m : Matrix := ⟨[[.fraction (.ofNat 7) (.ofNat 3), .number .one],
    [.number (.ofNat 5), .number (.ofNat 6)], [.number (.ofNat 3), .number (.ofNat 4)]], 2⟩
  let a : Operation := .swap ⟨1⟩ ⟨3⟩
  let b : Operation := .divide ⟨2⟩ (.ofNat 2)
  have hab : a.Independent b := by decide
  have htexts : (m.apply a >>= fun n => n.apply b).map texts =
      .ok [["3", "4"], ["5/2", "3"], ["7/3", "1"]] := by decide +kernel
  obtain ⟨k, hk, htexts⟩ := map_eq_ok.mp htexts
  exact ⟨m, k, a, b, hab, by decide +kernel, by decide +kernel, by decide +kernel, htexts, hk,
    (independent_commute hab m k).mp hk⟩

end Matrix

end Echelon
