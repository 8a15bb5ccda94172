import Echelon.Proofs.Matrix.Applies

/-!
# Columns are independent

Two matrices with as many rows make one matrix when they are put side by side. No cell is computed
from the cells of another column, and each check asks something of every column, so an operation
does to both parts at once what it does to each of them alone. A matrix may thus carry the right
sides of its equations, or an identity, in further columns.
-/

namespace Echelon.Matrix

open Result

/-- Two matrices side by side. -/
def beside (a b : Matrix) : Matrix := ⟨List.zipWith (· ++ ·) a.rows b.rows, a.width + b.width⟩

/-- The first columns of a matrix. -/
def leftColumns (m : Matrix) (count : Nat) : Matrix := ⟨m.rows.map (·.take count), count⟩

variable {a b m n a' b' : Matrix} {op : Operation} {ops : List Operation} {row i j : RowName}

/-! ## The parts of a matrix -/

theorem cells_leftColumns (m : Matrix) (count : Nat) :
    (m.leftColumns count).cells row = (m.cells row).take count := by
  simp only [cells, leftColumns, List.getD_eq_getElem?_getD, List.getElem?_map]
  cases m.rows[row.number - 1]? <;> simp

theorem combined_append (joiner : Joiner) (factor : Binary64) {xs us : List Binary64}
    (h : xs.length = us.length) (ys vs : List Binary64) :
    combined joiner factor (xs ++ ys) (us ++ vs) =
      combined joiner factor xs us ++ combined joiner factor ys vs := List.zipWith_append h

section

variable (h : a.height = b.height)

include h

theorem height_beside : (a.beside b).height = a.height := by
  have hrows : a.rows.length = b.rows.length := h
  simp [beside, height, hrows]

theorem has_beside : (a.beside b).Has row ↔ a.Has row := by rw [Has, Has, height_beside h]

theorem has_right (hrow : a.Has row) : b.Has row := ⟨hrow.1, h ▸ hrow.2⟩

theorem cells_beside (hrow : a.Has row) :
    (a.beside b).cells row = a.cells row ++ b.cells row := by
  have hleft := hrow.lt_length
  have hright := (has_right h hrow).lt_length
  simp only [cells, beside, List.getD_eq_getElem?_getD, List.getElem?_zipWith,
    List.getElem?_eq_getElem hleft, List.getElem?_eq_getElem hright, Option.getD_some]

/-- The numbers of a row are those of its left part, then those of its right part. -/
theorem holds_beside {zs : List Binary64} :
    (a.beside b).Holds row zs ↔ ∃ xs ys, a.Holds row xs ∧ b.Holds row ys ∧ zs = xs ++ ys := by
  constructor
  · rintro ⟨hrow, hcells⟩
    rw [has_beside h] at hrow
    rw [cells_beside h hrow, eq_comm, List.map_eq_append_iff] at hcells
    obtain ⟨xs, ys, rfl, hxs, hys⟩ := hcells
    exact ⟨xs, ys, ⟨hrow, hxs.symm⟩, ⟨has_right h hrow, hys.symm⟩, rfl⟩
  · rintro ⟨xs, ys, hxs, hys, rfl⟩
    refine ⟨(has_beside h).mpr hxs.1, ?_⟩
    rw [cells_beside h hxs.1, hxs.2, hys.2, List.map_append]

theorem replace_beside (hrow : a.Has row) (left right : List Cell) :
    (a.beside b).replace row (left ++ right) =
      (a.replace row left).beside (b.replace row right) := by
  have hparts : (a.replace row left).height = (b.replace row right).height := by
    rw [← (sameShape_replace a row left).height_eq, ← (sameShape_replace b row right).height_eq, h]
  have hwhole : SameShape ((a.beside b).replace row (left ++ right))
      ((a.replace row left).beside (b.replace row right)) := by
    refine ⟨?_, rfl⟩
    rw [height_beside hparts, ← (sameShape_replace a row left).height_eq,
      ← (sameShape_replace _ row _).height_eq, height_beside h]
  refine hwhole.ext fun other hother => ?_
  have hother : a.Has other := (has_beside h).mp ((has_replace _).mp hother)
  have hright := has_right h hrow
  rw [cells_beside hparts ((has_replace _).mpr hother)]
  by_cases hne : other = row
  · subst hne
    rw [cells_replace ((has_beside h).mpr hrow), cells_replace hrow, cells_replace hright]
  · rw [cells_replace_of_ne ((has_beside h).mpr hrow) ((has_beside h).mpr hother) hne,
      cells_replace_of_ne hrow hother hne, cells_replace_of_ne hright (has_right h hother) hne,
      cells_beside h hother]

theorem exchange_beside (hi : a.Has i) (hj : a.Has j) :
    (a.beside b).exchange i j = (a.exchange i j).beside (b.exchange i j) := by
  have hparts : (a.replace i (a.cells j)).height = (b.replace i (b.cells j)).height := by
    rw [← (sameShape_replace a i _).height_eq, ← (sameShape_replace b i _).height_eq, h]
  rw [exchange_eq, cells_beside h hi, cells_beside h hj, replace_beside h hi,
    replace_beside hparts ((has_replace _).mpr hj), exchange_eq, exchange_eq]

theorem Rectangular.beside (ha : a.Rectangular) (hb : b.Rectangular) :
    (a.beside b).Rectangular := by
  refine ⟨?_, Nat.add_pos_left ha.width_pos _, ?_⟩
  · have hpos : 0 < (a.beside b).height := by
      rw [height_beside h]
      exact List.length_pos_of_ne_nil ha.rows_ne
    exact List.ne_nil_of_length_pos hpos
  · intro cells hcells
    obtain ⟨row, hrow, rfl⟩ := exists_cells_eq hcells
    rw [has_beside h] at hrow
    rw [cells_beside h hrow, List.length_append, ha.length_eq _ (cells_mem hrow),
      hb.length_eq _ (cells_mem (has_right h hrow))]
    rfl

theorem leftColumns_beside (ha : a.Rectangular) : (a.beside b).leftColumns a.width = a := by
  have hheight : ((a.beside b).leftColumns a.width).height = a.height := by
    rw [height, leftColumns, List.length_map]
    exact height_beside h
  refine SameShape.ext ⟨hheight, rfl⟩ fun row hrow => ?_
  have hrow : a.Has row := by rwa [Has, hheight] at hrow
  rw [cells_leftColumns, cells_beside h hrow, List.take_left' (ha.length_eq _ (cells_mem hrow))]

/-! ## Operations on both parts at once -/

/-- What an operation does to both parts, it does to the whole. -/
theorem Applies.beside (ha : a.Rectangular) (hleft : Applies a op a') (hright : Applies b op b') :
    Applies (a.beside b) op (a'.beside b') := by
  cases hleft with
  | swap hi hj =>
    cases hright with
    | swap _ _ =>
      rw [← exchange_beside h hi hj]
      exact .swap ((has_beside h).mpr hi) ((has_beside h).mpr hj)
  | @scale i factor xs hxs hfinite =>
    cases hright with
    | @scale _ _ ys hys hfinite' =>
      have hzs : (a.beside b).Holds i (xs ++ ys) := (holds_beside h).mpr ⟨xs, ys, hxs, hys, rfl⟩
      rw [← replace_beside h hxs.1, ← List.map_append, ← List.map_append]
      refine .scale hzs ?_
      rw [List.map_append]
      exact List.forall_mem_append.mpr ⟨hfinite, hfinite'⟩
  | @divide i divisor xs hz hxs hfinite =>
    cases hright with
    | @divide _ _ ys _ hys hfinite' =>
      have hzs : (a.beside b).Holds i (xs ++ ys) := (holds_beside h).mpr ⟨xs, ys, hxs, hys, rfl⟩
      rw [← replace_beside h hxs.1, ← List.map_append]
      exact .divide hz hzs
        (by rw [List.map_append]; exact List.forall_mem_append.mpr ⟨hfinite, hfinite'⟩)
  | @combine i j k joiner factor xs us hi hxs hus hfinite =>
    cases hright with
    | @combine _ _ _ _ _ ys vs _ hys hvs hfinite' =>
      have hzs := (holds_beside h).mpr ⟨xs, ys, hxs, hys, rfl⟩
      have hws := (holds_beside h).mpr ⟨us, vs, hus, hvs, rfl⟩
      have hlength : xs.length = us.length := (hxs.length_eq ha).trans (hus.length_eq ha).symm
      have hcombined := combined_append joiner factor hlength ys vs
      rw [← replace_beside h hi, ← List.map_append, ← hcombined]
      refine .combine ((has_beside h).mpr hi) hzs hws ?_
      rw [hcombined]
      exact List.forall_mem_append.mpr ⟨hfinite, hfinite'⟩

/-- An operation on the whole comes apart into what it does to each part. -/
theorem Applies.parts (ha : a.Rectangular) (happly : Applies (a.beside b) op n) :
    ∃ a' b', Applies a op a' ∧ Applies b op b' ∧ n = a'.beside b' := by
  cases happly with
  | swap hi hj =>
    rw [has_beside h] at hi hj
    exact ⟨_, _, .swap hi hj, .swap (has_right h hi) (has_right h hj), exchange_beside h hi hj⟩
  | scale hzs hfinite =>
    obtain ⟨xs, ys, hxs, hys, rfl⟩ := (holds_beside h).mp hzs
    rw [List.map_append, List.forall_mem_append] at hfinite
    refine ⟨_, _, .scale hxs hfinite.1, .scale hys hfinite.2, ?_⟩
    rw [List.map_append, List.map_append, replace_beside h hxs.1]
  | divide hz hzs hfinite =>
    obtain ⟨xs, ys, hxs, hys, rfl⟩ := (holds_beside h).mp hzs
    rw [List.map_append, List.forall_mem_append] at hfinite
    refine ⟨_, _, .divide hz hxs hfinite.1, .divide hz hys hfinite.2, ?_⟩
    rw [List.map_append, replace_beside h hxs.1]
  | @combine i j k joiner factor zs ws hi hzs hws hfinite =>
    rw [has_beside h] at hi
    obtain ⟨xs, ys, hxs, hys, rfl⟩ := (holds_beside h).mp hzs
    obtain ⟨us, vs, hus, hvs, rfl⟩ := (holds_beside h).mp hws
    have hlength : xs.length = us.length := (hxs.length_eq ha).trans (hus.length_eq ha).symm
    rw [combined_append joiner factor hlength, List.forall_mem_append] at hfinite
    refine ⟨_, _, .combine hi hxs hus hfinite.1, .combine (has_right h hi) hys hvs hfinite.2, ?_⟩
    rw [combined_append joiner factor hlength, List.map_append, replace_beside h hi]

theorem apply_beside (ha : a.Rectangular) :
    (a.beside b).apply op = .ok n ↔
      ∃ a' b', a.apply op = .ok a' ∧ b.apply op = .ok b' ∧ n = a'.beside b' := by
  simp only [apply_eq_ok]
  constructor
  · exact Applies.parts h ha
  · rintro ⟨a', b', hleft, hright, rfl⟩
    exact hleft.beside h ha hright

/-- A run on the whole is a run on each part. -/
theorem run_beside (ha : a.Rectangular) :
    ops.foldlM apply (a.beside b) = .ok n ↔
      ∃ a' b', ops.foldlM apply a = .ok a' ∧ ops.foldlM apply b = .ok b' ∧ n = a'.beside b' := by
  induction ops generalizing a b with
  | nil => simp [eq_comm]
  | cons op ops ih =>
    have hnext {c d : Matrix} (hc : a.apply op = .ok c) (hd : b.apply op = .ok d) :
        c.height = d.height ∧ c.Rectangular := by
      rw [apply_eq_ok] at hc hd
      exact ⟨by rw [← hc.sameShape.height_eq, ← hd.sameShape.height_eq, h], hc.rectangular ha⟩
    simp only [List.foldlM_cons, bind_eq_ok]
    constructor
    · rintro ⟨_, hstep, hrun⟩
      obtain ⟨c, d, hc, hd, rfl⟩ := (apply_beside h ha).mp hstep
      obtain ⟨hheight, hrect⟩ := hnext hc hd
      obtain ⟨a', b', hleft, hright, rfl⟩ := (ih hheight hrect).mp hrun
      exact ⟨a', b', ⟨c, hc, hleft⟩, ⟨d, hd, hright⟩, rfl⟩
    · rintro ⟨a', b', ⟨c, hc, hleft⟩, ⟨d, hd, hright⟩, rfl⟩
      obtain ⟨hheight, hrect⟩ := hnext hc hd
      exact ⟨c.beside d, (apply_beside h ha).mpr ⟨c, d, hc, hd, rfl⟩,
        (ih hheight hrect).mpr ⟨a', b', hleft, hright, rfl⟩⟩

end

theorem run_keeps_shape (ha : a.Rectangular) (hrun : ops.foldlM apply a = .ok n) :
    SameShape a n ∧ n.Rectangular := by
  refine foldlM_induction (P := fun m => SameShape a m ∧ m.Rectangular) ⟨⟨rfl, rfl⟩, ha⟩ ?_ hrun
  rintro m op k ⟨hshape, hrect⟩ hstep
  rw [apply_eq_ok] at hstep
  exact ⟨hshape.trans hstep.sameShape, hstep.rectangular hrect⟩

/-- **Columns are independent.** Two matrices with as many rows stand side by side in a matrix. An
operation succeeds on it exactly when it succeeds on both parts, and gives their results side by
side. So along a run of operations the left part is always what the run makes of it alone. -/
theorem columns_independent {left right : List (List Cell)} (ha : ofRows left = .ok a)
    (hb : ofRows right = .ok b) (h : a.height = b.height) :
    ofRows (List.zipWith (· ++ ·) left right) = .ok (a.beside b) ∧
    (∀ op n, (a.beside b).apply op = .ok n ↔
      ∃ a' b', a.apply op = .ok a' ∧ b.apply op = .ok b' ∧ n = a'.beside b') ∧
    ∀ (ops : List Operation) n, ops.foldlM apply (a.beside b) = .ok n →
      ops.foldlM apply a = .ok (n.leftColumns a.width) ∧
      ∃ b', ops.foldlM apply b = .ok b' ∧ n = (n.leftColumns a.width).beside b' := by
  obtain ⟨rfl, hrectA⟩ := ofRows_eq_ok.mp ha
  obtain ⟨rfl, hrectB⟩ := ofRows_eq_ok.mp hb
  refine ⟨ofRows_eq_ok.mpr ⟨rfl, hrectA.beside h hrectB⟩, fun _ _ => apply_beside h hrectA,
    fun ops n hrun => ?_⟩
  obtain ⟨a', b', hleft, hright, rfl⟩ := (run_beside h hrectA).mp hrun
  have hkept : SameShape a a' ∧ a'.Rectangular := run_keeps_shape hrectA hleft
  have hkept' : SameShape b b' := (run_keeps_shape hrectB hright).1
  have hheight : a'.height = b'.height := by
    rw [← hkept.1.height_eq, ← hkept'.height_eq, h]
  have hparts : (a'.beside b').leftColumns a.width = a' := by
    rw [hkept.1.width_eq, leftColumns_beside hheight hkept.2]
  rw [hparts]
  exact ⟨hleft, b', hright, rfl⟩

/-- An identity in further columns becomes the inverse. A fraction there stops an operation that the
left part would allow. -/
theorem columns_independent_inverse : ∃ (left right : List (List Cell)) (a b n : Matrix)
    (ops : List Operation) (op : Operation), ofRows left = .ok a ∧ ofRows right = .ok b ∧
    a.height = b.height ∧ a.texts = [["1", "2"], ["3", "4"]] ∧ b.texts = [["1", "0"], ["0", "1"]] ∧
    ops.map Operation.text = ["R2 = R2 - 3R1", "R1 = R1 + R2", "R2 = R2 / -2"] ∧
    ops.foldlM apply (a.beside b) = .ok n ∧
    n.texts = [["1", "0", "-2", "1"], ["0", "1", "-3/-2", "1/-2"]] ∧
    ops.foldlM apply a = .ok (n.leftColumns 2) ∧ op.text = "R2 = R2 * 2" ∧
    ((n.leftColumns 2).apply op).isOk = true ∧ (n.apply op).isOk = false := by
  let numbers (x y : Nat) : List Cell := [.number (.ofNat x), .number (.ofNat y)]
  let a : Matrix := ⟨[numbers 1 2, numbers 3 4], 2⟩
  let b : Matrix := ⟨[numbers 1 0, numbers 0 1], 2⟩
  let ops : List Operation := [.combine ⟨2⟩ ⟨2⟩ .minus (.ofNat 3) ⟨1⟩,
    .combine ⟨1⟩ ⟨1⟩ .plus .one ⟨2⟩, .divide ⟨2⟩ (.rounded true (2 * quantaPerUnit) 1)]
  let op : Operation := .scale ⟨2⟩ (.ofNat 2)
  have ha : ofRows a.rows = .ok a := rfl
  have hb : ofRows b.rows = .ok b := rfl
  have hheight : a.height = b.height := by decide
  have hrun : (ops.foldlM apply (a.beside b)).map texts =
      .ok [["1", "0", "-2", "1"], ["0", "1", "-3/-2", "1/-2"]] := by decide +kernel
  have hgoes : ((ops ++ [op]).foldlM apply a).isOk = true := by decide +kernel
  have hstops : ((ops ++ [op]).foldlM apply (a.beside b)).isOk = false := by decide +kernel
  obtain ⟨n, hn, htexts⟩ := map_eq_ok.mp hrun
  obtain ⟨hleft, _⟩ := (columns_independent ha hb hheight).2.2 ops n hn
  rw [List.foldlM_append, hleft, ok_bind, List.foldlM_cons] at hgoes
  rw [List.foldlM_append, hn, ok_bind, List.foldlM_cons] at hstops
  simp only [List.foldlM_nil, bind_pure] at hgoes hstops
  exact ⟨a.rows, b.rows, a, b, n, ops, op, ha, hb, hheight, by decide +kernel, by decide +kernel,
    by decide +kernel, hn, htexts, hleft, by decide +kernel, hgoes, hstops⟩

end Echelon.Matrix
