import Echelon.Proofs.Matrix.Shape

/-!
# What an operation does to a matrix

`Applies` says once what each operation needs and what it gives, and `apply_eq_ok` that this is all
that can happen. Every operation keeps the shape of a rectangular matrix.
-/

namespace Echelon.Matrix

open Result

/-- The numbers of two rows, joined after the second was multiplied by a factor. -/
def combined (joiner : Joiner) (factor : Binary64) (a b : List Binary64) : List Binary64 :=
  List.zipWith (fun x y => joiner.join x (factor * y)) a b

/-- An operation leads from one matrix to another. -/
inductive Applies (m : Matrix) : Operation → Matrix → Prop where
  | swap {i j : RowName} : m.Has i → m.Has j → Applies m (.swap i j) (m.exchange i j)
  | scale {i : RowName} {factor : Binary64} {xs : List Binary64} :
      m.Holds i xs → (∀ x ∈ xs.map (· * factor), x.isFinite = true) →
      Applies m (.scale i factor) (m.replace i ((xs.map (· * factor)).map .number))
  | divide {i : RowName} {divisor : Binary64} {xs : List Binary64} :
      divisor.isZero = false → m.Holds i xs → (∀ x ∈ xs.map (· / divisor), x.isFinite = true) →
      Applies m (.divide i divisor) (m.replace i (xs.map (Cell.quotient · divisor)))
  | combine {i j k : RowName} {joiner : Joiner} {factor : Binary64} {xs ys : List Binary64} :
      m.Has i → m.Holds j xs → m.Holds k ys →
      (∀ x ∈ combined joiner factor xs ys, x.isFinite = true) →
      Applies m (.combine i j joiner factor k)
        (m.replace i ((combined joiner factor xs ys).map .number))

theorem guardFinite_eq_ok {op : Operation} {xs : List Binary64} {u : Unit} :
    guardFinite op xs = .ok u ↔ ∀ x ∈ xs, x.isFinite = true := by
  unfold guardFinite
  split
  · rename_i h
    exact ⟨fun _ => List.all_eq_true.mp h, fun _ => rfl⟩
  · rename_i h
    constructor
    · intro he
      cases he
    · intro hall
      exact absurd (List.all_eq_true.mpr hall) h

variable {m n : Matrix} {op : Operation}

/-- **An operation succeeds exactly as `Applies` says.** -/
theorem apply_eq_ok : m.apply op = .ok n ↔ Applies m op n := by
  cases op with
  | swap i j =>
    simp only [apply, bind_eq_ok, pure_eq_ok, Except.ok.injEq, checkRows_eq_ok, exists_const]
    constructor
    · rintro ⟨hrows, rfl⟩
      exact .swap (hrows i (by simp [Operation.rows])) (hrows j (by simp [Operation.rows]))
    · rintro ⟨hi, hj⟩
      exact ⟨by simpa [Operation.rows] using ⟨hi, hj⟩, rfl⟩
  | scale i factor =>
    simp only [apply, bind_eq_ok, pure_eq_ok, Except.ok.injEq, checkRows_eq_ok, numbers_eq_ok,
      guardFinite_eq_ok, exists_const]
    constructor
    · rintro ⟨_, xs, hxs, hfinite, rfl⟩
      exact .scale hxs hfinite
    · intro h
      cases h with
      | scale hxs hfinite => exact ⟨by simpa [Operation.rows] using hxs.1, _, hxs, hfinite, rfl⟩
  | divide i divisor =>
    cases hz : divisor.isZero with
    | true =>
      simp only [apply, hz, if_true, error_bind, bind_eq_ok]
      constructor
      · rintro ⟨_, _, h⟩
        cases h
      · intro h
        cases h with
        | divide hne _ _ =>
          rw [hz] at hne
          cases hne
    | false =>
      simp only [apply, hz, Bool.false_eq_true, if_false, bind_eq_ok, pure_eq_ok,
        Except.ok.injEq, checkRows_eq_ok, numbers_eq_ok, guardFinite_eq_ok, exists_const]
      constructor
      · rintro ⟨_, xs, hxs, hfinite, rfl⟩
        exact .divide hz hxs hfinite
      · intro h
        cases h with
        | divide _ hxs hfinite =>
          exact ⟨by simpa [Operation.rows] using hxs.1, _, hxs, hfinite, rfl⟩
  | combine i j joiner factor k =>
    simp only [apply, bind_eq_ok, pure_eq_ok, Except.ok.injEq, checkRows_eq_ok, numbers_eq_ok,
      guardFinite_eq_ok, exists_const]
    constructor
    · rintro ⟨hrows, xs, hxs, ys, hys, hfinite, rfl⟩
      exact .combine (hrows i (by simp [Operation.rows])) hxs hys hfinite
    · intro h
      cases h with
      | combine hi hxs hys hfinite =>
        exact ⟨by simpa [Operation.rows] using ⟨hi, hxs.1, hys.1⟩, _, hxs, _, hys, hfinite, rfl⟩

/-- What holds of every cell is kept when it holds of the cells that an operation computes. -/
theorem Applies.forall_cells {P : Cell → Prop} (ha : Applies m op n)
    (hm : ∀ row ∈ m.rows, ∀ cell ∈ row, P cell)
    (hnumber : ∀ x : Binary64, x.isFinite = true → P (.number x))
    (hquotient : ∀ row (x d : Binary64), op = .divide row d → d.isZero = false →
      P (.number x) → (x / d).isFinite = true → P (.quotient x d)) :
    ∀ row ∈ n.rows, ∀ cell ∈ row, P cell := by
  have hnumbers : ∀ xs : List Binary64, (∀ x ∈ xs, x.isFinite = true) →
      ∀ cell ∈ xs.map Cell.number, P cell := by
    intro xs hxs cell hcell
    obtain ⟨x, hx, rfl⟩ := List.mem_map.mp hcell
    exact hnumber x (hxs x hx)
  intro row hrow
  cases ha with
  | @swap i j hi hj =>
    rw [exchange_eq] at hrow
    rcases mem_replace hrow with rfl | hrow
    · exact hm _ (cells_mem hi)
    · rcases mem_replace hrow with rfl | hrow
      · exact hm _ (cells_mem hj)
      · exact hm row hrow
  | scale _ hfinite =>
    rcases mem_replace hrow with rfl | hrow
    · exact hnumbers _ hfinite
    · exact hm row hrow
  | @divide i divisor xs hz hxs hfinite =>
    rcases mem_replace hrow with rfl | hrow
    · intro cell hcell
      obtain ⟨x, hx, rfl⟩ := List.mem_map.mp hcell
      have hold : P (.number x) := hm _ (cells_mem hxs.1) _ (by simp [hxs.2, hx])
      exact hquotient i x divisor rfl hz hold (hfinite _ (List.mem_map_of_mem hx))
    · exact hm row hrow
  | combine _ _ _ hfinite =>
    rcases mem_replace hrow with rfl | hrow
    · exact hnumbers _ hfinite
    · exact hm row hrow

/-! ## The shape is kept -/

theorem Applies.sameShape (h : Applies m op n) : SameShape m n := by
  cases h with
  | @swap i j _ _ => exact sameShape_exchange m i j
  | scale _ _ => exact sameShape_replace m _ _
  | divide _ _ _ => exact sameShape_replace m _ _
  | combine _ _ _ _ => exact sameShape_replace m _ _

theorem Holds.length_eq {row : RowName} {xs : List Binary64} (h : m.Holds row xs)
    (hm : m.Rectangular) : xs.length = m.width := by
  have hcells := hm.length_eq _ (cells_mem h.1)
  rw [h.2, List.length_map] at hcells
  exact hcells

theorem length_combined {joiner : Joiner} {factor : Binary64} {a b : List Binary64}
    (h : a.length = b.length) : (combined joiner factor a b).length = a.length := by
  rw [combined, List.length_zipWith, h, Nat.min_self]

theorem Applies.rectangular (h : Applies m op n) (hm : m.Rectangular) : n.Rectangular := by
  cases h with
  | swap hi hj =>
    have hfirst := hm.length_eq _ (cells_mem hi)
    have hsecond := hm.length_eq _ (cells_mem hj)
    exact (hm.replace hsecond).replace hfirst
  | scale hxs _ => exact hm.replace (by simp [hxs.length_eq hm])
  | divide _ hxs _ => exact hm.replace (by simp [hxs.length_eq hm])
  | combine _ hxs hys _ =>
    have hlength := hxs.length_eq hm
    refine hm.replace ?_
    rw [List.length_map, length_combined (hlength.trans (hys.length_eq hm).symm), hlength]

end Echelon.Matrix
