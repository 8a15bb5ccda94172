import Echelon.Proofs.Matrix.Applies
import Echelon.Proofs.Number.Rational
import Mathlib.Algebra.BigOperators.Group.List.Basic

/-!
# Row operations keep the solutions

A matrix with a value in every cell stands for a homogeneous system of equations, one for each row.
A row may be replaced when its product with a vector vanishes together with the product of the old
row, given that those of all other rows do. This settles scaling, dividing and combining; exchanging
loses no row. Products and sums may round, so they are asked to be exact; quotients need no such
assumption, as one that does not come out even is kept as a fraction.
-/

namespace Echelon

open Binary64

/-- The cell has a value: its numbers are finite, and it does not divide by zero. -/
inductive Cell.Valued : Cell → Prop where
  | number {x : Binary64} : x.isFinite = true → Valued (.number x)
  | fraction {n d : Binary64} : n.isFinite = true → d.isFinite = true → d.isZero = false →
      Valued (.fraction n d)

instance : DecidablePred Cell.Valued
  | .number x => decidable_of_iff (x.isFinite = true) ⟨.number, fun h => by cases h; assumption⟩
  | .fraction n d =>
    decidable_of_iff (n.isFinite = true ∧ d.isFinite = true ∧ d.isZero = false)
      ⟨fun h => .fraction h.1 h.2.1 h.2.2, fun h => by cases h; exact ⟨‹_›, ‹_›, ‹_›⟩⟩

/-- How the values of two numbers are joined. -/
def Joiner.joinRat : Joiner → ℚ → ℚ → ℚ
  | plus, a, b => a + b
  | minus, a, b => a - b

/-- An operation that can be taken back: its factor or divisor is a number other than zero, and a
combination adds a multiple of another row to its target. That a divisor is not zero is left to the
operation itself, which refuses it. -/
inductive Operation.Elementary : Operation → Prop where
  | swap (first second : RowName) : Elementary (.swap first second)
  | scale (row : RowName) {factor : Binary64} : factor.isZero = false →
      Elementary (.scale row factor)
  | divide (row : RowName) {divisor : Binary64} : divisor.isFinite = true →
      Elementary (.divide row divisor)
  | combine {target right : RowName} (joiner : Joiner) (factor : Binary64) : target ≠ right →
      Elementary (.combine target target joiner factor right)

theorem Cell.valued_quotient {a d : Binary64} (ha : a.isFinite = true) (hd : d.isFinite = true)
    (hz : d.isZero = false) (hq : (a / d).isFinite = true) : (quotient a d).Valued := by
  unfold quotient
  split
  · exact .number hq
  · exact .fraction ha hd hz

namespace Matrix

/-! ## Equations -/

/-- The product of a row and a vector. -/
def dot (row : List Cell) (x : List ℚ) : ℚ :=
  (List.zipWith (fun cell v => cell.toRat * v) row x).sum

/-- The product of every row and the vector is zero. -/
def Solves (m : Matrix) (x : List ℚ) : Prop := ∀ row ∈ m.rows, dot row x = 0

instance (m : Matrix) (x : List ℚ) : Decidable (m.Solves x) :=
  inferInstanceAs (Decidable (∀ row ∈ m.rows, dot row x = 0))

/-- A rectangular matrix with a value in every cell. -/
structure Valued (m : Matrix) : Prop extends m.Rectangular where
  valued : ∀ row ∈ m.rows, ∀ cell ∈ row, cell.Valued

/-- No cell that the operation computes by multiplying or adding is rounded. -/
def Exact (m : Matrix) : Operation → Prop
  | .swap _ _ => True
  | .scale row factor => ∀ xs, m.numbers row = .ok xs →
      ∀ a ∈ xs, (a * factor).toRat = a.toRat * factor.toRat
  | .divide _ _ => True
  | .combine _ left joiner factor right =>
      ∀ xs, m.numbers left = .ok xs → ∀ ys, m.numbers right = .ok ys →
        ∀ p ∈ xs.zip ys, (joiner.join p.1 (factor * p.2)).toRat =
          joiner.joinRat p.1.toRat (factor.toRat * p.2.toRat)

instance (m : Matrix) : DecidablePred m.Exact
  | .swap _ _ => .isTrue trivial
  | .scale row factor => inferInstanceAs (Decidable (∀ xs, m.numbers row = .ok xs →
      ∀ a ∈ xs, (a * factor).toRat = a.toRat * factor.toRat))
  | .divide _ _ => .isTrue trivial
  | .combine _ left joiner factor right =>
    inferInstanceAs (Decidable (∀ xs, m.numbers left = .ok xs → ∀ ys, m.numbers right = .ok ys →
      ∀ p ∈ xs.zip ys, (joiner.join p.1 (factor * p.2)).toRat =
        joiner.joinRat p.1.toRat (factor.toRat * p.2.toRat)))

/-- Operations that are accepted one after the other, each of them elementary and exact. -/
inductive Reduces : Matrix → List Operation → Matrix → Prop where
  | nil {m : Matrix} : Reduces m [] m
  | cons {m next n : Matrix} {op : Operation} {ops : List Operation} : m.apply op = .ok next →
      op.Elementary → m.Exact op → Reduces next ops n → Reduces m (op :: ops) n

/-! ## Products of rows -/

section

variable {α : Type}

/-- A row whose values are multiplied by a factor. -/
theorem dot_map (f g : α → Cell) (c : ℚ) {row : List α} (x : List ℚ)
    (h : ∀ a ∈ row, (f a).toRat = c * (g a).toRat) :
    dot (row.map f) x = c * dot (row.map g) x := by
  induction row generalizing x with
  | nil => simp [dot]
  | cons a row ih =>
    obtain ⟨ha, hrow⟩ := List.forall_mem_cons.mp h
    cases x with
    | nil => simp [dot]
    | cons v x =>
      have hrest := ih x hrow
      simp only [dot, List.map_cons, List.zipWith_cons_cons, List.sum_cons] at hrest ⊢
      rw [hrest, ha]
      ring

/-- A row whose values are those of one row joined with multiples of those of another. -/
theorem dot_combined (joiner : Joiner) (factor : Binary64) {xs ys : List Binary64} (x : List ℚ)
    (hlength : xs.length = ys.length)
    (h : ∀ p ∈ xs.zip ys, (joiner.join p.1 (factor * p.2)).toRat =
      joiner.joinRat p.1.toRat (factor.toRat * p.2.toRat)) :
    dot ((combined joiner factor xs ys).map .number) x =
      joiner.joinRat (dot (xs.map .number) x) (factor.toRat * dot (ys.map .number) x) := by
  induction xs generalizing ys x with
  | nil =>
    rw [List.length_nil] at hlength
    rw [List.length_eq_zero_iff.mp hlength.symm]
    cases joiner <;> simp [dot, combined, Joiner.joinRat]
  | cons a xs ih =>
    cases ys with
    | nil => cases hlength
    | cons b ys =>
      rw [List.zip_cons_cons] at h
      obtain ⟨hab, hrest⟩ := List.forall_mem_cons.mp h
      cases x with
      | nil => cases joiner <;> simp [dot, Joiner.joinRat]
      | cons v x =>
        have hsum := ih x (Nat.succ.inj hlength) hrest
        simp only [dot, combined, List.map_cons, List.zipWith_cons_cons, List.sum_cons,
          Cell.toRat] at hsum ⊢
        rw [hsum, hab]
        cases joiner <;> simp only [Joiner.joinRat] <;> ring

end

/-! ## Equations under rows in the place of others -/

variable {m n : Matrix} {i j : RowName} {x : List ℚ}

theorem solves_iff : m.Solves x ↔ ∀ k, m.Has k → dot (m.cells k) x = 0 := by
  constructor
  · intro h k hk
    exact h _ (cells_mem hk)
  · intro h row hrow
    obtain ⟨k, hk, rfl⟩ := exists_cells_eq hrow
    exact h k hk

/-- A row may be replaced when, given the other equations, its own one stays the same. -/
theorem solves_replace (hi : m.Has i) (cells : List Cell)
    (h : (∀ k, m.Has k → k ≠ i → dot (m.cells k) x = 0) →
      (dot cells x = 0 ↔ dot (m.cells i) x = 0)) :
    (m.replace i cells).Solves x ↔ m.Solves x := by
  simp only [solves_iff, has_replace]
  constructor
  · intro hs
    have hothers : ∀ k, m.Has k → k ≠ i → dot (m.cells k) x = 0 := by
      intro k hk hne
      rw [← cells_replace_of_ne hi hk hne cells]
      exact hs k hk
    intro k hk
    by_cases hki : k = i
    · subst hki
      have hrow := hs k hk
      rw [cells_replace hk] at hrow
      exact (h hothers).mp hrow
    · exact hothers k hk hki
  · intro hs k hk
    by_cases hki : k = i
    · subst hki
      rw [cells_replace hk]
      exact (h fun j hj _ => hs j hj).mpr (hs k hk)
    · rw [cells_replace_of_ne hi hk hki]
      exact hs k hk

theorem solves_exchange (hi : m.Has i) (hj : m.Has j) :
    (m.exchange i j).Solves x ↔ m.Solves x := by
  simp only [solves_iff, has_exchange]
  constructor
  · intro hs k hk
    rw [← cells_exchange_swap hi hj hk]
    exact hs _ ((has_swap hi hj).mpr hk)
  · intro hs k hk
    rw [cells_exchange hi hj hk]
    exact hs _ ((has_swap hi hj).mpr hk)

/-! ## What an operation does to the equations -/

theorem Valued.isFinite_of_holds (h : m.Valued) {xs : List Binary64} (hxs : m.Holds i xs) :
    ∀ a ∈ xs, a.isFinite = true := by
  intro a ha
  have hvalued := h.valued _ (cells_mem hxs.1) (.number a) (by simp [hxs.2, ha])
  cases hvalued with
  | number hfinite => exact hfinite

/-- A factor that gives a finite product is finite. -/
theorem isFinite_of_mul {a b : Binary64} (h : (a * b).isFinite = true) : b.isFinite = true := by
  cases b with
  | finite t n => rfl
  | infinite t =>
    cases a with
    | finite s k =>
      change (if k.quanta = 0 then nan else infinite (s != t)).isFinite = true at h
      split at h
      · cases h
      · cases h
    | infinite s => cases h
    | nan => cases h
  | nan => cases a <;> cases h

theorem Holds.ne_nil (h : m.Rectangular) {xs : List Binary64} (hxs : m.Holds i xs) : xs ≠ [] := by
  have hlength := hxs.length_eq h
  have hpos := h.width_pos
  rintro rfl
  rw [List.length_nil] at hlength
  omega

theorem solves_scale (hm : m.Valued) {factor : Binary64} {xs : List Binary64} (hxs : m.Holds i xs)
    (hz : factor.isZero = false) (hfinite : ∀ a ∈ xs.map (· * factor), a.isFinite = true)
    (hexact : ∀ a ∈ xs, (a * factor).toRat = a.toRat * factor.toRat) :
    (m.replace i ((xs.map (· * factor)).map .number)).Solves x ↔ m.Solves x := by
  obtain ⟨a, rest, hcons⟩ := List.exists_cons_of_ne_nil (hxs.ne_nil hm.toRectangular)
  have hproduct := hfinite (a * factor) (List.mem_map_of_mem (by simp [hcons]))
  have hne : factor.toRat ≠ 0 := toRat_ne_zero (isFinite_of_mul hproduct) hz
  refine solves_replace hxs.1 _ fun _ => ?_
  have hdot := dot_map (fun a => .number (a * factor)) .number factor.toRat x
    fun a ha => (hexact a ha).trans (mul_comm _ _)
  rw [List.map_map, hxs.2]
  exact hdot ▸ mul_eq_zero_iff_left hne

theorem solves_divide (hm : m.Valued) {divisor : Binary64} {xs : List Binary64}
    (hxs : m.Holds i xs) (hd : divisor.isFinite = true) (hz : divisor.isZero = false)
    (hfinite : ∀ a ∈ xs.map (· / divisor), a.isFinite = true) :
    (m.replace i (xs.map (Cell.quotient · divisor))).Solves x ↔ m.Solves x := by
  have hne : divisor.toRat⁻¹ ≠ 0 := inv_ne_zero (toRat_ne_zero hd hz)
  refine solves_replace hxs.1 _ fun _ => ?_
  have hdot := dot_map (Cell.quotient · divisor) .number divisor.toRat⁻¹ x fun a ha => by
    have hquotient := hfinite (a / divisor) (List.mem_map_of_mem ha)
    rw [Cell.toRat_quotient (hm.isFinite_of_holds hxs a ha) hd hz hquotient, div_eq_inv_mul]
    rfl
  rw [hxs.2]
  exact hdot ▸ mul_eq_zero_iff_left hne

theorem solves_combine (hm : m.Valued) {joiner : Joiner} {factor : Binary64}
    {xs ys : List Binary64} (hxs : m.Holds i xs) (hys : m.Holds j ys) (hne : i ≠ j)
    (hexact : ∀ p ∈ xs.zip ys, (joiner.join p.1 (factor * p.2)).toRat =
      joiner.joinRat p.1.toRat (factor.toRat * p.2.toRat)) :
    (m.replace i ((combined joiner factor xs ys).map .number)).Solves x ↔ m.Solves x := by
  have hlength : xs.length = ys.length :=
    (hxs.length_eq hm.toRectangular).trans (hys.length_eq hm.toRectangular).symm
  refine solves_replace hxs.1 _ fun hothers => ?_
  have hother : dot (ys.map .number) x = 0 := hys.2 ▸ hothers j hys.1 (Ne.symm hne)
  rw [dot_combined joiner factor x hlength hexact, hother, hxs.2]
  cases joiner <;> simp [Joiner.joinRat]

theorem Valued.solves_apply (hm : m.Valued) {op : Operation} (h : m.apply op = .ok n)
    (he : op.Elementary) (hexact : m.Exact op) : n.Solves x ↔ m.Solves x := by
  cases apply_eq_ok.mp h with
  | swap hi hj => exact solves_exchange hi hj
  | scale hxs hfinite =>
    cases he with
    | scale _ hz => exact solves_scale hm hxs hz hfinite (hexact _ (numbers_eq_ok.mpr hxs))
  | divide hz hxs hfinite =>
    cases he with
    | divide _ hd => exact solves_divide hm hxs hd hz hfinite
  | combine _ hxs hys _ =>
    cases he with
    | combine _ _ hne =>
      exact solves_combine hm hxs hys hne
        (hexact _ (numbers_eq_ok.mpr hxs) _ (numbers_eq_ok.mpr hys))

/-! ## Runs -/

theorem Valued.apply (hm : m.Valued) {op : Operation} (h : m.apply op = .ok n)
    (he : op.Elementary) : n.Valued := by
  have ha := apply_eq_ok.mp h
  refine ⟨ha.rectangular hm.toRectangular, ha.forall_cells hm.valued (fun _ => .number) ?_⟩
  intro row a d hdivide hz hcell hquotient
  subst hdivide
  cases he with
  | divide _ hd =>
    cases hcell with
    | number hfinite => exact Cell.valued_quotient hfinite hd hz hquotient

/-- **Row reduction keeps the solutions.** However many operations are applied to a matrix, each of
them elementary and none of its products and sums rounded, the same vectors solve the equations
before and after. Divisions round nothing, whatever they leave in the cells. -/
theorem reduction_keeps_solutions {ops : List Operation} (hm : m.Valued) (h : Reduces m ops n) :
    SameShape m n ∧ ∀ x, m.Solves x ↔ n.Solves x := by
  induction h with
  | nil => exact ⟨⟨rfl, rfl⟩, fun _ => Iff.rfl⟩
  | cons happly he hexact _ ih =>
    obtain ⟨hshape, hrest⟩ := ih (hm.apply happly he)
    have hstep := (apply_eq_ok.mp happly).sameShape
    exact ⟨hstep.trans hshape, fun x => (hm.solves_apply happly he hexact).symm.trans (hrest x)⟩

/-- Three equations, reduced by operations of all kinds, the last of which leaves fractions. -/
theorem reduction_keeps_solutions_fraction : ∃ m ops n, Valued m ∧ Reduces m ops n ∧
    m.texts = [["2", "4", "7"], ["1", "2", "3"], ["3", "6", "10"]] ∧ ops.length = 4 ∧
    n.texts = [["1", "2", "3"], ["0", "0", "3"], ["3/7", "6/7", "10/7"]] ∧
    m.Solves [-2, 1, 0] ∧ n.Solves [-2, 1, 0] ∧ ¬ n.Solves [0, 0, 1] := by
  let row (a b c : Nat) : List Cell := [.number (ofNat a), .number (ofNat b), .number (ofNat c)]
  let m : Matrix := ⟨[row 2 4 7, row 1 2 3, row 3 6 10], 3⟩
  let swapped : Matrix := ⟨[row 1 2 3, row 2 4 7, row 3 6 10], 3⟩
  let combined : Matrix := ⟨[row 1 2 3, row 0 0 1, row 3 6 10], 3⟩
  let scaled : Matrix := ⟨[row 1 2 3, row 0 0 3, row 3 6 10], 3⟩
  let third (k : Nat) : Cell := .fraction (ofNat k) (ofNat 7)
  let n : Matrix := ⟨[row 1 2 3, row 0 0 3, [third 3, third 6, third 10]], 3⟩
  have hm : m.Valued := ⟨⟨by decide, by decide, by decide +kernel⟩, by decide +kernel⟩
  have h : Reduces m [.swap ⟨1⟩ ⟨2⟩, .combine ⟨2⟩ ⟨2⟩ .minus (ofNat 2) ⟨1⟩, .scale ⟨2⟩ (ofNat 3),
      .divide ⟨3⟩ (ofNat 7)] n := by
    have hswap : m.apply (.swap ⟨1⟩ ⟨2⟩) = .ok swapped := by decide +kernel
    have hcombine : swapped.apply (.combine ⟨2⟩ ⟨2⟩ .minus (ofNat 2) ⟨1⟩) = .ok combined := by
      decide +kernel
    have hscale : combined.apply (.scale ⟨2⟩ (ofNat 3)) = .ok scaled := by decide +kernel
    have hdivide : scaled.apply (.divide ⟨3⟩ (ofNat 7)) = .ok n := by decide +kernel
    refine .cons hswap (.swap _ _) trivial (.cons hcombine (.combine _ _ (by decide)) ?_ ?_)
    · decide +kernel
    · refine .cons hscale (.scale _ (by decide +kernel)) ?_ ?_
      · decide +kernel
      · exact .cons hdivide (.divide _ (by decide +kernel)) trivial .nil
  have hsolves : m.Solves [-2, 1, 0] := by decide +kernel
  exact ⟨m, _, n, hm, h, by decide +kernel, rfl, by decide +kernel, hsolves,
    ((reduction_keeps_solutions hm h).2 _).mp hsolves, by decide +kernel⟩

end Matrix

end Echelon
