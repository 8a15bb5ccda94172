import Echelon.Matrix
import Echelon.Proofs.Results
import Mathlib.Data.List.GetD
import Mathlib.Logic.Equiv.Basic

/-!
# The shape of a matrix

Building a matrix accepts the rows of one length that are not empty. A matrix keeps its shape when
rows take the place of rows as long as they are.
-/

namespace Echelon.Matrix

open Result

/-- There are rows and columns, and every row has a cell in every column. -/
structure Rectangular (m : Matrix) : Prop where
  rows_ne : m.rows ≠ []
  width_pos : 0 < m.width
  length_eq : ∀ row ∈ m.rows, row.length = m.width

theorem forall_mem_zipIdx {α : Type} {P : α → Prop} (as : List α) (k : Nat) :
    (∀ p ∈ as.zipIdx k, P p.1) ↔ ∀ a ∈ as, P a := by
  rw [← List.forall_mem_map, List.zipIdx_map_fst]

theorem map_eq_of_forall₂ {α β γ : Type} {R : α → β → Prop} {as : List α} {bs : List β}
    {f : α → γ} {g : β → γ} (h : List.Forall₂ R as bs) (hf : ∀ a b, R a b → f a = g b) :
    as.map f = bs.map g := by
  induction h with
  | nil => rfl
  | cons hab _ ih => rw [List.map_cons, List.map_cons, hf _ _ hab, ih]

theorem ofRows_eq_ok {rows : List (List Cell)} {m : Matrix} :
    ofRows rows = .ok m ↔ m.rows = rows ∧ m.Rectangular := by
  cases rows with
  | nil =>
    constructor
    · intro h
      cases h
    · rintro ⟨hrows, hrect⟩
      exact absurd hrows hrect.rows_ne
  | cons first rest =>
    simp only [ofRows]
    by_cases hfirst : first = []
    · subst hfirst
      constructor
      · intro h
        cases h
      · rintro ⟨hrows, hrect⟩
        have hlength := hrect.length_eq [] (by simp [hrows])
        have hpos := hrect.width_pos
        rw [← hlength] at hpos
        cases hpos
    · rw [if_neg (by simp [hfirst])]
      split
      · rename_i row number hfind
        constructor
        · intro h
          cases h
        · rintro ⟨hrows, hrect⟩
          have hmem := List.fst_mem_of_mem_zipIdx (List.mem_of_find?_eq_some hfind)
          have hrow := hrect.length_eq row (hrows ▸ hmem)
          have hwidth := hrect.length_eq first (by simp [hrows])
          have hne := List.find?_some hfind
          simp [hrow, hwidth] at hne
      · rename_i hfind
        have hall : ∀ row ∈ first :: rest, row.length = first.length := by
          rw [← forall_mem_zipIdx (first :: rest) 1]
          intro p hp
          simpa using List.find?_eq_none.mp hfind p hp
        constructor
        · intro h
          cases h
          exact ⟨rfl, List.cons_ne_nil first rest, List.length_pos_of_ne_nil hfirst, hall⟩
        · rintro ⟨hrows, hrect⟩
          have hwidth := hrect.length_eq first (by simp [hrows])
          rw [hwidth, ← hrows]

/-! ## Rows of a matrix -/

/-- The row is one of the matrix. -/
def Has (m : Matrix) (row : RowName) : Prop := 1 ≤ row.number ∧ row.number ≤ m.height

instance (m : Matrix) (row : RowName) : Decidable (m.Has row) :=
  inferInstanceAs (Decidable (_ ∧ _))

/-- The cells of a row; no cells if there is no such row. -/
def cells (m : Matrix) (row : RowName) : List Cell := m.rows.getD (row.number - 1) []

/-- The row holds these numbers and no fraction. -/
def Holds (m : Matrix) (row : RowName) (numbers : List Binary64) : Prop :=
  m.Has row ∧ m.cells row = numbers.map .number

variable {m : Matrix} {row : RowName}

theorem index_eq_ok {i : Nat} :
    row.index m.height = .ok i ↔ m.Has row ∧ i = row.number - 1 := by
  unfold RowName.index
  by_cases h : 1 ≤ row.number ∧ row.number ≤ m.height
  · rw [if_pos h]
    constructor
    · intro he
      cases he
      exact ⟨h, rfl⟩
    · rintro ⟨_, rfl⟩
      rfl
  · rw [if_neg h]
    constructor
    · intro he
      cases he
    · rintro ⟨hhas, _⟩
      exact absurd hhas h

theorem index_eq_error {fault : Fault} :
    row.index m.height = .error fault ↔
      ¬ m.Has row ∧ fault = .rowOutOfRange row.number m.height := by
  unfold RowName.index
  by_cases h : 1 ≤ row.number ∧ row.number ≤ m.height
  · rw [if_pos h]
    constructor
    · intro he
      cases he
    · rintro ⟨hno, _⟩
      exact absurd h hno
  · rw [if_neg h]
    constructor
    · intro he
      cases he
      exact ⟨h, rfl⟩
    · rintro ⟨_, rfl⟩
      rfl

theorem checkRows_eq_ok {rows : List RowName} {u : Unit} :
    (rows.forM fun row => do discard (row.index m.height)) = .ok u ↔ ∀ row ∈ rows, m.Has row := by
  rw [forM_eq_ok]
  refine forall₂_congr fun row _ => ?_
  rw [discard_eq_ok]
  simp only [index_eq_ok, exists_and_left, exists_eq, and_true]

theorem forall₂_number {cells : List Cell} {numbers : List Binary64} (k : Nat) :
    List.Forall₂ (fun p x => p.1 = .number x) (cells.zipIdx k) numbers ↔
      cells = numbers.map .number := by
  have hcells := List.forall₂_map_left_iff (R := fun c x => c = Cell.number x) (f := Prod.fst)
    (l := cells.zipIdx k) (u := numbers)
  rw [← hcells, List.zipIdx_map_fst, ← List.forall₂_map_right_iff, List.forall₂_eq_eq_eq]

/-- The number in one cell of a row, with the column for the complaint about a fraction. -/
def operand (row : RowName) (place : Cell × Nat) : Except Fault Binary64 :=
  match place.1 with
  | .number value => .ok value
  | .fraction n d => .error (.fractionOperand row.number place.2 (Cell.fraction n d).text)

theorem numbers_eq (m : Matrix) (row : RowName) :
    m.numbers row =
      row.index m.height >>= fun i => ((m.rows.getD i []).zipIdx 1).mapM (operand row) := by
  unfold numbers
  congr
  funext i
  congr
  funext ⟨cell, column⟩
  cases cell <;> rfl

theorem operand_eq_ok {place : Cell × Nat} {x : Binary64} :
    operand row place = .ok x ↔ place.1 = .number x := by
  obtain ⟨cell, column⟩ := place
  cases cell with
  | number value => simp [operand]
  | fraction n d => simp [operand]

/-- The numbers of a row can be read when it holds no fraction. -/
theorem numbers_eq_ok {xs : List Binary64} : m.numbers row = .ok xs ↔ m.Holds row xs := by
  simp only [numbers_eq, bind_eq_ok, index_eq_ok, mapM_eq_ok, operand_eq_ok, forall₂_number]
  constructor
  · rintro ⟨_, ⟨hhas, rfl⟩, hcells⟩
    exact ⟨hhas, hcells⟩
  · rintro ⟨hhas, hcells⟩
    exact ⟨_, ⟨hhas, rfl⟩, hcells⟩

theorem Has.lt_length (h : m.Has row) : row.number - 1 < m.rows.length := by
  have hpos := h.1
  have hle : row.number ≤ m.rows.length := h.2
  omega

theorem cells_mem (h : m.Has row) : m.cells row ∈ m.rows := by
  rw [cells, List.getD_eq_getElem _ _ h.lt_length]
  exact List.getElem_mem h.lt_length

/-- Every row has a name. -/
theorem exists_cells_eq {cells : List Cell} (h : cells ∈ m.rows) :
    ∃ row, m.Has row ∧ m.cells row = cells := by
  obtain ⟨k, hk, rfl⟩ := List.getElem_of_mem h
  exact ⟨⟨k + 1⟩, ⟨by simp, hk⟩, List.getD_eq_getElem _ _ hk⟩

/-! ## Rows in the place of others -/

/-- Matrices with as many rows and columns. -/
structure SameShape (m n : Matrix) : Prop where
  height_eq : m.height = n.height
  width_eq : m.width = n.width

theorem mem_replace {cells other : List Cell} (h : other ∈ (m.replace row cells).rows) :
    other = cells ∨ other ∈ m.rows := (List.mem_or_eq_of_mem_set h).symm

theorem SameShape.symm {n : Matrix} (h : SameShape m n) : SameShape n m :=
  ⟨h.height_eq.symm, h.width_eq.symm⟩

theorem SameShape.trans {k n : Matrix} (h : SameShape k m) (hm : SameShape m n) : SameShape k n :=
  ⟨h.height_eq.trans hm.height_eq, h.width_eq.trans hm.width_eq⟩

theorem sameShape_replace (m : Matrix) (row : RowName) (cells : List Cell) :
    SameShape m (m.replace row cells) := ⟨List.length_set.symm, rfl⟩

theorem SameShape.has_iff {n : Matrix} (h : SameShape m n) : m.Has row ↔ n.Has row := by
  rw [Has, Has, h.height_eq]

/-- Matrices of one shape are equal when all their rows are. -/
theorem SameShape.ext {n : Matrix} (h : SameShape m n)
    (hcells : ∀ row, m.Has row → m.cells row = n.cells row) : m = n := by
  have hheight : m.rows.length = n.rows.length := h.height_eq
  have hrows : m.rows = n.rows := by
    refine List.ext_getElem hheight fun i hi hj => ?_
    have hrow := hcells ⟨i + 1⟩ ⟨Nat.le_add_left 1 i, hi⟩
    rwa [cells, cells, Nat.add_sub_cancel, List.getD_eq_getElem _ _ hi,
      List.getD_eq_getElem _ _ hj] at hrow
  obtain ⟨_, _⟩ := m
  obtain ⟨_, _⟩ := n
  rw [Matrix.mk.injEq]
  exact ⟨hrows, h.width_eq⟩

theorem has_replace {other : RowName} (cells : List Cell) :
    (m.replace row cells).Has other ↔ m.Has other := by
  simp [Has, height, replace]

theorem cells_replace (h : m.Has row) (cells : List Cell) :
    (m.replace row cells).cells row = cells := by
  simp [Matrix.cells, replace, List.getD_eq_getElem?_getD, h.lt_length]

theorem cells_replace_of_ne {other : RowName} (h : m.Has row) (ho : m.Has other)
    (hne : other ≠ row) (cells : List Cell) :
    (m.replace row cells).cells other = m.cells other := by
  have hnumber : row.number - 1 ≠ other.number - 1 := by
    intro heq
    have hrow := h.1
    have hother := ho.1
    have hsame : other.number = row.number := by omega
    cases row
    cases other
    exact hne (congrArg RowName.mk hsame)
  simp [Matrix.cells, replace, List.getD_eq_getElem?_getD, List.getElem?_set_ne hnumber]

theorem exchange_eq (m : Matrix) (i j : RowName) :
    m.exchange i j = (m.replace i (m.cells j)).replace j (m.cells i) := rfl

theorem has_exchange {i j other : RowName} : (m.exchange i j).Has other ↔ m.Has other := by
  rw [exchange_eq, has_replace, has_replace]

variable {i j k : RowName}

theorem cells_exchange_right (hj : m.Has j) : (m.exchange i j).cells j = m.cells i :=
  cells_replace ((has_replace _).mpr hj) _

theorem cells_exchange_left (hi : m.Has i) (hj : m.Has j) :
    (m.exchange i j).cells i = m.cells j := by
  by_cases hij : i = j
  · subst hij
    exact cells_exchange_right hi
  · rw [exchange_eq, cells_replace_of_ne ((has_replace _).mpr hj) ((has_replace _).mpr hi) hij,
      cells_replace hi]

theorem cells_exchange_of_ne (hi : m.Has i) (hj : m.Has j) (hk : m.Has k) (hki : k ≠ i)
    (hkj : k ≠ j) : (m.exchange i j).cells k = m.cells k := by
  rw [exchange_eq, cells_replace_of_ne ((has_replace _).mpr hj) ((has_replace _).mpr hk) hkj,
    cells_replace_of_ne hi hk hki]

/-! ## Exchanged names -/

theorem sameShape_exchange (m : Matrix) (i j : RowName) : SameShape m (m.exchange i j) :=
  (sameShape_replace m i _).trans (sameShape_replace _ j _)

theorem has_swap (hi : m.Has i) (hj : m.Has j) : m.Has (Equiv.swap i j k) ↔ m.Has k := by
  rw [Equiv.swap_apply_def]
  split
  · rename_i h
    simp [h, hi, hj]
  · split
    · rename_i h
      simp [h, hi, hj]
    · rfl

/-- An exchange moves the cells of a row to its exchanged name. -/
theorem cells_exchange_swap (hi : m.Has i) (hj : m.Has j) (hk : m.Has k) :
    (m.exchange i j).cells (Equiv.swap i j k) = m.cells k := by
  by_cases hki : k = i
  · rw [hki, Equiv.swap_apply_left, cells_exchange_right hj]
  · by_cases hkj : k = j
    · rw [hkj, Equiv.swap_apply_right, cells_exchange_left hi hj]
    · rw [Equiv.swap_apply_of_ne_of_ne hki hkj, cells_exchange_of_ne hi hj hk hki hkj]

theorem cells_exchange (hi : m.Has i) (hj : m.Has j) (hk : m.Has k) :
    (m.exchange i j).cells k = m.cells (Equiv.swap i j k) := by
  have hcells := cells_exchange_swap hi hj ((has_swap hi hj).mpr hk)
  rwa [Equiv.swap_apply_self] at hcells

/-- A matrix is the exchanged one when each row stands under the exchanged name. -/
theorem eq_exchange {n : Matrix} (hi : m.Has i) (hj : m.Has j) (hs : SameShape m n)
    (hcells : ∀ k, m.Has k → n.cells (Equiv.swap i j k) = m.cells k) : n = m.exchange i j := by
  refine (hs.symm.trans (sameShape_exchange m i j)).ext fun k hk => ?_
  have hm : m.Has k := hs.has_iff.mpr hk
  have hn := hcells _ ((has_swap hi hj).mpr hm)
  rw [Equiv.swap_apply_self] at hn
  rw [hn, cells_exchange hi hj hm]

theorem exchange_exchange (hi : m.Has i) (hj : m.Has j) :
    (m.exchange i j).exchange i j = m := by
  have hs := sameShape_exchange m i j
  exact (eq_exchange (hs.has_iff.mp hi) (hs.has_iff.mp hj) hs.symm fun k hk =>
    (cells_exchange hi hj (hs.has_iff.mpr hk)).symm).symm

/-! ## The shape under replacement -/

theorem Rectangular.replace (h : m.Rectangular) {cells : List Cell}
    (hcells : cells.length = m.width) : (m.replace row cells).Rectangular := by
  refine ⟨?_, h.width_pos, ?_⟩
  · intro hnil
    exact h.rows_ne ((List.set_eq_nil_iff _ _).mp hnil)
  · intro other hmem
    rcases mem_replace hmem with rfl | hold
    · exact hcells
    · exact h.length_eq other hold

end Echelon.Matrix
