import Echelon.Proofs.Cell.ReadBack
import Echelon.Proofs.Matrix.Building
import Echelon.Proofs.Matrix.Tokens

/-!
# Shown matrices as text

The rows of what is shown for a matrix, one on a line with a space between the cells, are cut into
the same rows again. Reading these tokens gives the matrix with unsigned zeros when it has no
fraction, and otherwise stops at the first fraction, row by row.
-/

namespace Echelon.Matrix

open Text Result

/-! ## Lines and words -/

theorem lineWords_cons {line : List Char} (hline : '\n' ∉ line) (hwords : words line ≠ [])
    (rest : List Char) : lineWords (line ++ '\n' :: rest) = words line :: lineWords rest := by
  rw [lineWords_append, lineWords_line hline, List.filter_cons_of_pos (by simp [hwords])]
  rfl

theorem newline_not_mem_intercalate {row : List (List Char)} (h : ∀ word ∈ row, Word word) :
    '\n' ∉ [' '].intercalate row := by
  induction row with
  | nil => simp
  | cons word row ih =>
    obtain ⟨hword, hrow⟩ := List.forall_mem_cons.mp h
    have hnewline : '\n' ∉ word := by
      intro hmem
      cases hword.not_blank '\n' hmem
    cases row with
    | nil =>
      rw [List.intercalate_singleton]
      exact hnewline
    | cons next row =>
      rw [List.intercalate_cons_cons]
      simp [hnewline, ih hrow]

/-- The rows of a text, each written on a line. -/
def written (rows : List (List String)) : String :=
  String.join (rows.map fun row => " ".intercalate row ++ "\n")

theorem toList_written_cons (row : List String) (rows : List (List String)) :
    (written (row :: rows)).toList =
      [' '].intercalate (row.map String.toList) ++ '\n' :: (written rows).toList := by
  simp [written, String.toList_join, String.toList_intercalate]

/-- Rows of words are cut out of the text again. -/
theorem tokenRows_written {rows : List (List String)} (hne : ∀ row ∈ rows, row ≠ [])
    (h : ∀ row ∈ rows, ∀ token ∈ row, Word token.toList) : tokenRows (written rows) = rows := by
  induction rows with
  | nil =>
    rw [tokenRows_eq]
    rfl
  | cons row rows ih =>
    obtain ⟨hrow, hrows⟩ := List.forall_mem_cons.mp h
    obtain ⟨hrow_ne, hrows_ne⟩ := List.forall_mem_cons.mp hne
    have hwords : ∀ word ∈ row.map String.toList, Word word := by
      simpa [List.forall_mem_map] using hrow
    have hcut : words ([' '].intercalate (row.map String.toList)) = row.map String.toList :=
      words_intercalate hwords
    have hline := lineWords_cons (newline_not_mem_intercalate hwords)
      (by rw [hcut]; simpa using hrow_ne) (written rows).toList
    have hrest := ih hrows_ne hrows
    rw [tokenRows_eq] at hrest
    rw [tokenRows_eq, toList_written_cons, hline, hcut, List.map_cons, hrest, List.map_map]
    simp

/-- The text is made of these lines, each with a line feed after it. -/
def HasLines (text : String) (lines : List String) : Prop :=
  text.toList.splitOn '\n' = lines.map String.toList ++ [[]]

theorem hasLines_written {rows : List (List String)}
    (h : ∀ row ∈ rows, ∀ token ∈ row, Word token.toList) :
    HasLines (written rows) (rows.map (" ".intercalate ·)) := by
  induction rows with
  | nil => rfl
  | cons row rows ih =>
    obtain ⟨hrow, hrows⟩ := List.forall_mem_cons.mp h
    have hwords : ∀ word ∈ row.map String.toList, Word word := by
      simpa [List.forall_mem_map] using hrow
    have hrest := ih hrows
    rw [HasLines] at hrest ⊢
    rw [toList_written_cons,
      List.splitOn_append_cons_self_of_not_mem (newline_not_mem_intercalate hwords), hrest]
    simp [String.toList_intercalate]

/-! ## Matrices -/

/-- A matrix as it is shown: its zeros have no sign. -/
def plain (m : Matrix) : Matrix := { m with rows := m.rows.map fun row => row.map Cell.plain }

/-- Matrices that compare as equal: they have one shape, and cells compare as cells do. -/
def SameValue (m n : Matrix) : Prop :=
  m.width = n.width ∧ List.Forall₂ (List.Forall₂ Cell.SameValue) m.rows n.rows

/-- The cell is the first fraction of some rows, row by row, in the row with this number. -/
inductive FirstFraction (rows : List (List Cell)) : Nat → Cell → Prop where
  | mk {before after : List (List Cell)} {first rest : List Cell} {n d : Binary64} :
      rows = before ++ (first ++ .fraction n d :: rest) :: after →
      (∀ row ∈ before, ∀ cell ∈ row, cell.isFraction = false) →
      (∀ cell ∈ first, cell.isFraction = false) →
      FirstFraction rows (before.length + 1) (.fraction n d)

theorem exists_firstFraction {rows : List (List Cell)}
    (h : ∃ row ∈ rows, ∃ cell ∈ row, cell.isFraction = true) :
    ∃ number n d, FirstFraction rows number (.fraction n d) := by
  have hrows : (rows.find? fun row => row.any Cell.isFraction).isSome = true := by
    simpa [List.find?_isSome] using h
  obtain ⟨row, hrow⟩ := Option.isSome_iff_exists.mp hrows
  obtain ⟨hany, before, after, hsplit, hbefore⟩ := List.find?_eq_some_iff_append.mp hrow
  have hcells : (row.find? Cell.isFraction).isSome = true := by
    simpa [List.find?_isSome] using hany
  obtain ⟨cell, hcell⟩ := Option.isSome_iff_exists.mp hcells
  obtain ⟨hfraction, first, rest, rfl, hfirst⟩ := List.find?_eq_some_iff_append.mp hcell
  cases cell with
  | number x => cases hfraction
  | fraction n d =>
    refine ⟨_, n, d, .mk hsplit ?_ ?_⟩
    · simpa using hbefore
    · simpa using hfirst

variable {m : Matrix}

theorem WellFormed.sameValue_plain (h : m.WellFormed) : m.plain.SameValue m := by
  refine ⟨rfl, ?_⟩
  simp only [plain, List.forall₂_map_left_iff, List.forall₂_same]
  exact fun row hrow cell hcell => Cell.sameValue_plain (h.proper row hrow cell hcell)

/-- Lists have one image when a relation that the images decide holds place by place. -/
theorem map_eq_map_iff_forall₂ {α β : Type} {f : α → β} {R : α → α → Prop} {as bs : List α}
    (h : ∀ a ∈ as, ∀ b ∈ bs, (f a = f b ↔ R a b)) :
    as.map f = bs.map f ↔ List.Forall₂ R as bs := by
  induction as generalizing bs with
  | nil => simp [eq_comm]
  | cons a as ih =>
    cases bs with
    | nil => simp
    | cons b bs =>
      have hrest : as.map f = bs.map f ↔ List.Forall₂ R as bs :=
        ih fun c hc d hd => h c (List.mem_cons_of_mem a hc) d (List.mem_cons_of_mem b hd)
      rw [List.map_cons, List.map_cons, List.cons.injEq, List.forall₂_cons,
        h a List.mem_cons_self b List.mem_cons_self, hrest]

/-- Well-formed matrices of one width compare as equal when they are shown alike. -/
theorem WellFormed.sameValue_iff {n : Matrix} (hm : m.WellFormed) (hn : n.WellFormed) :
    m.SameValue n ↔ m.width = n.width ∧ m.texts = n.texts := by
  refine and_congr_right fun _ => (map_eq_map_iff_forall₂ fun row hrow other hother => ?_).symm
  exact map_eq_map_iff_forall₂ fun cell hcell another hanother =>
    Cell.text_eq_iff (hm.proper row hrow cell hcell) (hn.proper other hother another hanother)

theorem Rectangular.plain (h : m.Rectangular) : m.plain.Rectangular := by
  refine ⟨?_, h.width_pos, ?_⟩
  · simpa [Matrix.plain] using h.rows_ne
  · simpa [Matrix.plain] using h.length_eq

theorem WellFormed.word_of_mem_texts (h : m.WellFormed) :
    ∀ row ∈ m.texts, ∀ token ∈ row, Word token.toList := by
  intro row hrow token htoken
  obtain ⟨cells, hcells, rfl⟩ := List.mem_map.mp hrow
  obtain ⟨cell, hcell, rfl⟩ := List.mem_map.mp htoken
  exact (h.proper cells hcells cell hcell).word_text

theorem WellFormed.tokenRows_texts (h : m.WellFormed) :
    tokenRows (written m.texts) = m.texts := by
  refine tokenRows_written (fun row hrow => ?_) h.word_of_mem_texts
  obtain ⟨cells, hcells, rfl⟩ := List.mem_map.mp hrow
  have hpos := h.width_pos
  rw [← h.length_eq cells hcells] at hpos
  simpa using List.ne_nil_of_length_pos hpos

theorem WellFormed.ofText_eq (h : m.WellFormed) : ofText (written m.texts) = ofTokens m.texts := by
  have hne : m.texts ≠ [] := by simpa [texts] using h.rows_ne
  rw [ofText, splitText, h.tokenRows_texts, if_neg (by simpa using hne)]
  rfl

theorem cellOf_text {cell : Cell} (h : cell.Proper) (hn : cell.isFraction = false) :
    CellOf cell.text cell.plain := by
  cases h with
  | number hx => exact ofToken?_eq_some.mp (Cell.ofToken?_number hx)
  | fraction _ _ _ _ _ => cases hn

theorem not_numeric_text {n d : Binary64} (h : (Cell.fraction n d).Proper) :
    ¬ Numeric (Cell.fraction n d).text := ofToken?_eq_none.mp (Cell.ofToken?_fraction h)

theorem numeric_text {cell : Cell} (h : cell.Proper) (hn : cell.isFraction = false) :
    Numeric cell.text := by
  obtain ⟨x, hx, _⟩ := cellOf_text h hn
  exact ⟨x, hx⟩

/-- Without a fraction the tokens are read as the matrix. -/
theorem WellFormed.ofTokens_texts (h : m.WellFormed)
    (hn : ∀ row ∈ m.rows, ∀ cell ∈ row, cell.isFraction = false) :
    ofTokens m.texts = .ok m.plain := by
  have hcells : List.Forall₂ (List.Forall₂ CellOf) m.texts m.plain.rows := by
    simp only [texts, plain, List.forall₂_map_left_iff, List.forall₂_map_right_iff,
      List.forall₂_same]
    exact fun row hrow cell hcell =>
      cellOf_text (h.proper row hrow cell hcell) (hn row hrow cell hcell)
  obtain ⟨hlength, hwidth⟩ := (rectangular_iff hcells).mp h.toRectangular.plain
  exact ofTokens_eq_ok.mpr ⟨hlength, hwidth, hcells⟩

/-- Reading stops at the first fraction. -/
theorem WellFormed.ofTokens_texts_fraction (h : m.WellFormed) {number : Nat} {cell : Cell}
    (hf : FirstFraction m.rows number cell) :
    ofTokens m.texts = .error (.malformedRow number cell.text) := by
  obtain @⟨before, after, first, rest, n, d, hrows, hbefore, hfirst⟩ := hf
  have hproper : ∀ cell ∈ first ++ .fraction n d :: rest, cell.Proper :=
    h.proper _ (by simp [hrows])
  have htexts : m.texts = before.map (·.map Cell.text) ++
      (first.map Cell.text ++ (Cell.fraction n d).text :: rest.map Cell.text) ::
        after.map (·.map Cell.text) := by
    simp [texts, hrows]
  refine ofTokens_eq_error.mpr (.malformedRow ?_)
  have hlength : (before.map (·.map Cell.text)).length = before.length := List.length_map _
  rw [← hlength]
  refine .mk htexts ?_ ?_ (not_numeric_text (hproper _ (by simp)))
  · simp only [AllNumeric, List.forall_mem_map]
    exact fun row hrow cell hcell =>
      numeric_text (h.proper row (by simp [hrows, hrow]) cell hcell) (hbefore row hrow cell hcell)
  · simp only [List.forall_mem_map]
    exact fun cell hcell => numeric_text (hproper cell (by simp [hcell])) (hfirst cell hcell)

end Echelon.Matrix
