import Echelon.Proofs.Matrix.Shape
import Echelon.Proofs.Number.Literals

/-!
# Building a matrix from tokens

Rows of tokens are a matrix when every token is a literal of a finite number and all rows are as
long as the first, which is not empty. Otherwise one fault is reported. A token that is no number
counts before the shape, even in a row after one that is empty or too long; of several such tokens
the first counts, row by row. Then comes a first row that is missing or empty, and then the first
row of another length.
-/

namespace Echelon.Matrix

open Text Result

/-! ## Tokens and shapes -/

/-- The token, but for blanks at its ends, is a literal of the finite number. -/
def Denotes (token : String) (x : Binary64) : Prop :=
  Literal.Names (trim token.toList) x ∧ x.isFinite = true

/-- The token is a literal of a finite number. -/
def Numeric (token : String) : Prop := ∃ x, Denotes token x

/-- Every token is a literal of a finite number. -/
def AllNumeric (rows : List (List String)) : Prop := ∀ row ∈ rows, ∀ token ∈ row, Numeric token

/-- The cell holds the number of the token. -/
def CellOf (token : String) (cell : Cell) : Prop := ∃ x, Denotes token x ∧ cell = .number x

/-- There is a row, the first row is not empty, and all rows are as long. -/
def SameLength (rows : List (List String)) : Prop :=
  ∃ first rest, rows = first :: rest ∧ first ≠ [] ∧ ∀ row ∈ rest, row.length = first.length

/-- The matrix has the shape of the rows, and in each place the number of the token there. -/
structure BuiltFrom (rows : List (List String)) (m : Matrix) : Prop where
  width_eq : ∀ row ∈ rows, row.length = m.width
  cells : List.Forall₂ (List.Forall₂ CellOf) rows m.rows

/-- The token is the first of all, row by row, that is no number, in the row with this number. -/
inductive FirstMalformed (rows : List (List String)) : Nat → String → Prop where
  | mk {before after : List (List String)} {first rest : List String} {token : String} :
      rows = before ++ (first ++ token :: rest) :: after → AllNumeric before →
      (∀ other ∈ first, Numeric other) → ¬ Numeric token →
      FirstMalformed rows (before.length + 1) token

/-- What is wrong with rows of these lengths. After some rows of one length, one of another is the
first that differs. -/
inductive Misshapen (lengths : List Nat) : Fault → Prop where
  | noRow : lengths = [] → Misshapen lengths .emptyMatrix
  | noColumn {after : List Nat} : lengths = 0 :: after → Misshapen lengths .emptyMatrix
  | ragged {width length n : Nat} {after : List Nat} :
      lengths = List.replicate (n + 1) width ++ length :: after → 0 < width → length ≠ width →
      Misshapen lengths (.ragged (n + 2) width length)

/-- The fault that is reported for rows of tokens. The shape matters only where all are numbers. -/
inductive Rejected (rows : List (List String)) : Fault → Prop where
  | malformedRow {number : Nat} {token : String} :
      FirstMalformed rows number token → Rejected rows (.malformedRow number token)
  | misshapen {fault : Fault} :
      AllNumeric rows → Misshapen (rows.map List.length) fault → Rejected rows fault

variable {rows : List (List String)} {cells : List (List Cell)} {m : Matrix} {number : Nat}
  {token : String} {fault : Fault}

/-! ## Reading tokens -/

theorem ofToken?_eq_some {cell : Cell} : Cell.ofToken? token = some cell ↔ CellOf token cell := by
  simp only [Cell.ofToken?, Option.map_eq_some_iff, Literal.parse?_eq_some]
  exact exists_congr fun _ => and_congr_right fun _ => eq_comm

theorem ofToken?_eq_none : Cell.ofToken? token = none ↔ ¬ Numeric token := by
  simp only [Option.eq_none_iff_forall_ne_some, ne_eq, ofToken?_eq_some]
  constructor
  · rintro h ⟨x, hx⟩
    exact h (.number x) ⟨x, hx, rfl⟩
  · rintro h _ ⟨x, hx, _⟩
    exact h ⟨x, hx⟩

theorem readCell_eq_ok {cell : Cell} : readCell number token = .ok cell ↔ CellOf token cell := by
  rw [← ofToken?_eq_some, readCell]
  cases Cell.ofToken? token with
  | some found => simp
  | none => simp

theorem readCell_eq_error : readCell number token = .error fault ↔
    ¬ Numeric token ∧ fault = .malformedRow number token := by
  rw [← ofToken?_eq_none, readCell]
  cases Cell.ofToken? token with
  | some found => simp
  | none => simp [eq_comm]

theorem exists_readCell_iff : (∃ cell, readCell number token = .ok cell) ↔ Numeric token := by
  simp only [readCell_eq_ok]
  constructor
  · rintro ⟨_, x, hx, _⟩
    exact ⟨x, hx⟩
  · rintro ⟨x, hx⟩
    exact ⟨.number x, x, hx, rfl⟩

/-- The cells of one row of tokens, in the row with the given number. -/
def readRow (place : List String × Nat) : Except Fault (List Cell) :=
  place.1.mapM (readCell place.2)

/-- The cells of all rows of tokens. -/
def readRows (rows : List (List String)) : Except Fault (List (List Cell)) :=
  (rows.zipIdx 1).mapM readRow

theorem ofTokens_eq (rows : List (List String)) : ofTokens rows = readRows rows >>= ofRows := rfl

theorem readRow_eq_ok {place : List String × Nat} {row : List Cell} :
    readRow place = .ok row ↔ List.Forall₂ CellOf place.1 row := by
  simp only [readRow, mapM_eq_ok, readCell_eq_ok]

theorem exists_readRow_iff {place : List String × Nat} :
    (∃ row, readRow place = .ok row) ↔ ∀ token ∈ place.1, Numeric token := by
  simp only [readRow, exists_mapM_iff, exists_readCell_iff]

theorem readRow_eq_error {place : List String × Nat} : readRow place = .error fault ↔
    ∃ first token rest, place.1 = first ++ token :: rest ∧ (∀ other ∈ first, Numeric other) ∧
      ¬ Numeric token ∧ fault = .malformedRow place.2 token := by
  simp only [readRow, mapM_eq_error_iff, exists_readCell_iff, readCell_eq_error]

theorem readRows_eq_ok :
    readRows rows = .ok cells ↔ List.Forall₂ (List.Forall₂ CellOf) rows cells := by
  have hplaces := List.forall₂_map_left_iff (R := List.Forall₂ CellOf) (f := Prod.fst)
    (l := rows.zipIdx 1) (u := cells)
  rw [List.zipIdx_map_fst] at hplaces
  simp only [readRows, mapM_eq_ok, readRow_eq_ok, hplaces]

theorem allNumeric_iff (rows : List (List String)) :
    (∀ place ∈ rows.zipIdx 1, ∀ token ∈ place.1, Numeric token) ↔ AllNumeric rows :=
  forall_mem_zipIdx (P := fun row => ∀ token ∈ row, Numeric token) rows 1

theorem exists_readRows_iff : (∃ cells, readRows rows = .ok cells) ↔ AllNumeric rows := by
  simp only [readRows, exists_mapM_iff, exists_readRow_iff, allNumeric_iff]

/-- A place among the members of a list with their numbers. -/
theorem exists_of_zipIdx_eq {α : Type} {as : List α} {k i : Nat} {a : α}
    {before after : List (α × Nat)} (h : as.zipIdx k = before ++ (a, i) :: after) :
    ∃ earlier later, as = earlier ++ a :: later ∧ before = earlier.zipIdx k ∧
      i = k + earlier.length := by
  obtain ⟨earlier, tail, rfl, hbefore, htail⟩ := List.zipIdx_eq_append_iff.mp h
  obtain ⟨b, later, rfl, hb, _⟩ := List.zipIdx_eq_cons_iff.mp htail.symm
  cases hb
  exact ⟨earlier, later, rfl, hbefore, rfl⟩

theorem readRows_eq_error : readRows rows = .error fault ↔
    ∃ number token, FirstMalformed rows number token ∧ fault = .malformedRow number token := by
  simp only [readRows, mapM_eq_error_iff, exists_readRow_iff, readRow_eq_error]
  constructor
  · rintro ⟨before, ⟨row, i⟩, after, hplaces, hbefore, first, token, rest, rfl, hfirst, hbad, rfl⟩
    obtain ⟨earlier, later, rfl, rfl, rfl⟩ := exists_of_zipIdx_eq hplaces
    have hearlier := (allNumeric_iff earlier).mp hbefore
    exact ⟨_, token, .mk rfl hearlier hfirst hbad, by rw [Nat.add_comm]⟩
  · rintro ⟨_, token, @⟨earlier, later, first, rest, _, rfl, hearlier, hfirst, hbad⟩, rfl⟩
    refine ⟨earlier.zipIdx 1, (first ++ token :: rest, 1 + earlier.length),
      later.zipIdx (1 + earlier.length + 1), ?_, (allNumeric_iff earlier).mpr hearlier,
      first, token, rest, rfl, hfirst, hbad, by rw [Nat.add_comm]⟩
    rw [List.zipIdx_append, List.zipIdx_cons]

/-! ## Looking at the shape -/

theorem find?_zipIdx_eq_some {α : Type} {p : α → Bool} {as : List α} {k i : Nat} {a : α} :
    ((as.zipIdx k).find? fun place => p place.1) = some (a, i) ↔ ∃ before after,
      as = before ++ a :: after ∧ (∀ b ∈ before, p b = false) ∧ p a = true ∧
        i = k + before.length := by
  simp only [List.find?_eq_some_iff_append, Bool.not_eq_true']
  constructor
  · rintro ⟨ha, before, after, hplaces, hbefore⟩
    obtain ⟨earlier, later, rfl, rfl, rfl⟩ := exists_of_zipIdx_eq hplaces
    have hearlier := (forall_mem_zipIdx (P := (p · = false)) earlier k).mp hbefore
    exact ⟨earlier, later, rfl, hearlier, ha, rfl⟩
  · rintro ⟨earlier, later, rfl, hearlier, ha, rfl⟩
    have hbefore := (forall_mem_zipIdx (P := (p · = false)) earlier k).mpr hearlier
    refine ⟨ha, earlier.zipIdx k, later.zipIdx (k + earlier.length + 1), ?_, hbefore⟩
    rw [List.zipIdx_append, List.zipIdx_cons]

/-- The row that is complained about comes after rows that are as long as the first. -/
theorem misshapen_of_find? {first row : List Cell} {rest : List (List Cell)}
    (hfirst : first ≠ []) (h : (((first :: rest).zipIdx 1).find? fun place =>
      place.1.length != first.length) = some (row, number)) :
    Misshapen ((first :: rest).map List.length) (.ragged number first.length row.length) := by
  obtain ⟨before, after, hrows, hbefore, hrow, rfl⟩ :=
    find?_zipIdx_eq_some (p := fun row : List Cell => row.length != first.length).mp h
  cases before with
  | nil =>
    obtain ⟨rfl, rfl⟩ := List.cons.inj hrows
    simp at hrow
  | cons other between =>
    obtain ⟨rfl, _⟩ := List.cons.inj hrows
    have hlengths : (first :: between).map List.length =
        List.replicate (between.length + 1) first.length :=
      List.map_eq_replicate_iff.mpr (by simpa using hbefore)
    have hnumber : 1 + (first :: between).length = between.length + 2 := by
      rw [List.length_cons]
      omega
    rw [hrows, List.map_append, hlengths, hnumber]
    exact .ragged rfl (List.length_pos_iff.mpr hfirst) (by simpa using hrow)

theorem ofRows_of_ragged {width length n : Nat} {after : List Nat}
    (h : cells.map List.length = List.replicate (n + 1) width ++ length :: after)
    (hpos : 0 < width) (hne : length ≠ width) :
    ofRows cells = .error (.ragged (n + 2) width length) := by
  obtain ⟨before, tail, rfl, hbefore, htail⟩ := List.map_eq_append_iff.mp h
  obtain ⟨row, later, rfl, rfl, _⟩ := List.map_eq_cons_iff.mp htail
  obtain ⟨first, between, rfl, rfl, hbetween⟩ := List.map_eq_cons_iff.mp hbefore
  have hn : between.length = n := by simpa using congrArg List.length hbetween
  have hequal : ∀ other ∈ between, other.length = first.length :=
    List.map_eq_replicate_iff.mp (hn ▸ hbetween)
  have hfind : ((first :: between ++ row :: later).zipIdx 1).find?
      (fun place => place.1.length != first.length) = some (row, n + 2) := by
    refine find?_zipIdx_eq_some (p := fun row : List Cell => row.length != first.length).mpr
      ⟨first :: between, later, rfl, by simpa using hequal, by simpa using hne, ?_⟩
    rw [List.length_cons, hn]
    omega
  have hfirst : ¬ first.isEmpty = true := by simpa [← List.length_pos_iff]
  rw [List.cons_append] at hfind ⊢
  simp only [ofRows, if_neg hfirst, hfind]

/-- Only the lengths of the rows decide about the shape. -/
theorem ofRows_eq_error :
    ofRows cells = .error fault ↔ Misshapen (cells.map List.length) fault := by
  constructor
  · intro h
    cases cells with
    | nil =>
      cases h
      exact .noRow rfl
    | cons first rest =>
      simp only [ofRows] at h
      split at h
      · rename_i hfirst
        cases h
        exact .noColumn (by rw [List.map_cons, List.isEmpty_iff.mp hfirst, List.length_nil])
      · rename_i hfirst
        split at h
        · rename_i row number hfind
          cases h
          exact misshapen_of_find? (by simpa using hfirst) hfind
        · cases h
  · rintro (h | h | ⟨h, hpos, hne⟩)
    · rw [List.map_eq_nil_iff.mp h]
      rfl
    · obtain ⟨first, rest, rfl, hfirst, _⟩ := List.map_eq_cons_iff.mp h
      rw [List.length_eq_zero_iff.mp hfirst]
      rfl
    · exact ofRows_of_ragged h hpos hne

theorem lengths_eq (h : List.Forall₂ (List.Forall₂ CellOf) rows cells) :
    rows.map List.length = cells.map List.length :=
  map_eq_of_forall₂ h fun _ _ hrow => hrow.length_eq

/-! ## Building -/

/-- A matrix is rectangular when the tokens that it was read from are. -/
theorem rectangular_iff (h : List.Forall₂ (List.Forall₂ CellOf) rows m.rows) :
    m.Rectangular ↔ SameLength rows ∧ ∀ row ∈ rows, row.length = m.width := by
  have hlengths : (∀ row ∈ m.rows, row.length = m.width) ↔ ∀ row ∈ rows, row.length = m.width := by
    rw [← List.forall_mem_map (f := List.length) (P := (· = m.width)), ← lengths_eq h,
      List.forall_mem_map]
  constructor
  · rintro ⟨hne, hpos, hlength⟩
    have hwidth := hlengths.mp hlength
    cases rows with
    | nil => exact absurd (List.forall₂_nil_left_iff.mp h) hne
    | cons first rest =>
      obtain ⟨hfirst, hrest⟩ := List.forall_mem_cons.mp hwidth
      refine ⟨⟨first, rest, rfl, ?_, fun row hrow => ?_⟩, hwidth⟩
      · rw [← List.length_pos_iff, hfirst]
        exact hpos
      · rw [hfirst, hrest row hrow]
  · rintro ⟨⟨first, rest, rfl, hfirst, _⟩, hwidth⟩
    refine ⟨?_, ?_, hlengths.mpr hwidth⟩
    · rintro hnil
      rw [hnil] at h
      cases h
    · rw [← hwidth first List.mem_cons_self]
      exact List.length_pos_iff.mpr hfirst

theorem ofTokens_eq_ok : ofTokens rows = .ok m ↔ SameLength rows ∧ BuiltFrom rows m := by
  simp only [ofTokens_eq, bind_eq_ok, readRows_eq_ok, ofRows_eq_ok]
  constructor
  · rintro ⟨_, hcells, rfl, hrect⟩
    obtain ⟨hlength, hwidth⟩ := (rectangular_iff hcells).mp hrect
    exact ⟨hlength, hwidth, hcells⟩
  · rintro ⟨hlength, hwidth, hcells⟩
    exact ⟨_, hcells, rfl, (rectangular_iff hcells).mpr ⟨hlength, hwidth⟩⟩

theorem exists_ofTokens_iff :
    (∃ m, ofTokens rows = .ok m) ↔ SameLength rows ∧ AllNumeric rows := by
  constructor
  · rintro ⟨m, hm⟩
    obtain ⟨hlength, hbuilt⟩ := ofTokens_eq_ok.mp hm
    exact ⟨hlength, exists_readRows_iff.mp ⟨m.rows, readRows_eq_ok.mpr hbuilt.cells⟩⟩
  · rintro ⟨hlength, hall⟩
    obtain ⟨cells, hcells⟩ := exists_readRows_iff.mpr hall
    obtain ⟨first, rest, rfl, _, hrest⟩ := id hlength
    refine ⟨⟨cells, first.length⟩, ofTokens_eq_ok.mpr ⟨hlength, ?_, readRows_eq_ok.mp hcells⟩⟩
    exact List.forall_mem_cons.mpr ⟨rfl, hrest⟩

theorem ofTokens_eq_error : ofTokens rows = .error fault ↔ Rejected rows fault := by
  rw [ofTokens_eq, bind_eq_error, readRows_eq_error]
  constructor
  · rintro (⟨number, token, hfirst, rfl⟩ | ⟨cells, hcells, hfault⟩)
    · exact .malformedRow hfirst
    · refine .misshapen (exists_readRows_iff.mp ⟨cells, hcells⟩) ?_
      rw [lengths_eq (readRows_eq_ok.mp hcells)]
      exact ofRows_eq_error.mp hfault
  · rintro (hfirst | ⟨hall, hshape⟩)
    · exact Or.inl ⟨_, _, hfirst, rfl⟩
    · obtain ⟨cells, hcells⟩ := exists_readRows_iff.mpr hall
      rw [lengths_eq (readRows_eq_ok.mp hcells)] at hshape
      exact Or.inr ⟨cells, hcells, ofRows_eq_error.mpr hshape⟩

/-- **Building accepts exactly the rectangles of numbers, and reports what is wrong with all other
rows of tokens.** -/
theorem building_classifies (rows : List (List String)) :
    ((∃ m, ofTokens rows = .ok m) ↔ SameLength rows ∧ AllNumeric rows) ∧
    (∀ m, ofTokens rows = .ok m ↔ SameLength rows ∧ BuiltFrom rows m) ∧
    ∀ fault, ofTokens rows = .error fault ↔ Rejected rows fault :=
  ⟨exists_ofTokens_iff, fun _ => ofTokens_eq_ok, fun _ => ofTokens_eq_error⟩

/-- A token that is no number counts before an empty row in front of it. -/
example : ofTokens [[], [" two"]] = .error (.malformedRow 2 " two") := by rfl

end Echelon.Matrix
