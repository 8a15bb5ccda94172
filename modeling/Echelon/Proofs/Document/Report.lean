import Echelon.Proofs.Document.WellFormed
import Echelon.Proofs.Matrix.ReadBack
import Echelon.Report

/-!
# The report loses nothing

A report can be told apart from the left. Its rows of cells, its rows and the entries of the log are
items written one after the other, and each item shows where it ends: a cell at the next space, an
entry at the next backtick, as no cell is shown with a space and no operation is written with a
backtick. So documents have one report only when their shown cells and their logs are the same, and
then their matrices compare as equal.
-/

namespace Echelon.Document

open Text

/-! ## Items told apart from the left -/

section

variable {α : Type}

/-- Items written one after the other, each with its number. -/
def numbered (item : Nat → α → List Char) : Nat → List α → List Char
  | _, [] => []
  | number, a :: as => item number a ++ numbered item (number + 1) as

/-- Items of the given kind show where they end, and none looks like what stops a list of them. -/
structure Separable (item : Nat → α → List Char) (Kind : α → Prop)
    (Stop : List Char → Prop) : Prop where
  inj : ∀ {k a b x y}, Kind a → Kind b → item k a ++ x = item k b ++ y → a = b ∧ x = y
  not_stop : ∀ k a x, ¬ Stop (item k a ++ x)

variable {item : Nat → α → List Char}

theorem Separable.numbered_inj {Kind : α → Prop} {Stop : List Char → Prop}
    (h : Separable item Kind Stop) {as bs : List α} {k : Nat} {x y : List Char}
    (has : ∀ a ∈ as, Kind a) (hbs : ∀ b ∈ bs, Kind b) (hx : Stop x) (hy : Stop y)
    (heq : numbered item k as ++ x = numbered item k bs ++ y) : as = bs ∧ x = y := by
  induction as generalizing bs k with
  | nil =>
    cases bs with
    | nil => exact ⟨rfl, heq⟩
    | cons b bs =>
      rw [numbered, List.nil_append, numbered, List.append_assoc] at heq
      exact absurd (heq ▸ hx) (h.not_stop _ _ _)
  | cons a as ih =>
    obtain ⟨ha, has⟩ := List.forall_mem_cons.mp has
    cases bs with
    | nil =>
      rw [numbered, numbered, List.append_assoc, List.nil_append] at heq
      exact absurd (heq ▸ hy) (h.not_stop _ _ _)
    | cons b bs =>
      obtain ⟨hb, hmore⟩ := List.forall_mem_cons.mp hbs
      rw [numbered, numbered, List.append_assoc, List.append_assoc] at heq
      obtain ⟨hfirst, hrest⟩ := h.inj ha hb heq
      obtain ⟨htail, hend⟩ := ih has hmore hrest
      exact ⟨by rw [hfirst, htail], hend⟩

theorem toList_numbered {shown : α × Nat → String}
    (h : ∀ a k, (shown (a, k)).toList = item k a) (as : List α) (k : Nat) :
    (String.join ((as.zipIdx k).map shown)).toList = numbered item k as := by
  induction as generalizing k with
  | nil => rfl
  | cons a as ih =>
    have hrest := ih (k + 1)
    rw [String.toList_join] at hrest ⊢
    rw [List.zipIdx_cons, List.map_cons, List.flatMap_cons, hrest, h, numbered]

end

/-! ## Tables -/

/-- A cell of a table row, between a space and a bar. -/
def cellItem (_ : Nat) (word : String) : List Char := ' ' :: (word.toList ++ [' ', '|'])

/-- A row of a table, with its number. -/
def rowItem (number : Nat) (row : List String) : List Char :=
  ("| R" ++ number.repr ++ " |").toList ++ (numbered cellItem 1 row ++ ['\n'])

/-- The text goes on with the end of a line. -/
def EndsLine (text : List Char) : Prop := ∃ rest, text = '\n' :: rest

theorem separable_cellItem : Separable cellItem (Word ·.toList) EndsLine := by
  constructor
  · intro k a b x y ha hb h
    have hspace {word : List Char} (hword : Word word) : ' ' ∉ word := by
      intro hmem
      cases hword.not_blank ' ' hmem
    have hcut : a.toList ++ ' ' :: '|' :: x = b.toList ++ ' ' :: '|' :: y := by
      simpa [cellItem] using h
    obtain ⟨hword, hrest⟩ := (append_separator_inj (hspace ha) (hspace hb)).mp hcut
    exact ⟨String.toList_inj.mp hword, (List.cons.inj hrest).2⟩
  · rintro k a x ⟨rest, h⟩
    cases (List.cons.inj h).1

theorem separable_rowItem :
    Separable rowItem (fun row => ∀ word ∈ row, Word word.toList) EndsLine := by
  constructor
  · intro k a b x y ha hb h
    simp only [rowItem, List.append_assoc, List.append_cancel_left_eq] at h
    obtain ⟨hrow, hrest⟩ := separable_cellItem.numbered_inj ha hb ⟨x, rfl⟩ ⟨y, rfl⟩ h
    exact ⟨hrow, (List.cons.inj hrest).2⟩
  · rintro k a x ⟨rest, h⟩
    simp [rowItem] at h

def columnNames (width : Nat) : List String :=
  (List.range width).map fun column => "C" ++ (column + 1).repr

/-- The line between the names of the columns and the rows. -/
def ruleChars (width : Nat) : List Char :=
  (tableLine "|---|" ((List.range width).map fun _ => "---|")).toList

/-- The characters of a table, made of the width and what is shown for the cells. -/
def tableChars (width : Nat) (texts : List (List String)) : List Char :=
  ['|', ' ', ' ', ' ', '|'] ++ (numbered cellItem 1 (columnNames width) ++ '\n' ::
    (ruleChars width ++ numbered rowItem 1 texts))

theorem toList_tableLine (label : String) (row : List String) :
    (tableLine label (row.map fun word => " " ++ word ++ " |")).toList =
      label.toList ++ (numbered cellItem 1 row ++ ['\n']) := by
  have hcells : (String.join (row.map fun word => " " ++ word ++ " |")).toList =
      numbered cellItem 1 row := by
    have hitems : (String.join ((row.zipIdx 1).map ((fun word => " " ++ word ++ " |") ∘
        Prod.fst))).toList = numbered cellItem 1 row :=
      toList_numbered (fun word k => by simp [cellItem]) row 1
    rwa [← List.map_map, List.zipIdx_map_fst] at hitems
  rw [tableLine, String.toList_append, String.toList_append, hcells, List.append_assoc]
  rfl

theorem toList_tableRows (texts : List (List String)) :
    (String.join ((texts.zipIdx 1).map fun place => tableLine ("| R" ++ place.2.repr ++ " |")
      (place.1.map fun word => " " ++ word ++ " |"))).toList = numbered rowItem 1 texts :=
  toList_numbered (by exact fun row _ => toList_tableLine _ row) texts 1

theorem toList_table (m : Matrix) : (table m).toList = tableChars m.width m.texts := by
  have hheader : (List.range m.width).map (fun c => " C" ++ (c + 1).repr ++ " |") =
      (columnNames m.width).map fun word => " " ++ word ++ " |" := by
    simp [columnNames, ← String.append_assoc]
  have hplaces : m.texts.zipIdx 1 = (m.rows.zipIdx 1).map (Prod.map (List.map Cell.text) id) :=
    List.zipIdx_map
  have hrows := toList_tableRows m.texts
  simp only [hplaces, List.map_map, Function.comp_def, Prod.map_fst, Prod.map_snd, id] at hrows
  have hcorner : "|   |".toList = ['|', ' ', ' ', ' ', '|'] := by decide
  simp only [table, hheader, String.toList_append, toList_tableLine, hrows, hcorner, tableChars,
    ruleChars, List.append_assoc]
  rfl

theorem word_columnNames (width : Nat) : ∀ word ∈ columnNames width, Word word.toList := by
  intro word hword
  obtain ⟨column, _, rfl⟩ := List.mem_map.mp hword
  have hdigits : ∀ c ∈ (column + 1).repr.toList, isBlank c = false := by
    intro c hc
    exact Grammar.isBlank_of_isDigit (isDigit_of_mem_repr hc)
  constructor
  · simp
  · have hletter : "C".toList = ['C'] := rfl
    rw [String.toList_append, hletter, List.forall_mem_append, List.forall_mem_singleton]
    exact ⟨by decide, hdigits⟩

theorem columnNames_inj {width other : Nat} (h : columnNames width = columnNames other) :
    width = other := by
  have hlength := congrArg List.length h
  simpa [columnNames] using hlength

theorem tableChars_inj {width other : Nat} {texts others : List (List String)} {x y : List Char}
    (ht : ∀ row ∈ texts, ∀ word ∈ row, Word word.toList)
    (ho : ∀ row ∈ others, ∀ word ∈ row, Word word.toList)
    (h : tableChars width texts ++ '\n' :: x = tableChars other others ++ '\n' :: y) :
    width = other ∧ texts = others ∧ x = y := by
  simp only [tableChars, List.append_assoc, List.cons_append, List.nil_append, List.cons.injEq,
    true_and] at h
  obtain ⟨hnames, hrest⟩ := separable_cellItem.numbered_inj (word_columnNames width)
    (word_columnNames other) ⟨_, rfl⟩ ⟨_, rfl⟩ h
  obtain rfl := columnNames_inj hnames
  simp only [List.cons.injEq, true_and, List.append_cancel_left_eq] at hrest
  obtain ⟨htexts, hend⟩ := separable_rowItem.numbered_inj ht ho ⟨x, rfl⟩ ⟨y, rfl⟩ hrest
  exact ⟨rfl, htexts, (List.cons.inj hend).2⟩

/-! ## Logs -/

/-- An entry of the log, with its number. -/
def entryItem (number : Nat) (text : String) : List Char :=
  (number.repr ++ ". `").toList ++ (text.toList ++ ['\x60', '\n'])

def logText (log : List String) : String :=
  if log.isEmpty then "*None*\n" else operationList log

theorem separable_entryItem : Separable entryItem ('\x60' ∉ ·.toList) (· = []) := by
  constructor
  · intro k a b x y ha hb h
    simp only [entryItem, List.append_assoc, List.append_cancel_left_eq] at h
    obtain ⟨htext, hrest⟩ := (append_separator_inj ha hb).mp h
    exact ⟨String.toList_inj.mp htext, (List.cons.inj hrest).2⟩
  · intro k a x h
    simp [entryItem] at h

theorem toList_operationList (log : List String) :
    (operationList log).toList = numbered entryItem 1 log :=
  toList_numbered (fun text k => by simp [entryItem]) log 1

/-- The mark of an empty log is not the start of a numbered list. -/
theorem logText_cons_ne (entry : String) (log : List String) :
    logText (entry :: log) ≠ logText [] := by
  intro h
  have hfirst : (logText (entry :: log)).toList.head? = some '1' := by
    rw [logText, if_neg (by simp), toList_operationList]
    rfl
  rw [h] at hfirst
  exact absurd hfirst (by decide)

theorem logText_inj {log other : List String} (hl : ∀ entry ∈ log, '\x60' ∉ entry.toList)
    (ho : ∀ entry ∈ other, '\x60' ∉ entry.toList) (h : logText log = logText other) :
    log = other := by
  cases log with
  | nil =>
    cases other with
    | nil => rfl
    | cons entry other => exact absurd h.symm (logText_cons_ne entry other)
  | cons entry log =>
    cases other with
    | nil => exact absurd h (logText_cons_ne entry log)
    | cons another other =>
      have hlist := congrArg String.toList h
      rw [logText, logText, if_neg (by simp), if_neg (by simp), toList_operationList,
        toList_operationList, ← List.append_nil (numbered _ _ _),
        ← List.append_nil (numbered _ _ (another :: other))] at hlist
      exact (separable_entryItem.numbered_inj hl ho rfl rfl hlist).1

/-- What the log holds was read as an operation. -/
theorem Reachable.log_derives {d : Document} (h : Reachable d) :
    ∀ entry ∈ d.log, ∃ op, Grammar.Derives entry.toList op := by
  obtain ⟨calls, rfl⟩ := h
  refine run_induction (P := fun d => ∀ entry ∈ d.log, ∃ op, Grammar.Derives entry.toList op)
    (by simp [empty]) (fun {d e} hd hl => ?_) calls
  cases hl with
  | stay => exact hd
  | clear => simp [empty]
  | start => simp [start]
  | apply ha =>
    obtain ⟨_, op, _, _, hop, _, rfl⟩ := apply_eq_ok.mp ha
    rw [List.forall_mem_append, List.forall_mem_singleton]
    exact ⟨hd, op, Grammar.derives_of_parse hop⟩
  | undo hu =>
    obtain ⟨_, _, _, _, rfl, _⟩ := undo_eq_ok.mp hu
    exact fun entry hentry => hd entry ((List.dropLast_sublist _).subset hentry)

theorem Reachable.backtick_not_mem_log {d : Document} (h : Reachable d) :
    ∀ entry ∈ d.log, '\x60' ∉ entry.toList := by
  intro entry hentry
  obtain ⟨op, hop⟩ := h.log_derives entry hentry
  exact hop.not_mem ⟨by decide, by decide, by decide⟩ (by decide)

/-! ## Reports -/

def matrixText : Option Matrix → String
  | some m => table m
  | none => "*No matrix loaded*\n"

theorem matrixText_inj {a b : Option Matrix} {x y : List Char} (ha : ∀ m ∈ a, m.WellFormed)
    (hb : ∀ m ∈ b, m.WellFormed)
    (h : (matrixText a).toList ++ '\n' :: x = (matrixText b).toList ++ '\n' :: y) :
    Option.Rel Matrix.SameValue a b ∧ x = y := by
  cases a with
  | none =>
    cases b with
    | none => exact ⟨.none, by simpa using h⟩
    | some n => simp [matrixText, toList_table, tableChars] at h
  | some m =>
    cases b with
    | none => simp [matrixText, toList_table, tableChars] at h
    | some n =>
      have hm : m.WellFormed := ha m rfl
      have hn : n.WellFormed := hb n rfl
      simp only [matrixText, toList_table] at h
      obtain ⟨hwidth, htexts, hrest⟩ :=
        tableChars_inj hm.word_of_mem_texts hn.word_of_mem_texts h
      exact ⟨.some ((hm.sameValue_iff hn).mpr ⟨hwidth, htexts⟩), hrest⟩

/-- Matrices that compare as equal make one table. -/
theorem matrixText_eq {a b : Option Matrix} (ha : ∀ m ∈ a, m.WellFormed)
    (hb : ∀ m ∈ b, m.WellFormed) (h : Option.Rel Matrix.SameValue a b) :
    matrixText a = matrixText b := by
  cases h with
  | none => rfl
  | @some m n hsame =>
    obtain ⟨hwidth, htexts⟩ := ((ha m rfl).sameValue_iff (hb n rfl)).mp hsame
    rw [matrixText, matrixText, ← String.toList_inj, toList_table, toList_table, hwidth, htexts]

variable {d e : Document}

theorem Reachable.wellFormed_matrix (h : Reachable d) : ∀ m ∈ d.matrix, m.WellFormed := by
  intro m hm
  exact h.wellFormed.wellFormed m (by simp [matrices, Option.mem_def.mp hm])

theorem Reachable.markdown_eq (h : Reachable d) : d.markdown =
    "# Matrix\n\n" ++ (matrixText d.matrix ++ ("\n## Operations\n\n" ++ logText d.log)) := by
  have htext : (if d.snapshot.isEmpty then "*No matrix loaded*\n" else table d.snapshot) =
      matrixText d.matrix := by
    cases hm : d.matrix with
    | none => simp [snapshot, hm, matrixText, Matrix.isEmpty, Matrix.empty]
    | some m =>
      have hne : m.rows ≠ [] := (h.wellFormed_matrix m hm).rows_ne
      simp [snapshot, hm, matrixText, Matrix.isEmpty, hne]
  rw [markdown, htext, logText, String.append_assoc, String.append_assoc]

/-- **The report loses nothing.** Documents that calls lead to have the same report exactly when
neither has a matrix or both have matrices that compare as equal, and their logs are the same. Such
matrices have one shape and show the same kind of cell at each place, with numbers that differ in
the sign of a zero at most. -/
theorem markdown_eq_iff (hd : Reachable d) (he : Reachable e) :
    d.markdown = e.markdown ↔ Option.Rel Matrix.SameValue d.matrix e.matrix ∧ d.log = e.log := by
  constructor
  · intro h
    rw [hd.markdown_eq, he.markdown_eq, ← String.toList_inj] at h
    have hmark : "\n## Operations\n\n".toList = '\n' :: "## Operations\n\n".toList := by decide
    simp only [String.toList_append, List.append_cancel_left_eq, hmark, List.cons_append] at h
    obtain ⟨hmatrix, hrest⟩ := matrixText_inj hd.wellFormed_matrix he.wellFormed_matrix h
    have hlog : logText d.log = logText e.log :=
      String.toList_inj.mp (List.append_cancel_left hrest)
    exact ⟨hmatrix, logText_inj hd.backtick_not_mem_log he.backtick_not_mem_log hlog⟩
  · rintro ⟨hmatrix, hlog⟩
    rw [hd.markdown_eq, he.markdown_eq, hlog,
      matrixText_eq hd.wellFormed_matrix he.wellFormed_matrix hmatrix]

/-- Two documents that differ in the sign of a zero, after an operation with a line feed in it. -/
theorem markdown_eq_iff_negative_zero : ∃ d e, Reachable d ∧ Reachable e ∧ d.matrix ≠ e.matrix ∧
    d.markdown = "# Matrix\n\n|   | C1 | C2 |\n|---|---|---|\n| R1 | 7/3 | 0 |\n| R2 | 1 | 2 |\n" ++
      "\n## Operations\n\n1. `R1 =\nR1 / 3`\n" ∧
    d.markdown = e.markdown ∧ Option.Rel Matrix.SameValue d.matrix e.matrix ∧ d.log = e.log := by
  let division : Call := .apply "R1 =\nR1 / 3 "
  let d := Document.empty.run [.setText "7 -0\n1 2", division]
  let e := Document.empty.run [.setText "7 0\n1 2", division]
  have hd : Reachable d := ⟨_, rfl⟩
  have he : Reachable e := ⟨_, rfl⟩
  have hreport : d.markdown = e.markdown := by decide +kernel
  obtain ⟨hmatrix, hlog⟩ := (markdown_eq_iff hd he).mp hreport
  exact ⟨d, e, hd, he, by decide +kernel, by decide +kernel, hreport, hmatrix, hlog⟩

end Echelon.Document
