import Echelon.Proofs.Document.Report
import Echelon.Proofs.Screen.Log

/-!
# The lines of a report

A report is a list of items with a line feed after each: headings, the lines of the table, and the
entries of the log with their numbers. The parts of a table hold no line feed, so it has one line
for each row, and all its lines have the same number of bars. An entry is written as it was logged:
it is one line when it holds no line feed, and each line feed in it starts another line. On the
screen an entry takes one line in any case, without its line feeds.
-/

namespace Echelon.Document

open Text Echelon.Matrix

/-! ## Items and lines -/

/-- The lines that a text is cut into at its line feeds. -/
def cut (text : String) : List String := (text.toList.splitOn '\n').map String.ofList

/-- Items with a line feed after each. -/
def lined (items : List String) : String := String.join (items.map (· ++ "\n"))

theorem cut_of_not_mem {text : String} (h : '\n' ∉ text.toList) : cut text = [text] := by
  rw [cut, List.splitOn_eq_singleton h, List.map_singleton, String.ofList_toList]

theorem flatMap_cut {items : List String} (h : ∀ item ∈ items, '\n' ∉ item.toList) :
    items.flatMap cut = items := by
  induction items with
  | nil => rfl
  | cons item items ih =>
    obtain ⟨hitem, hitems⟩ := List.forall_mem_cons.mp h
    rw [List.flatMap_cons, cut_of_not_mem hitem, ih hitems, List.singleton_append]

theorem length_splitOn (text : List Char) :
    (text.splitOn '\n').length = text.count '\n' + 1 := by
  induction text using line_induction with
  | last line h => rw [List.splitOn_eq_singleton h, List.count_eq_zero.mpr h, List.length_singleton]
  | cons line rest h ih =>
    rw [List.splitOn_append_cons_self_of_not_mem h, List.length_cons, ih, List.count_append,
      List.count_eq_zero.mpr h, List.count_cons_self, Nat.zero_add]

/-- An item has a line more than line feeds. -/
theorem length_cut (text : String) : (cut text).length = text.toList.count '\n' + 1 := by
  rw [cut, List.length_map, length_splitOn]

theorem toList_lined_cons (item : String) (items : List String) :
    (lined (item :: items)).toList = item.toList ++ '\n' :: (lined items).toList := by
  simp [lined, String.toList_join]

theorem lined_append (items more : List String) :
    lined (items ++ more) = lined items ++ lined more := by
  simp [lined]

theorem hasLines_lined (items : List String) : HasLines (lined items) (items.flatMap cut) := by
  induction items with
  | nil => rfl
  | cons item items ih =>
    rw [HasLines] at ih ⊢
    rw [toList_lined_cons, List.splitOn_append_cons_self, ih, List.flatMap_cons, List.map_append,
      List.append_assoc, cut, List.map_map]
    simp

/-! ## The items of a report -/

/-- A line of a table: its first part and the others, each of which ends with a bar. -/
def tableRow (first : String) (rest : List String) : String := first ++ String.join rest

/-- The lines of a table: the names of the columns, the rule, and the rows. -/
def tableRows (m : Matrix) : List String :=
  tableRow "|   |" ((List.range m.width).map fun c => " C" ++ (c + 1).repr ++ " |") ::
    tableRow "|---|" ((List.range m.width).map fun _ => "---|") ::
    (m.rows.zipIdx 1).map fun (row, number) =>
      tableRow ("| R" ++ number.repr ++ " |") (row.map fun cell => " " ++ cell.text ++ " |")

/-- The entries of a log, each in backticks after its number. -/
def entries (log : List String) : List String :=
  (log.zipIdx 1).map fun (text, number) => number.repr ++ ". `" ++ text ++ "`"

theorem table_eq (m : Matrix) : table m = lined (tableRows m) := by
  simp [table, lined, tableRows, tableRow, tableLine, Function.comp_def, String.append_assoc]

theorem operationList_eq (log : List String) : operationList log = lined (entries log) := by
  simp [operationList, lined, entries, Function.comp_def, String.append_assoc]

/-- The items of a report on a matrix with a log. -/
def reportItems (m : Matrix) (log : List String) : List String :=
  ["# Matrix", ""] ++ (tableRows m ++ (["", "## Operations", ""] ++ entries log))

theorem markdown_eq_lined {d : Document} {m : Matrix} (h : Reachable d) (hm : d.matrix = some m)
    (hlog : d.log ≠ []) : d.markdown = lined (reportItems m d.log) := by
  have hmark : lined ["", "## Operations", ""] = "\n## Operations\n\n" := by decide
  have htitle : lined ["# Matrix", ""] = "# Matrix\n\n" := by decide
  rw [h.markdown_eq, hm, matrixText, logText, if_neg (by simpa using hlog), table_eq,
    operationList_eq, reportItems, lined_append, lined_append, lined_append, hmark, htitle]

/-! ## Bars -/

/-- A piece of a line with so many bars. -/
structure Barred (piece : String) (bars : Nat) : Prop where
  count_eq : piece.toList.count '|' = bars
  newline_not_mem : '\n' ∉ piece.toList

theorem barred_zero {piece : String} (hbar : '|' ∉ piece.toList) (hline : '\n' ∉ piece.toList) :
    Barred piece 0 :=
  ⟨List.count_eq_zero.mpr hbar, hline⟩

theorem barred_number (number : Nat) : Barred number.repr 0 :=
  barred_zero (not_mem_repr (by decide) number) (not_mem_repr (by decide) number)

theorem barred_text {cell : Cell} (h : cell.Proper) : Barred cell.text 0 :=
  barred_zero (h.not_mem_text (by decide) (by decide)) (h.not_mem_text (by decide) (by decide))

theorem Barred.append {a b : String} {i j : Nat} (ha : Barred a i) (hb : Barred b j) :
    Barred (a ++ b) (i + j) := by
  constructor
  · rw [String.toList_append, List.count_append, ha.count_eq, hb.count_eq]
  · rw [String.toList_append, List.mem_append, not_or]
    exact ⟨ha.newline_not_mem, hb.newline_not_mem⟩

theorem barred_tableRow {first : String} {rest : List String} {bars : Nat}
    (hfirst : Barred first bars) (hrest : ∀ part ∈ rest, Barred part 1) :
    Barred (tableRow first rest) (bars + rest.length) := by
  induction rest generalizing first bars with
  | nil => simpa [tableRow] using hfirst
  | cons part rest ih =>
    obtain ⟨hpart, hrest⟩ := List.forall_mem_cons.mp hrest
    have hmore := ih (hfirst.append hpart) hrest
    rw [List.length_cons, Nat.add_comm rest.length, ← Nat.add_assoc]
    simpa [tableRow, String.append_assoc] using hmore

/-- What is shown in a column, after its blank or mark. -/
theorem barred_part {mark word : String} (hmark : Barred mark 0) (hword : Barred word 0) :
    Barred (mark ++ word ++ " |") 1 := by
  have hend : Barred " |" 1 := ⟨by decide, by decide⟩
  simpa using (hmark.append hword).append hend

theorem barred_header (width : Nat) : Barred
    (tableRow "|   |" ((List.range width).map fun c => " C" ++ (c + 1).repr ++ " |"))
    (2 + width) := by
  have hcorner : Barred "|   |" 2 := ⟨by decide, by decide⟩
  have hnames : ∀ part ∈ (List.range width).map fun c => " C" ++ (c + 1).repr ++ " |",
      Barred part 1 := by
    intro part hpart
    obtain ⟨c, _, rfl⟩ := List.mem_map.mp hpart
    exact barred_part ⟨by decide, by decide⟩ (barred_number (c + 1))
  simpa using barred_tableRow hcorner hnames

theorem barred_rule (width : Nat) :
    Barred (tableRow "|---|" ((List.range width).map fun _ => "---|")) (2 + width) := by
  have hcorner : Barred "|---|" 2 := ⟨by decide, by decide⟩
  have hrule : ∀ part ∈ (List.range width).map fun _ => "---|", Barred part 1 := by
    intro part hpart
    obtain ⟨_, _, rfl⟩ := List.mem_map.mp hpart
    exact ⟨by decide, by decide⟩
  simpa using barred_tableRow hcorner hrule

theorem barred_row (number : Nat) {row : List Cell} (h : ∀ cell ∈ row, cell.Proper) : Barred
    (tableRow ("| R" ++ number.repr ++ " |") (row.map fun cell => " " ++ cell.text ++ " |"))
    (2 + row.length) := by
  have hlabel : Barred ("| R" ++ number.repr ++ " |") 2 := by
    have hmark : Barred "| R" 1 := ⟨by decide, by decide⟩
    have hend : Barred " |" 1 := ⟨by decide, by decide⟩
    exact (hmark.append (barred_number number)).append hend
  have hcells : ∀ part ∈ row.map fun cell => " " ++ cell.text ++ " |", Barred part 1 := by
    intro part hpart
    obtain ⟨cell, hcell, rfl⟩ := List.mem_map.mp hpart
    exact barred_part ⟨by decide, by decide⟩ (barred_text (h cell hcell))
  simpa using barred_tableRow hlabel hcells

/-- Each line of a table has a bar at its start, one after the numbers of the rows, and one after
each column. -/
theorem barred_tableRows {m : Matrix} (h : m.WellFormed) :
    ∀ line ∈ tableRows m, Barred line (2 + m.width) := by
  rw [tableRows, List.forall_mem_cons, List.forall_mem_cons]
  refine ⟨barred_header m.width, barred_rule m.width, fun line hline => ?_⟩
  obtain ⟨⟨row, number⟩, hplace, rfl⟩ := List.mem_map.mp hline
  have hrow : row ∈ m.rows := List.fst_mem_of_mem_zipIdx hplace
  have hcells := barred_row number (h.proper row hrow)
  rwa [h.length_eq row hrow] at hcells

theorem length_tableRows (m : Matrix) : (tableRows m).length = m.height + 2 := by
  simp [tableRows, height]

/-! ## The log -/

theorem length_entries (log : List String) : (entries log).length = log.length := by
  simp [entries]

/-- Entries are written with the line feeds that were logged. -/
theorem count_entries (log : List String) :
    ((entries log).flatMap String.toList).count '\n' = (log.flatMap String.toList).count '\n' := by
  have hentry (text : String) (number : Nat) :
      (number.repr ++ ". `" ++ text ++ "`").toList.count '\n' = text.toList.count '\n' := by
    simp only [String.toList_append, List.count_append,
      List.count_eq_zero.mpr (barred_number number).newline_not_mem]
    simp
  have hmap : (entries log).map (·.toList.count '\n') = log.map (·.toList.count '\n') := by
    calc (entries log).map (·.toList.count '\n')
        = ((log.zipIdx 1).map Prod.fst).map (·.toList.count '\n') := by
          rw [entries, List.map_map, List.map_map]
          refine List.map_congr_left fun ⟨text, number⟩ _ => ?_
          rw [Function.comp_apply, Function.comp_apply, hentry]
      _ = log.map (·.toList.count '\n') := by rw [List.zipIdx_map_fst]
  rw [List.count_flatMap, List.count_flatMap]
  exact congrArg List.sum hmap

theorem length_flatMap_cut (items : List String) : (items.flatMap cut).length =
    items.length + (items.flatMap String.toList).count '\n' := by
  induction items with
  | nil => rfl
  | cons item items ih =>
    rw [List.flatMap_cons, List.length_append, length_cut, ih, List.length_cons, List.flatMap_cons,
      List.count_append]
    omega

theorem flatMap_cut_eq_iff {items : List String} :
    items.flatMap cut = items ↔ (items.flatMap String.toList).count '\n' = 0 := by
  constructor
  · intro h
    have hlength := length_flatMap_cut items
    rw [h] at hlength
    omega
  · intro h
    rw [List.count_eq_zero, List.mem_flatMap] at h
    exact flatMap_cut fun item hitem hline => h ⟨item, hitem, hline⟩

/-! ## Reports -/

/-- The lines of a report on a matrix with a log. -/
def reportLines (m : Matrix) (log : List String) : List String :=
  ["# Matrix", ""] ++ (tableRows m ++ (["", "## Operations", ""] ++ (entries log).flatMap cut))

theorem flatMap_cut_reportItems {m : Matrix} (h : m.WellFormed) (log : List String) :
    (reportItems m log).flatMap cut = reportLines m log := by
  have htitle : ["# Matrix", ""].flatMap cut = ["# Matrix", ""] := by decide
  have hmark : ["", "## Operations", ""].flatMap cut = ["", "## Operations", ""] := by decide
  have htable : (tableRows m).flatMap cut = tableRows m :=
    flatMap_cut fun line hline => (barred_tableRows h line hline).newline_not_mem
  rw [reportItems, List.flatMap_append, List.flatMap_append, List.flatMap_append, htitle, htable,
    hmark, reportLines]

/-- **A report has a line for each row and each operation, and one more for each line feed in an
operation.** Its lines are the headings, those of the table, with two bars more than columns on
each, and the numbered entries of the log as they were logged. So each operation is one line of the
report exactly when each was given on one line. -/
theorem report_lines {d : Document} {m : Matrix} (h : Reachable d) (hm : d.matrix = some m)
    (hlog : d.log ≠ []) :
    HasLines d.markdown (reportLines m d.log) ∧
    (reportLines m d.log).length =
      m.height + d.log.length + 7 + (d.log.flatMap String.toList).count '\n' ∧
    (∀ line ∈ tableRows m, line.toList.count '|' = m.width + 2) ∧
    (reportLines m d.log = reportItems m d.log ↔ ∀ text ∈ d.log, '\n' ∉ text.toList) := by
  have hwell : m.WellFormed := h.wellFormed_matrix m hm
  refine ⟨?_, ?_, fun line hline => ?_, ?_⟩
  · rw [markdown_eq_lined h hm hlog, ← flatMap_cut_reportItems hwell]
    exact hasLines_lined (reportItems m d.log)
  · have hentries := length_flatMap_cut (entries d.log)
    rw [length_entries, count_entries] at hentries
    simp only [reportLines, List.length_append, length_tableRows, hentries, List.length_cons,
      List.length_nil]
    omega
  · rw [(barred_tableRows hwell line hline).count_eq, Nat.add_comm]
  · rw [reportLines, reportItems, List.append_cancel_left_eq, List.append_cancel_left_eq,
      List.append_cancel_left_eq, flatMap_cut_eq_iff, count_entries, List.count_eq_zero,
      List.mem_flatMap]
    simp only [not_exists, not_and]

/-- A run that leaves a fraction, and whose first operation was given on two lines. -/
theorem report_lines_two_lines : ∃ d m, Reachable d ∧ d.matrix = some m ∧ m.height = 2 ∧
    d.log = ["R2 = R2\n- 2R1", "R1 = R1 / 3"] ∧ HasLines d.markdown (reportLines m d.log) ∧
    reportLines m d.log = ["# Matrix", "", "|   | C1 | C2 |", "|---|---|---|", "| R1 | 1/3 | 2/3 |",
      "| R2 | 1 | 0 |", "", "## Operations", "", "1. `R2 = R2", "- 2R1`", "2. `R1 = R1 / 3`"] := by
  let calls : List Call := [.setText "1 2\n3 4", .apply " R2 = R2\n- 2R1", .apply "R1 = R1 / 3"]
  let d := Document.empty.run calls
  have hd : Reachable d := ⟨calls, rfl⟩
  obtain ⟨hm, hheight, hlog, hreport⟩ : d.matrix = some d.snapshot ∧ d.snapshot.height = 2 ∧
      d.log = ["R2 = R2\n- 2R1", "R1 = R1 / 3"] ∧ reportLines d.snapshot d.log = ["# Matrix", "",
        "|   | C1 | C2 |", "|---|---|---|", "| R1 | 1/3 | 2/3 |", "| R2 | 1 | 0 |", "",
        "## Operations", "", "1. `R2 = R2", "- 2R1`", "2. `R1 = R1 / 3`"] := by
    decide +kernel
  obtain ⟨hlines, _, _, _⟩ := report_lines hd hm (by simp [hlog])
  exact ⟨d, d.snapshot, hd, hm, hheight, hlog, hlines, hreport⟩

/-- An operation given on two lines is two lines of the report. -/
theorem operation_on_two_lines : ∃ d m, Reachable d ∧ d.matrix = some m ∧ m.height = 2 ∧
    d.log = ["R1 = R1\n- 2R2"] ∧
    ¬ ∃ lines, HasLines d.markdown lines ∧ lines.length = m.height + d.log.length + 7 := by
  let calls : List Call := [.setText "1 2\n3 4", .apply "R1 = R1\n- 2R2"]
  let d := Document.empty.run calls
  obtain ⟨hm, hheight, hlog, hcount⟩ : d.matrix = some d.snapshot ∧ d.snapshot.height = 2 ∧
      d.log = ["R1 = R1\n- 2R2"] ∧ (d.markdown.toList.splitOn '\n').length = 12 := by
    decide +kernel
  refine ⟨d, d.snapshot, ⟨calls, rfl⟩, hm, hheight, hlog, ?_⟩
  rintro ⟨lines, hlines, hlength⟩
  rw [hlines, List.length_append, List.length_map, List.length_singleton] at hcount
  rw [hheight, hlog, List.length_singleton] at hlength
  omega

/-! ## Entries on the screen -/

open Workbench in
/-- The line of an entry shows its characters without the line feeds among them. -/
theorem symbols_entryLine_of_return_not_mem {text : String} (h : '\r' ∉ text.toList)
    (number : Nat) : (entryLine (text, number)).map Glyph.symbol =
      (entryNumber number ++ ". ".toList ++ text.toList.filter (· ≠ '\n')).map Char.toString := by
  rw [entryLine, List.map_append, symbols_paint, symbols_paint,
    symbols_of_not_mem (newline_not_mem_label number), symbols_of_return_not_mem h,
    ← List.map_append]

/-- An operation given on two lines is one line of the log. -/
example : (Workbench.entryLine ("R1 = R1\n- 2R2", 1)).map Glyph.symbol =
    " 1. R1 = R1- 2R2".toList.map Char.toString := by decide +kernel

end Echelon.Document
