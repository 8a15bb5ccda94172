import Echelon.Matrix.Grid
import Echelon.Proofs.Text.Runs
import Mathlib.Data.List.Forall2

/-!
# The tokens of a matrix text

A matrix text is trimmed, cut into lines, and each line is trimmed again before it is cut into
words. None of this loses or joins a token: the rows are, line by line, the maximal runs of
characters that are no blanks, where only a line feed ends a line. However tokens are laid out,
with blanks between them and with line feeds among the blanks between rows, they are read back.
-/

namespace Echelon.Matrix

open Text

/-! ## Lines -/

/-- The words of each line of a text that has one. -/
def lineWords (text : List Char) : List (List (List Char)) :=
  ((text.splitOn '\n').map words).filter fun row => !row.isEmpty

/-- Every text is a last line, or a line in front of a text. -/
theorem line_induction {P : List Char → Prop} (last : ∀ line, '\n' ∉ line → P line)
    (cons : ∀ line rest, '\n' ∉ line → P rest → P (line ++ '\n' :: rest)) (text : List Char) :
    P text := by
  induction hn : text.length using Nat.strong_induction_on generalizing text with
  | _ n ih =>
    by_cases h : '\n' ∈ text
    · obtain ⟨line, rest, rfl, hline⟩ := List.eq_append_cons_of_mem h
      have hlt : rest.length < n := by
        rw [← hn, List.length_append, List.length_cons]
        omega
      exact cons line rest hline (ih rest.length hlt rest rfl)
    · exact last text h

theorem lineWords_append (a b : List Char) :
    lineWords (a ++ '\n' :: b) = lineWords a ++ lineWords b := by
  rw [lineWords, List.splitOn_append_cons_self, List.map_append, List.filter_append]
  rfl

/-- The words of one line count only if there are some. -/
theorem lineWords_line {line : List Char} (h : '\n' ∉ line) :
    lineWords line = [words line].filter fun row => !row.isEmpty := by
  rw [lineWords, List.splitOn_eq_singleton h]
  rfl

theorem lineWords_cons_blank {c : Char} (hc : isBlank c = true) (text : List Char) :
    lineWords (c :: text) = lineWords text := by
  by_cases hn : c = '\n'
  · subst hn
    exact lineWords_append [] text
  · have hline {line : List Char} (h : '\n' ∉ line) : lineWords (c :: line) = lineWords line := by
      rw [lineWords_line h, lineWords_line (by simp [h, Ne.symm hn]), words_cons_blank hc]
    induction text using line_induction with
    | last line h => exact hline h
    | cons line rest h _ => rw [← List.cons_append, lineWords_append, lineWords_append, hline h]

theorem lineWords_blanks_append {run : List Char} (h : Blanks run) (text : List Char) :
    lineWords (run ++ text) = lineWords text := by
  induction run with
  | nil => rfl
  | cons c run ih =>
    obtain ⟨hc, hrun⟩ := List.forall_mem_cons.mp h
    rw [List.cons_append, lineWords_cons_blank hc, ih hrun]

theorem lineWords_eq_nil_iff {text : List Char} : lineWords text = [] ↔ Blanks text := by
  constructor
  · intro h
    induction text using line_induction with
    | last line hline =>
      rw [lineWords_line hline] at h
      exact words_eq_nil_iff.mp (by simpa using h)
    | cons line rest hline ih =>
      rw [lineWords_append, List.append_eq_nil_iff, lineWords_line hline] at h
      have hblanks : Blanks line := words_eq_nil_iff.mp (by simpa using h.1)
      exact hblanks.append ((ih h.2).cons (by decide))
  · intro h
    have hnone := lineWords_blanks_append h []
    rwa [List.append_nil] at hnone

theorem lineWords_append_blanks {run : List Char} (h : Blanks run) (text : List Char) :
    lineWords (text ++ run) = lineWords text := by
  have hline {line blanks : List Char} (hline : '\n' ∉ line) (hn : '\n' ∉ blanks)
      (hblanks : Blanks blanks) : lineWords (line ++ blanks) = lineWords line := by
    rw [lineWords_line hline, lineWords_line (by simp [hline, hn]), words_append_blanks hblanks]
  induction text using line_induction with
  | last line hlast =>
    by_cases hn : '\n' ∈ run
    · obtain ⟨first, rest, rfl, hfirst⟩ := List.eq_append_cons_of_mem hn
      obtain ⟨hblanks, hrest⟩ := List.forall_mem_append.mp h
      have hnone := lineWords_eq_nil_iff.mpr (List.forall_mem_cons.mp hrest).2
      rw [← List.append_assoc, lineWords_append, hline hlast hfirst hblanks, hnone]
      exact List.append_nil _
    · exact hline hlast hn h
  | cons line rest _ ih =>
    rw [List.append_assoc, List.cons_append, lineWords_append, ih, lineWords_append]

theorem lineWords_trim (text : List Char) : lineWords (trim text) = lineWords text := by
  obtain ⟨before, after, hbefore, hafter, htext⟩ := exists_blanks_trim text
  calc lineWords (trim text) = lineWords (before ++ (trim text ++ after)) := by
        rw [lineWords_blanks_append hbefore, lineWords_append_blanks hafter]
    _ = lineWords text := by rw [← htext]

/-! ## What trimming and line ends take away -/

theorem words_dropReturn (line : List Char) : words (dropReturn line) = words line := by
  unfold dropReturn
  split
  · rename_i hlast
    have hline : line.dropLast ++ ['\r'] = line := List.dropLast_append_getLast? _ hlast
    rw [← words_append_blanks (show Blanks ['\r'] by decide) line.dropLast, hline]
  · rfl

theorem lineWords_lines (text : List Char) :
    ((lines text).map words).filter (fun row => !row.isEmpty) = lineWords text := by
  rcases List.eq_nil_or_concat (text.splitOn '\n') with hnil | ⟨init, last, hpieces⟩
  · exact absurd hnil (List.splitOn_ne_nil _ _)
  · have hdropped : words ∘ dropReturn = words := funext words_dropReturn
    simp only [lines, lineWords, hpieces, List.concat_eq_append, List.getLast?_concat,
      List.dropLast_concat, Option.getD_some, List.map_append, List.map_map, hdropped]
    cases last with
    | nil => simp [words]
    | cons c last => rfl

/-- Trimming a line leaves its words, and nothing at all if it has none. -/
theorem isEmpty_trim (line : List Char) : (trim line).isEmpty = (words line).isEmpty := by
  rw [Bool.eq_iff_iff, List.isEmpty_iff, List.isEmpty_iff, trim_eq_nil_iff, words_eq_nil_iff]

theorem tokenRows_eq (text : String) :
    tokenRows text = (lineWords text.toList).map fun row => row.map String.ofList := by
  have hwords : (fun line => (words line).map String.ofList) ∘ trim =
      (fun row => row.map String.ofList) ∘ words := by
    funext line
    rw [Function.comp_apply, Function.comp_apply, words_trim]
  have hempty : (fun line : List Char => !line.isEmpty) ∘ trim =
      (fun row : List (List Char) => !row.isEmpty) ∘ words := by
    funext line
    rw [Function.comp_apply, Function.comp_apply, isEmpty_trim]
  rw [tokenRows, ← lineWords_trim, ← lineWords_lines]
  simp only [List.filter_map, List.map_map, hwords, hempty]

/-! ## Rows -/

/-- The rows that stand in a text. Only a line feed ends a line, and each line with a character that
is no blank is a row, with the maximal runs of such characters as its tokens. -/
def HasRows (text : String) (rows : List (List String)) : Prop :=
  ∃ lines : List (List Char), lines ≠ [] ∧ (∀ line ∈ lines, '\n' ∉ line) ∧
    ['\n'].intercalate lines = text.toList ∧
    List.Forall₂ (fun line row => Runs line (row.map String.toList))
      (lines.filter (¬ Blanks ·)) rows

variable {text : String} {rows : List (List String)}

theorem newline_not_mem_of_mem_splitOn {text line : List Char} (h : line ∈ text.splitOn '\n') :
    '\n' ∉ line := by
  induction text using line_induction with
  | last last hlast =>
    rw [List.splitOn_eq_singleton hlast, List.mem_singleton] at h
    exact h ▸ hlast
  | cons first rest hfirst ih =>
    rw [List.splitOn_append_cons_self_of_not_mem hfirst] at h
    rcases List.mem_cons.mp h with rfl | hrest
    · exact hfirst
    · exact ih hrest

theorem map_words_filter (lines : List (List Char)) :
    (lines.filter (¬ Blanks ·)).map words = (lines.map words).filter fun row => !row.isEmpty := by
  have hblank : (fun row : List (List Char) => !row.isEmpty) ∘ words =
      fun line => decide (¬ Blanks line) := by
    funext line
    rw [Function.comp_apply, Bool.eq_iff_iff, decide_eq_true_iff, Bool.not_eq_true',
      Bool.eq_false_iff, ne_eq, List.isEmpty_iff, words_eq_nil_iff]
  rw [List.filter_map, hblank]

theorem tokenRows_eq_iff :
    tokenRows text = rows ↔ lineWords text.toList = rows.map fun row => row.map String.toList := by
  rw [tokenRows_eq]
  constructor
  · rintro rfl
    simp [List.map_map, Function.comp_def]
  · intro h
    rw [h]
    simp [List.map_map, Function.comp_def]

/-- **The rows that are cut out of a text are those that stand in it.** -/
theorem hasRows_iff : HasRows text rows ↔ tokenRows text = rows := by
  have hruns (lines : List (List Char)) :
      List.Forall₂ (fun line row => Runs line (row.map String.toList)) lines rows ↔
        lines.map words = rows.map fun row => row.map String.toList := by
    have hcut := List.forall₂_map_left_iff (R := fun a row => a = row.map String.toList)
      (f := words) (l := lines) (u := rows)
    simp only [← words_eq_iff]
    rw [← hcut, ← List.forall₂_map_right_iff, List.forall₂_eq_eq_eq]
  rw [tokenRows_eq_iff, lineWords]
  constructor
  · rintro ⟨lines, hne, hline, htext, hrows⟩
    rw [← htext, List.splitOn_intercalate _ hline hne, ← map_words_filter]
    exact (hruns _).mp hrows
  · intro h
    rw [← map_words_filter, ← hruns] at h
    exact ⟨_, List.splitOn_ne_nil _ _, fun line => newline_not_mem_of_mem_splitOn,
      List.intercalate_splitOn _, h⟩

/-! ## Layouts -/

/-- Tokens on one line. Blanks stand between neighbours, and none of these is a line feed. -/
inductive OnLine : List String → List Char → Prop where
  | last {token : String} : Word token.toList → OnLine [token] token.toList
  | cons {token : String} {row : List String} {gap rest : List Char} : Word token.toList →
      Blanks gap → gap ≠ [] → '\n' ∉ gap → OnLine row rest →
      OnLine (token :: row) (token.toList ++ (gap ++ rest))

/-- Rows on lines of their own. A line feed is among the blanks between neighbours: these are the
blanks at the end of the line, any number of blank lines, and the blanks in front of the next. -/
inductive LaidOut : List (List String) → List Char → Prop where
  | last {row : List String} {line : List Char} : OnLine row line → LaidOut [row] line
  | cons {row : List String} {rows : List (List String)} {line gap rest : List Char} :
      OnLine row line → Blanks gap → '\n' ∈ gap → LaidOut rows rest →
      LaidOut (row :: rows) (line ++ (gap ++ rest))

theorem OnLine.words_eq {row : List String} {line : List Char} (h : OnLine row line) :
    words line = row.map String.toList := by
  induction h with
  | last hword => exact hword.words
  | @cons token row gap rest hword hgap hne _ _ ih =>
    obtain ⟨c, gap, rfl⟩ := List.exists_cons_of_ne_nil hne
    obtain ⟨hc, hgap⟩ := List.forall_mem_cons.mp hgap
    rw [List.cons_append, words_append hword hc, Blanks.words_append hgap, ih, List.map_cons]

theorem OnLine.newline_not_mem {row : List String} {line : List Char} (h : OnLine row line) :
    '\n' ∉ line := by
  have hword {token : List Char} (h : Word token) : '\n' ∉ token := fun hmem => by
    cases h.not_blank _ hmem
  induction h with
  | last htoken => exact hword htoken
  | cons htoken _ _ hgap _ ih => simp [hword htoken, hgap, ih]

theorem OnLine.lineWords_eq {row : List String} {line : List Char} (h : OnLine row line) :
    lineWords line = [row.map String.toList] := by
  have hne : row ≠ [] := by
    cases h with
    | last _ => exact List.cons_ne_nil _ _
    | cons _ _ _ _ _ => exact List.cons_ne_nil _ _
  rw [lineWords_line h.newline_not_mem, h.words_eq, List.filter_cons_of_pos (by simpa using hne)]
  rfl

theorem LaidOut.lineWords_eq {body : List Char} (h : LaidOut rows body) :
    lineWords body = rows.map fun row => row.map String.toList := by
  induction h with
  | last hline => exact hline.lineWords_eq
  | @cons row rows line gap rest hline hgap hn _ ih =>
    obtain ⟨first, more, rfl, _⟩ := List.eq_append_cons_of_mem hn
    obtain ⟨hfirst, hmore⟩ := List.forall_mem_append.mp hgap
    have hsplit : line ++ (first ++ '\n' :: more ++ rest) =
        (line ++ first) ++ '\n' :: (more ++ rest) := by simp
    rw [hsplit, lineWords_append, lineWords_append_blanks hfirst, hline.lineWords_eq,
      lineWords_blanks_append (List.forall_mem_cons.mp hmore).2, ih]
    rfl

/-! ## Cutting a text -/

theorem splitText_eq_ok : splitText text = .ok rows ↔ rows ≠ [] ∧ HasRows text rows := by
  rw [hasRows_iff, splitText]
  split
  · rename_i hempty
    constructor
    · intro h
      cases h
    · rintro ⟨hne, rfl⟩
      exact absurd (List.isEmpty_iff.mp hempty) hne
  · rename_i hempty
    constructor
    · intro h
      cases h
      exact ⟨fun hnil => hempty (List.isEmpty_iff.mpr hnil), rfl⟩
    · rintro ⟨_, rfl⟩
      rfl

theorem splitText_eq_error {fault : Fault} :
    splitText text = .error fault ↔ fault = .emptyMatrix ∧ Blanks text.toList := by
  have hblank : tokenRows text = [] ↔ Blanks text.toList := by
    rw [tokenRows_eq_iff, List.map_nil, lineWords_eq_nil_iff]
  rw [splitText, ← hblank]
  split
  · rename_i hempty
    simp [List.isEmpty_iff.mp hempty, eq_comm]
  · rename_i hempty
    simp [← List.isEmpty_iff, hempty]

theorem word_of_mem_tokenRows :
    ∀ row ∈ tokenRows text, row ≠ [] ∧ ∀ token ∈ row, Word token.toList := by
  intro row hrow
  rw [tokenRows_eq] at hrow
  obtain ⟨run, hrun, rfl⟩ := List.mem_map.mp hrow
  obtain ⟨hmem, hne⟩ := List.mem_filter.mp hrun
  obtain ⟨line, _, rfl⟩ := List.mem_map.mp hmem
  refine ⟨by simpa using hne, ?_⟩
  simpa using (words_eq_iff.mp rfl).word_of_mem

/-- **Matrix text is cut exactly into its tokens.** A text is refused, as an empty matrix, exactly
when it has nothing but blanks. Otherwise its rows are those that stand in it: the lines with a
character that is no blank, and on each of them the maximal runs of such characters. So no row and
no token is empty, and no token has a blank in it. And however tokens are laid out in rows, with
blanks around and between them, the text is cut into these rows again. -/
theorem text_tokenised :
    (∀ text fault, splitText text = .error fault ↔ fault = .emptyMatrix ∧ Blanks text.toList) ∧
    (∀ text rows, splitText text = .ok rows ↔ rows ≠ [] ∧ HasRows text rows) ∧
    (∀ text rows, splitText text = .ok rows →
      ∀ row ∈ rows, row ≠ [] ∧ ∀ token ∈ row, Word token.toList) ∧
    ∀ rows before body after, LaidOut rows body → Blanks before → Blanks after →
      splitText (String.ofList (before ++ (body ++ after))) = .ok rows := by
  refine ⟨fun _ _ => splitText_eq_error, fun _ _ => splitText_eq_ok, fun text rows h => ?_,
    fun rows before body after hbody hbefore hafter => ?_⟩
  · obtain ⟨_, hrows⟩ := splitText_eq_ok.mp h
    rw [← hasRows_iff.mp hrows]
    exact word_of_mem_tokenRows
  · have hne : rows ≠ [] := by
      cases hbody with
      | last _ => exact List.cons_ne_nil _ _
      | cons _ _ _ _ => exact List.cons_ne_nil _ _
    refine splitText_eq_ok.mpr ⟨hne, hasRows_iff.mpr (tokenRows_eq_iff.mpr ?_)⟩
    rw [String.toList_ofList, lineWords_blanks_append hbefore, lineWords_append_blanks hafter,
      hbody.lineWords_eq]

/-- Of the separators in this text, vertical tabs, form feeds, next lines and line separators end no
line, and a line feed does with or without a carriage return. -/
theorem text_tokenised_separators : ∃ (rows : List (List String)) (before body after : List Char)
    (text : String), LaidOut rows body ∧ Blanks before ∧ Blanks after ∧
    String.ofList (before ++ (body ++ after)) = text ∧
    text = "\u0085 1\u2028-2\x0b\r\n\u3000\n\t3\x0c4\r\n" ∧ rows = [["1", "-2"], ["3", "4"]] ∧
    splitText text = .ok rows ∧ HasRows text rows ∧
    ∀ row ∈ rows, row ≠ [] ∧ ∀ token ∈ row, Word token.toList := by
  let rows := [["1", "-2"], ["3", "4"]]
  let before := "\u0085 ".toList
  let gap := "\x0b\r\n\u3000\n\t".toList
  let after := "\r\n".toList
  have hone : Word "1".toList := by decide
  have htwo : Word "-2".toList := by decide
  have hthree : Word "3".toList := by decide
  have hfour : Word "4".toList := by decide
  have hfirst : OnLine ["1", "-2"] ("1".toList ++ ("\u2028".toList ++ "-2".toList)) :=
    .cons hone (by decide) (by decide) (by decide) (.last htwo)
  have hsecond : OnLine ["3", "4"] ("3".toList ++ ("\x0c".toList ++ "4".toList)) :=
    .cons hthree (by decide) (by decide) (by decide) (.last hfour)
  have hbody : LaidOut rows _ :=
    .cons hfirst (show Blanks gap by decide) (by decide) (.last hsecond)
  have hbefore : Blanks before := by decide
  have hafter : Blanks after := by decide
  have hcut := text_tokenised.2.2.2 _ _ _ _ hbody hbefore hafter
  refine ⟨rows, before, _, after, _, hbody, hbefore, hafter, rfl, by decide, rfl, hcut,
    ((text_tokenised.2.1 _ _).mp hcut).2, text_tokenised.2.2.1 _ _ hcut⟩

end Echelon.Matrix
