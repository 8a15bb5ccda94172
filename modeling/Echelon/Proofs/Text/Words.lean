import Echelon.Proofs.Text.Trim

/-!
# Words

A word is some characters, none of them blank. Trimming leaves a text alone that starts and ends
with a word, and cutting a row of words with a space between neighbours gives the words back.
-/

namespace Echelon.Text

/-- The text is one word. -/
structure Word (text : List Char) : Prop where
  ne_nil : text ≠ []
  not_blank : ∀ c ∈ text, isBlank c = false

instance (text : List Char) : Decidable (Word text) :=
  decidable_of_iff (text ≠ [] ∧ text.all (!isBlank ·) = true)
    ⟨fun h => ⟨h.1, by simpa using h.2⟩, fun h => ⟨h.ne_nil, by simpa using h.not_blank⟩⟩

theorem Word.append {a b : List Char} (ha : Word a) (hb : Word b) : Word (a ++ b) :=
  ⟨List.append_ne_nil_of_left_ne_nil ha.ne_nil b,
    List.forall_mem_append.mpr ⟨ha.not_blank, hb.not_blank⟩⟩

theorem Word.cons {c : Char} {rest : List Char} (hc : isBlank c = false) (h : Word rest) :
    Word (c :: rest) :=
  ⟨List.cons_ne_nil c rest, List.forall_mem_cons.mpr ⟨hc, h.not_blank⟩⟩

theorem Word.skipBlanks_append {word : List Char} (h : Word word) (rest : List Char) :
    skipBlanks (word ++ rest) = word ++ rest := by
  cases word with
  | nil => exact absurd rfl h.ne_nil
  | cons c tail => exact skipBlanks_cons (h.not_blank c List.mem_cons_self) _

theorem Word.rdropWhile_append {word : List Char} (h : Word word) (rest : List Char) :
    (rest ++ word).rdropWhile isBlank = rest ++ word := by
  rcases List.eq_nil_or_concat word with rfl | ⟨first, c, rfl⟩
  · exact absurd rfl h.ne_nil
  · have hc : isBlank c = false := h.not_blank c (by simp)
    rw [List.concat_eq_append, ← List.append_assoc]
    exact List.rdropWhile_concat_neg _ _ _ (by simp [hc])

/-- A text between two words has no blanks at its ends. -/
theorem trim_between {a b : List Char} (ha : Word a) (between : List Char) (hb : Word b) :
    trim (a ++ (between ++ b)) = a ++ (between ++ b) := by
  rw [trim_eq_rdropWhile, ha.skipBlanks_append, ← List.append_assoc, hb.rdropWhile_append]

theorem Word.trim {word : List Char} (h : Word word) : trim word = word := by
  have hskip := h.skipBlanks_append []
  rw [List.append_nil] at hskip
  rw [trim_eq_rdropWhile, hskip]
  exact h.rdropWhile_append []

/-! ## Rows of words -/

theorem Word.words {word : List Char} (h : Word word) : words word = [word] := by
  rw [Text.words, List.splitOnP_eq_singleton h.not_blank,
    List.filter_cons_of_pos (by simp [h.ne_nil])]
  rfl

/-- A blank belongs to no word, so the words before it and after it can be cut apart. -/
theorem words_append_blank {c : Char} (hc : isBlank c = true) (a b : List Char) :
    words (a ++ c :: b) = words a ++ words b := by
  rw [words, List.splitOnP_append_cons _ _ hc, List.filter_append]
  rfl

theorem words_append {word : List Char} (h : Word word) {c : Char} (hc : isBlank c = true)
    (rest : List Char) : words (word ++ c :: rest) = word :: words rest := by
  rw [words_append_blank hc, h.words]
  rfl

theorem words_cons_blank {c : Char} (hc : isBlank c = true) (text : List Char) :
    words (c :: text) = words text := words_append_blank hc [] text

theorem Blanks.words_append {run : List Char} (h : Blanks run) (text : List Char) :
    words (run ++ text) = words text := by
  induction run with
  | nil => rfl
  | cons c run ih =>
    obtain ⟨hc, hrun⟩ := List.forall_mem_cons.mp h
    rw [List.cons_append, words_cons_blank hc, ih hrun]

theorem Blanks.words_eq_nil {run : List Char} (h : Blanks run) : words run = [] := by
  have hwords := h.words_append []
  rwa [List.append_nil] at hwords

theorem words_append_blanks {run : List Char} (h : Blanks run) (text : List Char) :
    words (text ++ run) = words text := by
  cases run with
  | nil => rw [List.append_nil]
  | cons c run =>
    obtain ⟨hc, hrun⟩ := List.forall_mem_cons.mp h
    rw [words_append_blank hc, Blanks.words_eq_nil hrun, List.append_nil]

theorem words_trim (text : List Char) : words (trim text) = words text := by
  obtain ⟨before, after, hbefore, hafter, htext⟩ := exists_blanks_trim text
  calc words (trim text) = words (before ++ (trim text ++ after)) := by
        rw [hbefore.words_append, words_append_blanks hafter]
    _ = words text := by rw [← htext]

/-- Cutting takes the spaces out again that were put between words. -/
theorem words_intercalate {row : List (List Char)} (h : ∀ word ∈ row, Word word) :
    words ([' '].intercalate row) = row := by
  induction row with
  | nil => rfl
  | cons word row ih =>
    obtain ⟨hword, hrow⟩ := List.forall_mem_cons.mp h
    cases row with
    | nil =>
      rw [List.intercalate_singleton]
      exact hword.words
    | cons next row =>
      rw [List.intercalate_cons_cons, List.append_assoc, List.singleton_append,
        words_append hword (by decide), ih hrow]

/-! ## What stands before a separator -/

/-- Texts that go on with a separator they do not have are told apart from what follows it. -/
theorem append_separator_inj {c : Char} {a b x y : List Char} (ha : c ∉ a) (hb : c ∉ b) :
    a ++ c :: x = b ++ c :: y ↔ a = b ∧ x = y := by
  induction a generalizing b with
  | nil =>
    cases b with
    | nil => simp
    | cons d b =>
      have hd : c ≠ d := fun h => hb (by simp [h])
      simp [hd]
  | cons d a ih =>
    have hd : c ≠ d := fun h => ha (by simp [h])
    cases b with
    | nil => simp [hd.symm]
    | cons e b =>
      rw [List.cons_append, List.cons_append, List.cons.injEq, List.cons.injEq,
        ih (fun h => ha (List.mem_cons_of_mem d h)) (fun h => hb (List.mem_cons_of_mem e h)),
        and_assoc]

end Echelon.Text
