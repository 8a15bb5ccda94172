import Echelon.Proofs.Text.Words

/-!
# Words as maximal runs

The words of a text, said without cutting it: runs of characters that are no blanks, each between
blanks or the ends of the text, with nothing but blanks around them. Every text has such runs, and
they are the words that it is cut into.
-/

namespace Echelon.Text

/-- The maximal runs of characters that are no blanks, in order. -/
inductive Runs : List Char → List (List Char) → Prop where
  | nil {blanks : List Char} : Blanks blanks → Runs blanks []
  | cons {before word rest : List Char} {words : List (List Char)} : Blanks before → Word word →
      (∀ c ∈ rest.head?, isBlank c = true) → Runs rest words →
      Runs (before ++ (word ++ rest)) (word :: words)

variable {text : List Char} {run : List (List Char)}

theorem Runs.words_eq (h : Runs text run) : words text = run := by
  induction h with
  | nil hblanks => exact hblanks.words_eq_nil
  | @cons before word rest run hbefore hword hrest _ ih =>
    rw [hbefore.words_append]
    cases rest with
    | nil => rw [List.append_nil, hword.words, ← ih]; rfl
    | cons c rest =>
      have hc : isBlank c = true := hrest c rfl
      rw [words_append hword hc, ← ih, words_cons_blank hc]

/-- Runs of a text that starts with one. -/
theorem Runs.start {word : List Char} (hword : Word word)
    (htext : ∀ c ∈ text.head?, isBlank c = true) (h : Runs text run) :
    Runs (word ++ text) (word :: run) := .cons .nil hword htext h

/-- One more character in front is a blank, a letter of the first run or a run of its own. -/
theorem Runs.exists_cons (h : Runs text run) (c : Char) : ∃ more, Runs (c :: text) more := by
  cases hc : isBlank c with
  | true =>
    cases h with
    | nil hblanks => exact ⟨[], .nil (hblanks.cons hc)⟩
    | cons hbefore hword hrest hruns => exact ⟨_, .cons (hbefore.cons hc) hword hrest hruns⟩
  | false =>
    have hsingle : Word [c] := ⟨List.cons_ne_nil c [], by simpa using hc⟩
    cases h with
    | nil hblanks =>
      exact ⟨_, .start hsingle (fun d hd => hblanks d (List.mem_of_head? hd)) (.nil hblanks)⟩
    | @cons before word rest run hbefore hword hrest hruns =>
      cases before with
      | nil => exact ⟨_, .start (hword.cons hc) hrest hruns⟩
      | cons b before =>
        refine ⟨_, .start hsingle ?_ (.cons hbefore hword hrest hruns)⟩
        simpa using hbefore b List.mem_cons_self

/-- **The words of a text are its maximal runs.** -/
theorem words_eq_iff : words text = run ↔ Runs text run := by
  refine ⟨?_, Runs.words_eq⟩
  rintro rfl
  have hruns : ∃ run, Runs text run := by
    induction text with
    | nil => exact ⟨[], .nil .nil⟩
    | cons c text ih =>
      obtain ⟨run, hrun⟩ := ih
      exact hrun.exists_cons c
  obtain ⟨run, hrun⟩ := hruns
  rw [hrun.words_eq]
  exact hrun

theorem Runs.word_of_mem (h : Runs text run) : ∀ word ∈ run, Word word := by
  induction h with
  | nil _ => simp
  | cons _ hword _ _ ih => exact List.forall_mem_cons.mpr ⟨hword, ih⟩

theorem words_eq_nil_iff : words text = [] ↔ Blanks text := by
  refine ⟨fun h => ?_, Blanks.words_eq_nil⟩
  cases words_eq_iff.mp h with
  | nil hblanks => exact hblanks

end Echelon.Text
