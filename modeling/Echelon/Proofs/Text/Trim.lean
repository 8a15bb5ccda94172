import Echelon.Text.Blank
import Mathlib.Data.List.DropRight

/-!
# Blanks at the ends of a text

What `skipBlanks` removes is a run of blanks, and what it leaves starts with none. Trimming leaves
a text that has blanks at neither end, so a second trimming changes nothing.
-/

namespace Echelon.Text

/-- A run of blanks, possibly empty. -/
def Blanks (run : List Char) : Prop := ∀ c ∈ run, isBlank c = true

/-- The instance is named, as a search could find one that goes through all characters. -/
instance (run : List Char) : Decidable (Blanks run) :=
  List.decidableBAll (isBlank · = true) run

theorem Blanks.nil : Blanks [] := List.forall_mem_nil _

theorem Blanks.cons {c : Char} (hc : isBlank c = true) {run : List Char} (h : Blanks run) :
    Blanks (c :: run) := List.forall_mem_cons.mpr ⟨hc, h⟩

theorem Blanks.append {run more : List Char} (h : Blanks run) (h' : Blanks more) :
    Blanks (run ++ more) := List.forall_mem_append.mpr ⟨h, h'⟩

theorem Blanks.not_mem {run : List Char} (h : Blanks run) {c : Char} (hc : isBlank c = false) :
    c ∉ run := by
  intro hm
  rw [h c hm] at hc
  cases hc

theorem skipBlanks_append {run : List Char} (h : Blanks run) (rest : List Char) :
    skipBlanks (run ++ rest) = skipBlanks rest :=
  List.dropWhile_append_of_pos h

theorem skipBlanks_cons {c : Char} (hc : isBlank c = false) (rest : List Char) :
    skipBlanks (c :: rest) = c :: rest :=
  List.dropWhile_cons_of_neg (by simp [hc])

/-- Skipping loses a run of blanks and nothing else. -/
theorem exists_blanks_append_skipBlanks (text : List Char) :
    ∃ run, Blanks run ∧ text = run ++ skipBlanks text :=
  ⟨text.takeWhile isBlank, fun _ hc => List.mem_takeWhile_imp hc,
    List.takeWhile_append_dropWhile.symm⟩

theorem trim_eq_rdropWhile (text : List Char) :
    trim text = (skipBlanks text).rdropWhile isBlank := rfl

theorem isBlank_of_skipBlanks {text rest : List Char} {c : Char}
    (h : skipBlanks text = c :: rest) : isBlank c = false := by
  have hhead := List.head?_dropWhile_not isBlank text
  rw [show text.dropWhile isBlank = c :: rest from h] at hhead
  exact hhead

/-- Trimming at the end brings no blank to the start. -/
theorem skipBlanks_trim (text : List Char) : skipBlanks (trim text) = trim text := by
  obtain ⟨cut, hcut⟩ := List.rdropWhile_prefix isBlank (skipBlanks text)
  rw [← trim_eq_rdropWhile] at hcut
  cases ht : trim text with
  | nil => rfl
  | cons c rest =>
    rw [ht, List.cons_append] at hcut
    exact skipBlanks_cons (isBlank_of_skipBlanks hcut.symm) rest

/-- Trimming loses a run of blanks at each end and nothing else. -/
theorem exists_blanks_trim (text : List Char) :
    ∃ before after, Blanks before ∧ Blanks after ∧ text = before ++ (trim text ++ after) := by
  obtain ⟨before, hbefore, htext⟩ := exists_blanks_append_skipBlanks text
  obtain ⟨after, hafter, hrest⟩ := exists_blanks_append_skipBlanks (skipBlanks text).reverse
  refine ⟨before, after.reverse, hbefore, fun c hc => hafter c (List.mem_reverse.mp hc), ?_⟩
  have hskip : skipBlanks text = trim text ++ after.reverse := by
    rw [trim, ← List.reverse_append, ← hrest, List.reverse_reverse]
  rw [← hskip, ← htext]

theorem trim_eq_nil_iff {text : List Char} : trim text = [] ↔ Blanks text := by
  rw [trim_eq_rdropWhile, List.rdropWhile_eq_nil_iff]
  constructor
  · intro h
    obtain ⟨run, hrun, htext⟩ := exists_blanks_append_skipBlanks text
    rw [htext]
    exact hrun.append h
  · intro h c hc
    exact h c ((List.dropWhile_sublist isBlank).mem hc)

theorem trim_trim (text : List Char) : trim (trim text) = trim text := by
  rw [trim_eq_rdropWhile, skipBlanks_trim, trim_eq_rdropWhile, List.rdropWhile_idempotent]

theorem toList_trimmed (text : String) : (trimmed text).toList = trim text.toList :=
  String.toList_ofList

theorem trimmed_trimmed (text : String) : trimmed (trimmed text) = trimmed text := by
  rw [trimmed, toList_trimmed, trim_trim, trimmed]

end Echelon.Text
