import Echelon.Document
import Echelon.Proofs.Matrix.Tokens
import Echelon.Proofs.Results

/-!
# Documents from files

A file that is a text of admissible size gives the document of its text. Its path counts only for
the fault of a file that cannot be read, and blanks around the text do not count at all.
-/

namespace Echelon

open Text Result

/-- Where a text stands matters for the faults of its reading only. -/
theorem readText_of_ok {path other subject text : String} {found : Except StoreFault Node}
    (h : readText path subject found = .ok text) : readText other subject found = .ok text := by
  cases found with
  | error fault => cases h
  | ok node =>
    cases node with
    | directory => cases h
    | file content =>
      simp only [readText, ok_bind] at h ⊢
      split at h
      · cases h
      · rename_i hsize
        rw [if_neg hsize]
        exact h

theorem readText_file {path subject text : String} (h : text.utf8ByteSize ≤ fileLimit) :
    readText path subject (.ok (.file text.toUTF8)) = .ok text := by
  have hsize : ¬ fileLimit < text.toUTF8.size := Nat.not_lt.mpr h
  have hread : String.fromUTF8? text.toUTF8 = some text := dif_pos text.isValidUTF8
  simp only [readText, ok_bind, if_neg hsize, hread]

/-- Blanks around a matrix text do not count. -/
theorem Matrix.ofText_trimmed (text : String) : ofText (trimmed text) = ofText text := by
  have hrows : tokenRows (trimmed text) = tokenRows text := by
    rw [tokenRows_eq, tokenRows_eq, toList_trimmed, lineWords_trim]
  rw [ofText, ofText, splitText, splitText, hrows]

namespace Document

variable {d : Document}

theorem ofText_trimmed (text : String) : ofText (trimmed text) = ofText text := by
  rw [ofText, ofText, Matrix.ofText_trimmed]

theorem ofFile_file {path text : String} (h : text.utf8ByteSize ≤ fileLimit) :
    ofFile path (.ok (.file text.toUTF8)) = ofText text := by
  rw [ofFile, Matrix.fileText, readText_file h]
  rfl

theorem ofFile_of_ok {path other : String} {found : Except StoreFault Node}
    (h : ofFile path found = .ok d) : ofFile other found = .ok d := by
  obtain ⟨text, htext, hd⟩ := bind_eq_ok.mp h
  unfold Matrix.fileText at htext
  split at htext
  · rename_i hread
    cases htext
    rw [ofFile, Matrix.fileText, readText_of_ok hread]
    exact hd
  · cases htext

theorem start_of_ofFile {path : String} {found : Except StoreFault Node}
    (h : ofFile path found = .ok d) : ∃ base, d = .start base := by
  obtain ⟨text, _, htext⟩ := bind_eq_ok.mp h
  obtain ⟨base, _, rfl⟩ := map_eq_ok.mp htext
  exact ⟨base, rfl⟩

end Document

end Echelon
