import Echelon.Proofs.Document.WellFormed
import Echelon.Proofs.Matrix.ReadBack
import Echelon.Report

/-!
# The plain form of a document reads back

A document that calls lead to holds a well-formed matrix, so its plain form can be set as a matrix
text again. Without a fraction that gives a matrix that compares as equal; with one it is refused,
and the fault names the first fraction.
-/

namespace Echelon.Document

open Result Echelon.Matrix

variable {d : Document} {m : Matrix}

theorem plain_eq (hm : d.matrix = some m) : d.plain = written m.texts := by
  rw [plain, snapshot, hm]
  rfl

theorem ofText_plain (h : m.WellFormed) (hm : d.matrix = some m)
    (hn : ∀ row ∈ m.rows, ∀ cell ∈ row, cell.isFraction = false) :
    ofText d.plain = .ok (.start m.plain) := by
  rw [ofText, plain_eq hm, h.ofText_eq, h.ofTokens_texts hn]
  rfl

theorem ofText_plain_fraction (h : m.WellFormed) (hm : d.matrix = some m) {number : Nat}
    {cell : Cell} (hf : FirstFraction m.rows number cell) :
    ofText d.plain = .error (.malformedRow number cell.text) := by
  rw [ofText, plain_eq hm, h.ofText_eq, h.ofTokens_texts_fraction hf]
  rfl

/-- **A printed matrix can be read back.** Setting the plain form of a document as a matrix text
gives, on any document, a matrix that compares as equal: the same one but for the signs of zeros. A
matrix with a fraction is refused with the row and the text of the first one, row by row. -/
theorem plain_reads_back (h : Reachable d) (hm : d.matrix = some m) :
    ((∀ row ∈ m.rows, ∀ cell ∈ row, cell.isFraction = false) →
      ofText d.plain = .ok (.start m.plain) ∧ m.plain.SameValue m ∧
      ∀ e : Document, (e.call (.setText d.plain)).result = .ok () ∧
        (e.call (.setText d.plain)).document = .start m.plain) ∧
    ((∃ row ∈ m.rows, ∃ cell ∈ row, cell.isFraction = true) →
      ∃ number n k, FirstFraction m.rows number (.fraction n k) ∧
        ofText d.plain = .error (.malformedRow number (n.text ++ "/" ++ k.text)) ∧
        ∀ e : Document, e.call (.setText d.plain) =
          .refuse e (.malformedRow number (n.text ++ "/" ++ k.text))) := by
  have hmem : m ∈ d.matrices := by simp [matrices, hm]
  have hwell : m.WellFormed := h.wellFormed.wellFormed m hmem
  refine ⟨fun hn => ?_, fun hf => ?_⟩
  · have hread := ofText_plain hwell hm hn
    refine ⟨hread, hwell.sameValue_plain, fun e => ?_⟩
    rw [call, hread]
    exact ⟨rfl, rfl⟩
  · obtain ⟨number, n, k, hfirst⟩ := exists_firstFraction hf
    have hread := ofText_plain_fraction hwell hm hfirst
    refine ⟨number, n, k, hfirst, hread, fun e => ?_⟩
    rw [call, hread]
    rfl

/-- A document whose zero was negative, and one whose division left a fraction in its second row. -/
theorem plain_reads_back_fraction : ∃ d e m n, Reachable d ∧ Reachable e ∧ d.matrix = some m ∧
    e.matrix = some n ∧ d.plain = "0 -0.1\n5 1000000000000000\n" ∧ e.plain = "1 -2\n3 7/-3\n" ∧
    ofText d.plain = .ok (.start m.plain) ∧ m.plain ≠ m ∧
    ∃ j k, FirstFraction n.rows 2 (.fraction j k) ∧
      ofText e.plain = .error (.malformedRow 2 (j.text ++ "/" ++ k.text)) := by
  let calls : List Call := [.setText "-0 -0.1\n5 1e15"]
  let more : List Call := [.setText "1 -2\n-9 7", .apply "R2 = R2 / -3"]
  let d := Document.empty.run calls
  let e := Document.empty.run more
  have hd : Reachable d := ⟨calls, rfl⟩
  have he : Reachable e := ⟨more, rfl⟩
  have hm : d.matrix = some d.snapshot := by decide +kernel
  have hn : e.matrix = some e.snapshot := by decide +kernel
  have hnumbers : ∀ row ∈ d.snapshot.rows, ∀ cell ∈ row, cell.isFraction = false := by
    decide +kernel
  have hfraction : ∃ row ∈ e.snapshot.rows, ∃ cell ∈ row, cell.isFraction = true := by
    decide +kernel
  obtain ⟨hread, _⟩ := (plain_reads_back hd hm).1 hnumbers
  obtain ⟨number, j, k, hfirst, hrefused, _⟩ := (plain_reads_back he hn).2 hfraction
  have hfault : ofText e.plain = .error (.malformedRow 2 "7/-3") := by decide +kernel
  have hnumber : number = 2 := by
    rw [hrefused] at hfault
    exact (Fault.malformedRow.inj (Except.error.inj hfault)).1
  subst hnumber
  exact ⟨d, e, d.snapshot, e.snapshot, hd, he, hm, hn, by decide +kernel, by decide +kernel, hread,
    by decide +kernel, j, k, hfirst, hrefused⟩

end Echelon.Document
