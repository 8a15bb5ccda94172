import Echelon.Proofs.Document.Files
import Echelon.Proofs.Session.View

/-!
# Ways to load a matrix

A matrix file can be opened in a workbench or loaded into a session, and its text can be set. All of
these build the matrix from the whole text, so they have one outcome. The workbench keeps the text
without the blanks around it, which describes the same matrix: as long as that input is left alone,
setting it brings back the document that the file gave, whatever was done to the document since.
-/

namespace Echelon

open Text Result

namespace Workbench

/-! ## Opening a file -/

/-- The workbench on the document of a matrix text, with the text in its matrix input. -/
def onText (appearance : Appearance) (text : String) (d : Document) : Workbench :=
  { (start appearance).receive (.ofStart .empty (.ok d)) with
    matrixInput := .atEnd (trimmed text)
    focus := .operation }

variable {appearance : Appearance} {path : String} {found : Except StoreFault Node}
  {w : Workbench} {d : Document} {m : Move}

/-- Opening a file and loading it read the same text and build the same matrix. -/
theorem ofFile_eq (appearance : Appearance) (path : String) (found : Except StoreFault Node) :
    ofFile appearance path found = (do
      let text ← Matrix.fileText path found
      let d ← Document.ofText text
      return onText appearance text d) := by
  cases hread : Matrix.fileText path found with
  | error fault => rw [ofFile, hread, error_bind, error_bind]
  | ok text =>
    have hcall : (start appearance).document.call (.setText text) =
        .ofStart .empty (Document.ofText text) := rfl
    simp only [ofFile, hread, ok_bind, hcall]
    cases Document.ofText text with
    | error fault => rfl
    | ok d => rfl

theorem ofFile_eq_error {fault : Fault} (h : Document.ofFile path found = .error fault) :
    ofFile appearance path found = .error fault := by
  rw [ofFile_eq]
  rcases bind_eq_error.mp h with hread | ⟨text, hread, htext⟩
  · rw [hread, error_bind]
  · rw [hread, ok_bind, htext, error_bind]

theorem exists_of_ofFile (appearance : Appearance) (h : Document.ofFile path found = .ok d) :
    ∃ text, Document.ofText text = .ok d ∧
      ofFile appearance path found = .ok (onText appearance text d) := by
  obtain ⟨text, hread, htext⟩ := bind_eq_ok.mp h
  refine ⟨text, htext, ?_⟩
  rw [ofFile_eq, hread, ok_bind, htext, ok_bind]
  rfl

/-! ## What leaves the matrix input alone -/

/-- The move goes past the matrix input: it works on the document, on the operation input, on the
focus or on the help. -/
inductive Spares (w : Workbench) : Move → Prop where
  | edit {key : Key} : w.focus = .operation → Spares w (.edit key)
  | perform {action : Action} : action ≠ .reset →
      (action = .insertNewline → w.focus = .operation) → Spares w (.perform action)
  | pressAction {key : Key} {action : Action} : Action.ofKey? w.focus key = some action →
      Spares w (.perform action) → Spares w (.press key)
  | pressEdit {key : Key} : Action.ofKey? w.focus key = none →
      Spares w (.edit key) → Spares w (.press key)
  | closeHelp : Spares w .closeHelp
  | scrollHelp (lines : Int) : Spares w (.scrollHelp lines)
  | call (request : Call) : Spares w (.call request)
  | tick : Spares w .tick

/-- Each move of a run goes past the matrix input. -/
inductive SparesAll : Workbench → List Move → Prop where
  | nil {w : Workbench} : SparesAll w []
  | cons {w : Workbench} {m : Move} {moves : List Move} :
      w.Spares m → (w.move m).SparesAll moves → SparesAll w (m :: moves)

theorem matrixInput_submitOperation (w : Workbench) :
    w.submitOperation.matrixInput = w.matrixInput := by
  by_cases hblank : (trimmed w.operationInput.text).isEmpty = true
  · rw [submitOperation, if_pos hblank]
  · rw [submitOperation, if_neg hblank]
    rfl

theorem matrixInput_perform {action : Action} (hreset : action ≠ .reset)
    (hline : action = .insertNewline → w.focus = .operation) :
    (w.perform action).matrixInput = w.matrixInput := by
  cases action with
  | submitOperation => exact w.matrixInput_submitOperation
  | insertNewline =>
    show w.insertNewline.matrixInput = w.matrixInput
    rw [insertNewline, hline rfl]
  | reset => exact absurd rfl hreset
  | _ => rfl

theorem matrixInput_edit {key : Key} (h : w.focus = .operation) :
    (w.edit key).matrixInput = w.matrixInput := by
  rw [edit, h]

theorem Spares.matrixInput_eq (h : w.Spares m) : (w.move m).matrixInput = w.matrixInput := by
  induction h with
  | edit hfocus => exact matrixInput_edit hfocus
  | perform hreset hline => exact matrixInput_perform hreset hline
  | pressAction hkey _ ih =>
    rw [move, press, hkey]
    exact ih
  | pressEdit hkey _ ih =>
    rw [move, press, hkey]
    exact ih
  | _ => rfl

theorem SparesAll.matrixInput_eq {moves : List Move} (h : w.SparesAll moves) :
    (moves.foldl move w).matrixInput = w.matrixInput := by
  induction h with
  | nil => rfl
  | cons hm _ ih => exact ih.trans hm.matrixInput_eq

/-! ## Setting the matrix again -/

/-- Setting the matrix looks at the matrix input and at nothing else. -/
theorem setMatrix_of_ofText (h : Document.ofText w.matrixInput.text = .ok d) :
    w.document.call (.setText w.matrixInput.text) = .ofStart w.document (.ok d) ∧
      w.setMatrix.document = d ∧ w.setMatrix.focus = .operation := by
  have hcall : w.document.call (.setText w.matrixInput.text) = .ofStart w.document (.ok d) := by
    rw [Document.call, h]
  refine ⟨hcall, ?_, ?_⟩
  · simp only [setMatrix, receive, hcall, Reply.ofStart]
  · simp only [setMatrix, hcall]
    rfl

/-- **All ways to load a matrix agree.** Opening a file in a workbench and loading it into a new
session are refused with the same fault, or both give the document that starts from one matrix. If
the file is a text that is not too large, setting the text is answered in the same way. After a file
was opened and after any moves that bring the matrix input back to what it was, as all do that go
past it, setting the matrix succeeds and gives the document of the file again. -/
theorem loading_agrees (appearance : Appearance) (path : String)
    (found : Except StoreFault Node) :
    let loaded := Document.empty.call (.load path found)
    (∀ text : String, found = .ok (.file text.toUTF8) → text.utf8ByteSize ≤ fileLimit →
      Document.empty.call (.setText text) = loaded) ∧
    ((∃ fault, ofFile appearance path found = .error fault ∧ loaded = .refuse .empty fault) ∨
    ∃ w base, ofFile appearance path found = .ok w ∧ loaded.result = .ok () ∧
      loaded.document = .start base ∧ w.document = .start base ∧
      ∀ moves : List Move,
        let later := moves.foldl move w
        (w.SparesAll moves → later.matrixInput = w.matrixInput) ∧
        (later.matrixInput.text = w.matrixInput.text →
          (later.document.call (.setText later.matrixInput.text)).result = .ok () ∧
          later.setMatrix.document = .start base ∧ later.setMatrix.focus = .operation)) := by
  intro loaded
  have hloaded : loaded = .ofStart .empty (Document.ofFile path found) := rfl
  refine ⟨?_, ?_⟩
  · rintro text rfl hsize
    rw [hloaded, Document.ofFile_file hsize]
    rfl
  · cases hfile : Document.ofFile path found with
    | error fault =>
      rw [hfile] at hloaded
      exact Or.inl ⟨fault, ofFile_eq_error hfile, hloaded⟩
    | ok d =>
      rw [hfile] at hloaded
      obtain ⟨base, rfl⟩ := Document.start_of_ofFile hfile
      obtain ⟨text, htext, hopened⟩ := exists_of_ofFile appearance hfile
      refine Or.inr ⟨_, base, hopened, by rw [hloaded]; rfl, by rw [hloaded]; rfl, rfl, ?_⟩
      intro moves later
      refine ⟨fun h => h.matrixInput_eq, fun hinput => ?_⟩
      have hagain : Document.ofText later.matrixInput.text = .ok (.start base) := by
        rw [hinput]
        exact (Document.ofText_trimmed text).trans htext
      obtain ⟨hcall, hdocument, hfocus⟩ := setMatrix_of_ofText hagain
      exact ⟨by rw [hcall]; rfl, hdocument, hfocus⟩

/-- A file with blanks around its text, and the matrix set again after an operation, a refused one,
one that was taken back and one that is still being typed. -/
theorem loading_agrees_after_operations : ∃ (text : String) (w : Workbench) (moves : List Move),
    let later := moves.foldl move w
    ofFile ⟨10, true⟩ "m.txt" (.ok (.file text.toUTF8)) = .ok w ∧
    w.matrixInput.text = "7 9 \n1 2" ∧ w.matrixInput.text ≠ text ∧
    (Document.empty.call (.setText text)).document = w.document ∧
    later.document.log = ["R1 = R1 / 3"] ∧ later.operationInput.text = "R1 <" ∧
    later.document ≠ w.document ∧ later.setMatrix.document = w.document ∧
    later.setMatrix.focus = .operation := by
  let text := "\n 7 9 \n1 2\n\n"
  let found : Except StoreFault Node := .ok (.file text.toUTF8)
  let typed (text : String) : List Move := text.toList.map fun c => .press { code := .char c }
  let enter : Move := .press { code := .enter }
  let tab : Move := .press { code := .tab }
  let moves : List Move := typed "R1 = R1 / 3" ++ [enter] ++ typed "R2 = R1 + R2" ++ [enter] ++
    typed "R2 <> R1" ++ [enter, tab, .perform .undo, tab] ++ typed "R1 <"
  let w := onText ⟨10, true⟩ text (Document.empty.run [.setText text])
  have hw : ofFile ⟨10, true⟩ "m.txt" found = .ok w := by decide +kernel
  obtain ⟨hset, ⟨fault, hrefused, _⟩ | ⟨opened, base, hopened, _, hloaded, hdocument, hlater⟩⟩ :=
    loading_agrees ⟨10, true⟩ "m.txt" found
  · rw [hw] at hrefused
    cases hrefused
  · obtain rfl : opened = w := Except.ok.inj (hopened.symm.trans hw)
    obtain ⟨_, hagain⟩ := hlater moves
    obtain ⟨_, hsame, hfocus⟩ := hagain (by decide +kernel)
    refine ⟨text, w, moves, hw, by decide +kernel, by decide +kernel, ?_, by decide +kernel,
      by decide +kernel, by decide +kernel, hsame.trans hdocument.symm, hfocus⟩
    rw [hset text rfl (by decide), hloaded, hdocument]

end Workbench

end Echelon
