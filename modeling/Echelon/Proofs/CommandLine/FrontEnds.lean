import Echelon.Proofs.CommandLine.Steps
import Echelon.Proofs.Document.Files
import Echelon.Proofs.Document.Undo
import Echelon.Proofs.Workbench.Typing

/-!
# The two front ends agree

A workbench into which a matrix was typed has the focus on an empty operation input, and the keys of
each step lead back to that: entering an operation clears the input, and undoing leaves it alone. So
the keys of some steps fold the same steps over the same document as command mode does, until a step
is refused, which the workbench shows and command mode reports.
-/

namespace Echelon

open Text CommandLine Document

namespace CommandLine.Step

/-- The keys that take a step in the workbench. -/
def keys : Step → List Key
  | .apply text => typing text ++ [.enter]
  | .undo => [.takeBack]

/-- The step is not the operation of a blank text, which the workbench ignores. -/
def HasText : Step → Prop
  | .apply text => trimmed text ≠ ""
  | .undo => True

instance : DecidablePred HasText
  | .apply text => inferInstanceAs (Decidable (trimmed text ≠ ""))
  | .undo => .isTrue trivial

end CommandLine.Step

namespace Document

variable {d e : Document} {step : Step} {fault : Fault}

theorem map_result_callOf (d : Document) (step : Step) :
    (d.call (callOf step)).result.map (fun _ => (d.call (callOf step)).document) =
      d.advance step := by
  rw [← follow_eq_advance]
  rfl

theorem call_of_advance (h : d.advance step = .ok e) :
    (d.call (callOf step)).document = e := by
  rw [← map_result_callOf] at h
  obtain ⟨_, _, hd⟩ := Result.map_eq_ok.mp h
  exact hd

theorem call_of_refused (h : d.advance step = .error fault) :
    d.call (callOf step) = .refuse d fault := by
  apply call_eq_refuse
  rw [← map_result_callOf] at h
  cases hresult : (d.call (callOf step)).result with
  | ok u =>
    rw [hresult] at h
    cases h
  | error other =>
    rw [hresult] at h
    cases h
    rfl

theorem call_apply_trimmed (d : Document) (text : String) :
    d.call (.apply (trimmed text)) = d.call (.apply text) := by
  rw [call, call, apply_trimmed]

end Document

namespace Workbench

/-- The workbench waits for an operation on a document. -/
structure Waits (w : Workbench) (d : Document) : Prop where
  document_eq : w.document = d
  faithful : w.Faithful
  focus_eq : w.focus = .operation
  input_eq : w.operationInput = .empty

variable {w : Workbench} {d e : Document} {step : Step} {fault : Fault}

/-- Typing a matrix and entering it leaves the workbench waiting. -/
theorem waits_of_typed (appearance : Appearance) {text : String} (h : ofText text = .ok d) :
    ((start appearance).pressAll (typing text ++ [.enter])).Waits d := by
  let typed : Workbench :=
    { start appearance with matrixInput := text.toList.foldl Editor.type .empty }
  have hkeys : (start appearance).pressAll (typing text ++ [.enter]) = typed.setMatrix := by
    rw [pressAll_append, pressAll_typing]
    rfl
  have hreply :
      typed.document.call (.setText typed.matrixInput.text) = .ofStart .empty (.ok d) := by
    show Reply.ofStart .empty (ofText typed.matrixInput.text) = _
    rw [Editor.text_foldl_type, h]
  have hfaithful : typed.Faithful := faithful_start appearance
  rw [hkeys]
  refine ⟨?_, hfaithful.setMatrix, ?_, rfl⟩
  · simp only [setMatrix, receive, hreply, Reply.ofStart]
  · simp only [setMatrix, hreply]
    rfl

theorem press_enter (hf : w.focus = .operation) : w.press .enter = w.submitOperation := by
  rw [press, hf]
  rfl

theorem pressAll_typing_operation (hf : w.focus = .operation) (hi : w.operationInput = .empty)
    (text : String) : w.pressAll (typing text) =
      { w with operationInput := text.toList.foldl Editor.type .empty } := by
  rw [pressAll_typing]
  simp only [withFocused, focused, hf, hi]

theorem submitOperation_typed (w : Workbench) {text : String} (h : trimmed text ≠ "") :
    ({ w with operationInput := text.toList.foldl Editor.type .empty }).submitOperation =
      { w.call (.apply text) with operationInput := .empty } := by
  have hblank : ¬ (trimmed text).isEmpty = true := by simpa using h
  simp only [submitOperation, Editor.text_foldl_type, if_neg hblank, Workbench.call,
    call_apply_trimmed]
  rfl

/-- The keys of a step make its call and leave the operation input empty. -/
theorem pressAll_keys (hf : w.focus = .operation) (hi : w.operationInput = .empty)
    (hs : step.HasText) :
    w.pressAll step.keys = { w.call (callOf step) with operationInput := .empty } := by
  cases step with
  | undo =>
    show w.call .undo = { w.call .undo with operationInput := .empty }
    rw [← hi]
    rfl
  | apply text =>
    let typed : Workbench :=
      { w with operationInput := text.toList.foldl Editor.type .empty }
    have hfocus : typed.focus = .operation := hf
    rw [Step.keys, pressAll_append, pressAll_typing_operation hf hi]
    show typed.press .enter = _
    rw [press_enter hfocus, submitOperation_typed w hs]
    rfl

/-- A step that is followed leaves the workbench waiting on the next document. -/
theorem Waits.advance (h : w.Waits d) (hs : step.HasText) (ha : d.advance step = .ok e) :
    (w.pressAll step.keys).Waits e := by
  rw [pressAll_keys h.focus_eq h.input_eq hs]
  refine ⟨?_, h.faithful.call (callOf step), h.focus_eq, rfl⟩
  show (w.document.call (callOf step)).document = e
  rw [h.document_eq, call_of_advance ha]

/-- A step that is refused leaves the workbench waiting on the same document, with a notice. -/
theorem Waits.refused (h : w.Waits d) (hs : step.HasText) (ha : d.advance step = .error fault) :
    (w.pressAll step.keys).Waits d ∧
      (w.pressAll step.keys).view.notice = some (.error fault.kind fault.message) := by
  have hcall : w.document.call (callOf step) = .refuse d fault := by
    rw [h.document_eq, call_of_refused ha]
  rw [pressAll_keys h.focus_eq h.input_eq hs]
  refine ⟨⟨?_, h.faithful.call (callOf step), h.focus_eq, rfl⟩, ?_⟩
  · show (w.document.call (callOf step)).document = d
    rw [hcall]
    rfl
  · show ((w.document.call (callOf step)).events.foldl View.handle w.view).notice = _
    rw [hcall]
    rfl

/-- The keys of some steps fold them over the document. -/
theorem Waits.steps {steps : List Step} (h : w.Waits d) (hs : ∀ step ∈ steps, step.HasText)
    (ha : steps.foldlM Document.advance d = .ok e) :
    (w.pressAll (steps.flatMap Step.keys)).Waits e := by
  induction steps generalizing w d with
  | nil =>
    cases ha
    exact h
  | cons step steps ih =>
    obtain ⟨hstep, hrest⟩ := List.forall_mem_cons.mp hs
    rw [List.foldlM_cons, Result.bind_eq_ok] at ha
    obtain ⟨next, hnext, ha⟩ := ha
    rw [List.flatMap_cons, pressAll_append]
    exact ih (h.advance hstep hnext) hrest ha

theorem Waits.shows (h : w.Waits d) : w.view.Shows d := by
  have hshows : w.view.Shows w.document := h.faithful
  rw [h.document_eq] at hshows
  exact hshows

end Workbench

/-! ## A matrix that is typed and one that is in a file -/

theorem exists_of_setText {d : Document} {text : String}
    (h : (d.call (.setText text)).result = .ok ()) : ∃ e, ofText text = .ok e := by
  cases hd : ofText text with
  | ok e => exact ⟨e, rfl⟩
  | error fault =>
    rw [call, hd] at h
    cases h

/-- The workbench after a matrix was typed and some steps were taken by their keys. -/
def typedWorkbench (appearance : Appearance) (text : String) (steps : List Step) : Workbench :=
  (Workbench.start appearance).pressAll
    (typing text ++ [.enter] ++ steps.flatMap Step.keys)

theorem waits_typedWorkbench (appearance : Appearance) {text : String} {steps : List Step}
    {d e : Document} (h : ofText text = .ok d) (hs : ∀ step ∈ steps, step.HasText)
    (ha : steps.foldlM Document.advance d = .ok e) :
    (typedWorkbench appearance text steps).Waits e := by
  rw [typedWorkbench, Workbench.pressAll_append]
  exact (Workbench.waits_of_typed appearance h).steps hs ha

theorem typedWorkbench_concat (appearance : Appearance) (text : String) (steps : List Step)
    (step : Step) : typedWorkbench appearance text (steps ++ [step]) =
      (typedWorkbench appearance text steps).pressAll step.keys := by
  rw [typedWorkbench, List.flatMap_append, ← List.append_assoc, Workbench.pressAll_append]
  simp [typedWorkbench]

/-- **Both front ends do the same.** Let a matrix text that can be set be in a file, and typed into
the workbench character by character, and let each step be taken in command mode and by its keys. If
command mode succeeds, it prints the matrix that the workbench shows, and its log is the one shown.
Otherwise the first step that is refused gives the workbench a notice of the fault that command mode
ends with, and the matrix and the log shown are still those of the steps before. -/
theorem front_ends_agree (appearance : Appearance) (settings : Option String) {s : Store}
    {path text : String} {steps : List Step} (hfile : s.look path = .ok (.file text.toUTF8))
    (hsize : text.utf8ByteSize ≤ fileLimit)
    (hset : (Document.empty.call (.setText text)).result = .ok ())
    (hsteps : ∀ step ∈ steps, step.HasText) :
    let outcome := runSteps s ⟨steps, none, settings, some path⟩
    let view (taken : List Step) := (typedWorkbench appearance text taken).view
    (outcome.code = 0 → ∃ e, document s path steps = .ok e ∧
      outcome.printed = Matrix.written (view steps).matrix.texts ∧ (view steps).log = e.log) ∧
    (outcome.code ≠ 0 → ∃ before step after e fault, steps = before ++ step :: after ∧
      document s path before = .ok e ∧ e.advance step = .error fault ∧
      outcome.complaints = "Error: " ++ fault.message ++ "\n" ∧
      (view (before ++ [step])).notice = some (.error fault.kind fault.message) ∧
      (view (before ++ [step])).matrix = (view before).matrix ∧ (view before).matrix = e.snapshot ∧
      (view (before ++ [step])).log = (view before).log ∧ (view before).log = e.log) := by
  intro outcome view
  obtain ⟨d, hd⟩ := exists_of_setText hset
  have hload : ofFile path (s.look path) = .ok d := by rw [hfile, ofFile_file hsize, hd]
  cases ha : steps.foldlM Document.advance d with
  | ok e =>
    have houtcome : outcome = finish s none e := runSteps_of_ok hload ha
    have hshows := (waits_typedWorkbench appearance hd hsteps ha).shows
    rw [houtcome]
    refine ⟨fun _ => ⟨e, document_of_ok hload ha, ?_, hshows.log_eq⟩, fun hcode => absurd rfl hcode⟩
    show e.plain = Matrix.written (view steps).matrix.texts
    rw [hshows.matrix_eq]
    rfl
  | error fault =>
    have houtcome : outcome = .failure s fault.message := runSteps_of_fault hload ha
    obtain ⟨before, step, after, e, rfl, hbefore, hstep⟩ := Result.foldlM_eq_error.mp ha
    have hwaits := waits_typedWorkbench appearance hd
      (fun step hmem => hsteps step (List.mem_append_left _ hmem)) hbefore
    obtain ⟨hrefused, hnotice⟩ := hwaits.refused (hsteps step (by simp)) hstep
    rw [← typedWorkbench_concat] at hrefused hnotice
    have hshows := hwaits.shows
    have hafter := hrefused.shows
    rw [houtcome]
    refine ⟨fun hcode => absurd hcode Nat.one_ne_zero, fun _ => ⟨before, step, after, e, fault, rfl,
      document_of_ok hload hbefore, hstep, rfl, hnotice, ?_, hshows.matrix_eq, ?_, hshows.log_eq⟩⟩
    · exact hafter.matrix_eq.trans hshows.matrix_eq.symm
    · exact hafter.log_eq.trans hshows.log_eq.symm

/-- Steps with an undo too many, and the same steps before one that is refused. -/
theorem front_ends_agree_session : ∃ (s : Store) (steps more : List Step),
    let view (taken : List Step) := (typedWorkbench ⟨10, true⟩ "2 4\n6 8" taken).view
    (runSteps s ⟨steps, none, none, some "m.txt"⟩).printed = "6 8\n1 2\n" ∧
    Matrix.written (view steps).matrix.texts = "6 8\n1 2\n" ∧
    (view steps).log = ["R1 = R1 / 2", "R1 <> R2"] ∧
    ∃ before step after, ∃ fault : Fault, more = before ++ step :: after ∧
      (runSteps s ⟨more, none, none, some "m.txt"⟩).complaints =
        "Error: " ++ fault.message ++ "\n" ∧
      (view (before ++ [step])).notice = some (.error fault.kind fault.message) ∧
      (view (before ++ [step])).log = (view before).log := by
  let s : Store :=
    ⟨[(["work"], .directory), (["work", "m.txt"], .file "2 4\n6 8".toUTF8)], ["work"]⟩
  let steps : List Step :=
    [.apply " R1 <> R2 ", .undo, .undo, .apply "R1 = R1 / 2", .apply "R1 <> R2"]
  let more : List Step := steps ++ [.apply "R3 = R3 * 2", .undo]
  have hfile : s.look "m.txt" = .ok (.file "2 4\n6 8".toUTF8) := by decide +kernel
  have hsize : "2 4\n6 8".utf8ByteSize ≤ fileLimit := by decide
  have hset : (Document.empty.call (.setText "2 4\n6 8")).result = .ok () := by decide +kernel
  have hsteps : ∀ step ∈ steps, step.HasText := by decide +kernel
  have hmore : ∀ step ∈ more, step.HasText := by decide +kernel
  have hprinted : (runSteps s ⟨steps, none, none, some "m.txt"⟩).printed = "6 8\n1 2\n" := by
    decide +kernel
  have hlog : (document s "m.txt" steps).map Document.log = .ok ["R1 = R1 / 2", "R1 <> R2"] := by
    decide +kernel
  obtain ⟨hok, _⟩ := front_ends_agree ⟨10, true⟩ none hfile hsize hset hsteps
  obtain ⟨_, hrefused⟩ := front_ends_agree ⟨10, true⟩ none hfile hsize hset hmore
  obtain ⟨e, hd, hshown, hsame⟩ := hok (by decide +kernel)
  obtain ⟨before, step, after, _, fault, hsplit, _, _, hcomplaints, hnotice, _, _, hlast, _⟩ :=
    hrefused (by decide +kernel)
  rw [hd] at hlog
  exact ⟨s, steps, more, hprinted, hshown.symm.trans hprinted, hsame.trans (Except.ok.inj hlog),
    before, step, after, fault, hsplit, hcomplaints, hnotice, hlast⟩

end Echelon
