import Echelon.Proofs.Document.Replay

/-!
# The replies of a session

`Answers` says once what a session can answer to a call: which events it reports, in which order,
and which document follows. A refusal keeps the document and reports its fault, so the refused calls
of a run can be taken out of it, and nobody who listens to the others can tell.
-/

namespace Echelon

/-- Whether a call was not refused. -/
def Reply.succeeded (reply : Reply) : Bool := reply.result.isOk

namespace Document

open Text Result

/-! ## What a session can answer -/

/-- All that a session can answer to a call. -/
inductive Answers (d : Document) : Reply → Prop where
  | refuse (fault : Fault) : Answers d (.refuse d fault)
  | start (m : Matrix) : Answers d ⟨.ok (), [.matrixReady m, .matrixChanged m], .start m⟩
  | apply {e : Document} {text : String} : d.apply text = .ok e →
      Answers d ⟨.ok (), [.matrixChanged e.snapshot, .operationLogged (trimmed text)], e⟩
  | undo {e : Document} {text : String} : d.undo = .ok (e, text) →
      Answers d ⟨.ok (), [.operationLogRemoved, .matrixChanged e.snapshot], e⟩
  | idle : d.undo = .error .emptyHistory → Answers d ⟨.ok (), [], d⟩
  | reset : Answers d ⟨.ok (), [.reset, .matrixChanged .empty], .empty⟩

/-- Setting a matrix is answered in one way, wherever the matrix comes from. -/
theorem answers_ofStart (d : Document) (result : Except Fault Matrix) :
    Answers d (.ofStart d (result.map .start)) := by
  cases result with
  | ok m => exact .start m
  | error fault => exact .refuse fault

theorem ofFile_eq (path : String) (found : Except StoreFault Node) :
    ofFile path found = (Matrix.fileText path found >>= Matrix.ofText).map start := by
  unfold ofFile
  cases Matrix.fileText path found with
  | ok text => rw [ok_bind, ok_bind, ofText]
  | error fault =>
    rw [error_bind, error_bind]
    rfl

theorem answers_ofApply (d : Document) (text : String) :
    Answers d (.ofApply d (d.apply text)) := by
  cases h : d.apply text with
  | error fault => exact .refuse fault
  | ok e =>
    have hlast : e.log.getLast? = some (trimmed text) := by
      obtain ⟨_, _, _, _, _, _, rfl⟩ := apply_eq_ok.mp h
      exact List.getLast?_concat
    have hanswer := Answers.apply h
    simpa only [Reply.ofApply, hlast, Option.map_some, Option.toList_some] using hanswer

theorem answers_ofUndo (d : Document) : Answers d (.ofUndo d d.undo) := by
  cases h : d.undo with
  | ok result => exact .undo h
  | error fault =>
    cases fault with
    | emptyHistory => exact .idle h
    | _ => exact .refuse _

/-- **A session answers every call in one of these ways.** -/
theorem answers (d : Document) (call : Call) : Answers d (d.call call) := by
  cases call with
  | setTokens rows => exact answers_ofStart d (Matrix.ofTokens rows)
  | setText text => exact answers_ofStart d (Matrix.ofText text)
  | load path found =>
    show Answers d (.ofStart d (ofFile path found))
    rw [ofFile_eq]
    exact answers_ofStart d _
  | apply text => exact answers_ofApply d text
  | undo => exact answers_ofUndo d
  | reset => exact .reset

/-- A call that fails is refused with its fault. -/
theorem call_eq_refuse {d : Document} {call : Call} {fault : Fault}
    (h : (d.call call).result = .error fault) : d.call call = .refuse d fault := by
  have ha := d.answers call
  generalize d.call call = reply at ha h
  cases ha with
  | refuse other =>
    cases h
    rfl
  | _ => cases h

/-! ## Runs -/

/-- The replies of a session to some calls, one after the other. -/
def replies (d : Document) : List Call → List Reply
  | [] => []
  | call :: calls => d.call call :: (d.call call).document.replies calls

/-- The calls of a run that are not refused. -/
def accepted (d : Document) (calls : List Call) : List Call :=
  ((calls.zip (d.replies calls)).filter fun pair => pair.2.succeeded).map Prod.fst

variable {d : Document}

theorem replies_cons (d : Document) (call : Call) (calls : List Call) :
    d.replies (call :: calls) = d.call call :: (d.after call).replies calls := by
  rw [replies, call_document]

theorem accepted_cons_of_succeeded {call : Call} (h : (d.call call).succeeded = true)
    (calls : List Call) : d.accepted (call :: calls) = call :: (d.after call).accepted calls := by
  simp [accepted, replies_cons, h]

theorem after_of_refused {call : Call} (h : (d.call call).succeeded = false) :
    d.after call = d := by
  cases hresult : (d.call call).result with
  | ok u => simp [Reply.succeeded, hresult, Except.isOk, Except.toBool] at h
  | error fault =>
    rw [← call_document, call_eq_refuse hresult]
    rfl

theorem accepted_cons_of_refused {call : Call} (h : (d.call call).succeeded = false)
    (calls : List Call) : d.accepted (call :: calls) = d.accepted calls := by
  simp [accepted, replies_cons, h, after_of_refused h]

/-- Without its refused calls a run ends in the same document and gets the same other replies. -/
theorem run_and_replies_accepted (calls : List Call) :
    d.run (d.accepted calls) = d.run calls ∧
      d.replies (d.accepted calls) = (d.replies calls).filter Reply.succeeded := by
  induction calls generalizing d with
  | nil => exact ⟨rfl, rfl⟩
  | cons call calls ih =>
    cases h : (d.call call).succeeded with
    | true =>
      obtain ⟨hrun, hreplies⟩ := ih (d := d.after call)
      rw [accepted_cons_of_succeeded h, run_cons, run_cons, replies_cons, replies_cons,
        List.filter_cons_of_pos h]
      exact ⟨hrun, congrArg _ hreplies⟩
    | false =>
      rw [accepted_cons_of_refused h, run_cons, replies_cons, after_of_refused h,
        List.filter_cons_of_neg (by simp [h])]
      exact ih

theorem undo_of_not_ready (h : d.isReady = false) : d.undo = .error .noMatrix := by
  cases hm : d.matrix with
  | none => simp [undo, hm]
  | some m =>
    rw [isReady, hm] at h
    cases h

/-- **Refused calls leave no trace but their reports.** The calls that are not refused lead to the
same document and get the same results and events without the refused ones between them. A refused
call reports its fault once and keeps the document. With a matrix but without a history an undo
succeeds, reports nothing and changes nothing. -/
theorem refusals_leave_no_trace (d : Document) :
    (∀ calls, d.run (d.accepted calls) = d.run calls ∧
      d.replies (d.accepted calls) = (d.replies calls).filter Reply.succeeded) ∧
    (∀ call fault, (d.call call).result = .error fault →
      (d.call call).events = [.failed fault.kind fault.message] ∧ (d.call call).document = d) ∧
    (d.isReady = true → d.history = [] → d.call .undo = ⟨.ok (), [], d⟩) ∧
    (d.isReady = false → d.call .undo = .refuse d .noMatrix) := by
  refine ⟨run_and_replies_accepted, fun call fault h => ?_, fun hr hh => ?_, fun hr => ?_⟩
  · rw [call_eq_refuse h]
    exact ⟨rfl, rfl⟩
  · show Reply.ofUndo d d.undo = _
    rw [undo_of_history_nil hr hh]
    rfl
  · show Reply.ofUndo d d.undo = _
    rw [undo_of_not_ready hr]
    rfl

/-- A run with a refusal of each origin: reading, the matrix, its shape, and nothing loaded. -/
theorem refusals_leave_no_trace_mixed_run : ∃ calls : List Call,
    (Document.empty.replies calls).map Reply.succeeded =
      [false, true, false, true, false, true, true, false] ∧
    Document.empty.run (Document.empty.accepted calls) = Document.empty.run calls ∧
    (Document.empty.call (.apply "R1 <> R2")).events = [.failed .noMatrix "No matrix loaded"] ∧
    (Document.start ⟨[[.number .one]], 1⟩).call .undo =
      ⟨.ok (), [], .start ⟨[[.number .one]], 1⟩⟩ ∧
    Document.empty.call .undo = .refuse .empty .noMatrix := by
  let calls : List Call := [.apply "R1 <> R2", .setText "2 4\n6 8", .apply "R1 <> 2",
    .apply "R2 = R2 / 4", .apply "R1 = R2 + R1", .undo, .undo, .setText "1 2\n3"]
  refine ⟨calls, by decide +kernel, ((refusals_leave_no_trace .empty).1 calls).1, ?_, ?_, ?_⟩
  · exact ((refusals_leave_no_trace .empty).2.1 (.apply "R1 <> R2") .noMatrix rfl).1
  · exact (refusals_leave_no_trace _).2.2.1 rfl rfl
  · exact (refusals_leave_no_trace .empty).2.2.2 rfl

/-- Before a matrix is set there is no history either, and yet an undo is refused. -/
theorem undo_refused_without_history : ¬ ∀ d : Document, Reachable d → d.history = [] →
    (d.call .undo).result = .ok () ∧ (d.call .undo).events = [] ∧
      (d.call .undo).document = d := by
  intro h
  obtain ⟨hresult, _, _⟩ := h .empty ⟨[], rfl⟩ rfl
  cases hresult

end Document

end Echelon
