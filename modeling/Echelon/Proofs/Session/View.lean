import Echelon.Proofs.Session.Replies
import Echelon.Workbench

/-!
# The view shows the document

A view sees the events of a session and never its document. `Shows` says what it has to agree
with: the matrix, the log, and whether a matrix is set. Every answer of a session keeps a view in
agreement, whatever came before, so a view that folds all events of a run shows the document at its
end. The workbench changes its document and its view in no other way.
-/

namespace Echelon

open Text Document

/-- Time goes on in a watch that runs, and a stopped one stays stopped. -/
theorem Stopwatch.running_tick (s : Stopwatch) : s.tick.running = s.running := by
  unfold tick
  split
  · rename_i hrunning
    exact hrunning.symm
  · rfl

/-- A view agrees with a document. -/
structure View.Shows (v : View) (d : Document) : Prop where
  matrix_eq : v.matrix = d.snapshot
  log_eq : v.log = d.log
  running_eq : v.stopwatch.running = d.isReady

namespace View

variable {v : View} {d e : Document} {text : String}

theorem shows_empty : empty.Shows .empty := ⟨rfl, rfl, rfl⟩

theorem Shows.apply (h : v.Shows d) (ha : d.apply text = .ok e) :
    ([Event.matrixChanged e.snapshot, .operationLogged (trimmed text)].foldl handle v).Shows e := by
  obtain ⟨m, _, next, hm, _, _, rfl⟩ := apply_eq_ok.mp ha
  have hrunning := h.running_eq
  rw [isReady, hm] at hrunning
  refine ⟨rfl, ?_, hrunning⟩
  show v.log ++ [trimmed text] = d.log ++ [trimmed text]
  rw [h.log_eq]

/-- A view takes back the end of its own log, and nothing when that is empty. -/
theorem handle_operationLogRemoved (v : View) :
    (v.handle .operationLogRemoved).log = v.log.dropLast ∧
      (v.handle .operationLogRemoved).stopwatch = v.stopwatch := by
  cases hlast : v.log.getLast? with
  | none =>
    have hnil : v.log = [] := List.getLast?_eq_none_iff.mp hlast
    simp [handle, hnil]
  | some text => simp [handle, hlast]

theorem Shows.undo (h : v.Shows d) (hu : d.undo = .ok (e, text)) :
    ([Event.operationLogRemoved, .matrixChanged e.snapshot].foldl handle v).Shows e := by
  obtain ⟨m, previous, hm, _, rfl, _⟩ := undo_eq_ok.mp hu
  obtain ⟨hlog, hwatch⟩ := v.handle_operationLogRemoved
  have hrunning := h.running_eq
  rw [isReady, hm] at hrunning
  refine ⟨rfl, ?_, ?_⟩
  · show (v.handle .operationLogRemoved).log = d.log.dropLast
    rw [hlog, h.log_eq]
  · show (v.handle .operationLogRemoved).stopwatch.running = true
    rw [hwatch, hrunning]
    rfl

/-- Every answer of a session keeps a view in agreement. -/
theorem Shows.answers (h : v.Shows d) {reply : Reply} (ha : Answers d reply) :
    (reply.events.foldl handle v).Shows reply.document := by
  cases ha with
  | refuse fault => exact ⟨h.matrix_eq, h.log_eq, h.running_eq⟩
  | start m => exact ⟨rfl, rfl, rfl⟩
  | apply happly => exact h.apply happly
  | undo hundo => exact h.undo hundo
  | idle _ => exact h
  | reset => exact ⟨rfl, rfl, rfl⟩

/-- The view of someone who was told everything that happened in a run. -/
def ofReplies (v : View) (replies : List Reply) : View :=
  (replies.flatMap Reply.events).foldl handle v

theorem Shows.run (h : v.Shows d) (calls : List Call) :
    (v.ofReplies (d.replies calls)).Shows (d.run calls) := by
  induction calls generalizing v d with
  | nil => exact h
  | cons call calls ih =>
    have hstep := h.answers (d.answers call)
    rw [call_document] at hstep
    rw [replies_cons, ofReplies, List.flatMap_cons, List.foldl_append]
    exact ih hstep

end View

/-! ## The workbench -/

namespace Workbench

/-- What can happen to a workbench. -/
inductive Move where
  | press (key : Key)
  | edit (key : Key)
  | perform (action : Action)
  | closeHelp
  | scrollHelp (lines : Int)
  /-- A call on the session, past the inputs. -/
  | call (request : Call)
  | tick

/-- The workbench after something happened to it. -/
def move (w : Workbench) : Move → Workbench
  | .press key => w.press key
  | .edit key => w.edit key
  | .perform action => w.perform action
  | .closeHelp => w.closeHelp
  | .scrollHelp lines => w.scrollHelp lines
  | .call request => w.call request
  | .tick => w.tick

/-- The workbenches that the front end can come to. -/
inductive Reachable : Workbench → Prop where
  | start (appearance : Appearance) : Reachable (.start appearance)
  | ofFile {appearance : Appearance} {path : String} {found : Except StoreFault Node}
      {w : Workbench} : ofFile appearance path found = .ok w → Reachable w
  | move {w : Workbench} (m : Move) : Reachable w → Reachable (w.move m)

/-- The view agrees with the document of the session. -/
def Faithful (w : Workbench) : Prop := w.view.Shows w.document

variable {w : Workbench}

theorem faithful_start (appearance : Appearance) : (start appearance).Faithful := View.shows_empty

theorem Faithful.call (h : w.Faithful) (request : Call) : (w.call request).Faithful :=
  View.Shows.answers h (w.document.answers request)

theorem Faithful.setMatrix (h : w.Faithful) : w.setMatrix.Faithful :=
  h.call (.setText w.matrixInput.text)

theorem Faithful.submitOperation (h : w.Faithful) : w.submitOperation.Faithful := by
  by_cases hblank : (trimmed w.operationInput.text).isEmpty = true
  · rw [Workbench.submitOperation, if_pos hblank]
    exact h
  · rw [Workbench.submitOperation, if_neg hblank]
    exact h.call (.apply (trimmed w.operationInput.text))

theorem Faithful.insertNewline (h : w.Faithful) : w.insertNewline.Faithful := by
  unfold Workbench.insertNewline
  split
  · exact h
  · exact h

theorem Faithful.perform (h : w.Faithful) (action : Action) : (w.perform action).Faithful := by
  cases action with
  | setMatrix => exact h.setMatrix
  | insertNewline => exact h.insertNewline
  | submitOperation => exact h.submitOperation
  | undo => exact h.call .undo
  | reset => exact h.call .reset
  | quit => exact h
  | toggleFocus => exact h
  | openHelp => exact h

theorem Faithful.edit (h : w.Faithful) (key : Key) : (w.edit key).Faithful := by
  unfold Workbench.edit
  split
  · exact h
  · exact h

theorem Faithful.press (h : w.Faithful) (key : Key) : (w.press key).Faithful := by
  unfold Workbench.press
  split
  · exact h.perform _
  · exact h.edit key

theorem Faithful.tick (h : w.Faithful) : w.tick.Faithful :=
  ⟨h.matrix_eq, h.log_eq, w.view.stopwatch.running_tick.trans h.running_eq⟩

theorem Faithful.move (h : w.Faithful) (m : Move) : (w.move m).Faithful := by
  cases m with
  | press key => exact h.press key
  | edit key => exact h.edit key
  | perform action => exact h.perform action
  | closeHelp => exact h
  | scrollHelp lines => exact h
  | call request => exact h.call request
  | tick => exact h.tick

theorem faithful_of_ofFile {appearance : Appearance} {path : String}
    {found : Except StoreFault Node} (h : ofFile appearance path found = .ok w) : w.Faithful := by
  obtain ⟨text, _, hset⟩ := Result.bind_eq_ok.mp h
  obtain ⟨_, _, hw⟩ := Result.bind_eq_ok.mp hset
  cases hw
  exact (faithful_start appearance).call (.setText text)

theorem Reachable.faithful (h : Reachable w) : w.Faithful := by
  induction h with
  | start appearance => exact faithful_start appearance
  | ofFile hfile => exact faithful_of_ofFile hfile
  | move m _ ih => exact ih.move m

theorem Reachable.moves (h : Reachable w) (moves : List Move) :
    Reachable (moves.foldl Workbench.move w) := by
  induction moves generalizing w with
  | nil => exact h
  | cons m moves ih => exact ih (h.move m)

end Workbench

/-- **The events of a session alone tell its document.** After any calls, refused or not, a view
that was told all events shows the matrix and the log of the document, and its watch runs when a
matrix is set. So the front end draws the document, whatever keys, actions and calls led to it. -/
theorem view_shows_document :
    (∀ calls, (View.empty.ofReplies (Document.empty.replies calls)).Shows
      (Document.empty.run calls)) ∧
    ∀ w, Workbench.Reachable w → w.view.Shows w.document :=
  ⟨View.shows_empty.run, fun _ hw => hw.faithful⟩

/-- A matrix and operations typed by keys, one of them refused and one taken back. -/
theorem view_shows_document_typed : ∃ w, Workbench.Reachable w ∧ w.view.log = ["R1 <> R2"] ∧
    w.view.matrix.texts = [["3", "4"], ["1", "2"]] ∧ w.view.stopwatch = ⟨true, 1⟩ ∧
    w.view.Shows w.document := by
  let typed (text : String) : List Workbench.Move :=
    text.toList.map fun c => .press { code := .char c }
  let enter : Workbench.Move := .press { code := .enter }
  let moves : List Workbench.Move :=
    typed "1 2" ++ [.perform .insertNewline] ++ typed "3 4" ++ [enter] ++
      typed "R1<>R3" ++ [enter, .tick] ++ typed "R1 <> R2" ++ [enter] ++
      typed "R1 = R1 / 2" ++ [enter, .perform .undo]
  have hr := (Workbench.Reachable.start ⟨10, true⟩).moves moves
  exact ⟨_, hr, by decide +kernel, by decide +kernel, by decide +kernel,
    view_shows_document.2 _ hr⟩

end Echelon
