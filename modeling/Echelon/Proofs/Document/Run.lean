import Echelon.Proofs.Results
import Echelon.Proofs.Text.Trim
import Echelon.Session

/-!
# Runs of a document

A call asks for a next document or is refused, and a refused call leaves the document as it is; a
session keeps its document in the same way. `Leads` lists all that a call can do, so an invariant
of runs is settled by its five cases. An operation and the undo after it cancel out.
-/

namespace Echelon.Document

open Text Result

/-- The document that a call asks for, or the fault that refuses it. -/
def attempt (d : Document) : Call → Except Fault Document
  | .setTokens rows => ofTokens rows
  | .setText text => ofText text
  | .load path found => ofFile path found
  | .apply text => d.apply text
  | .undo => d.undo.map Prod.fst
  | .reset => .ok .empty

/-- The document after a call. -/
def after (d : Document) (call : Call) : Document :=
  match d.attempt call with
  | .ok next => next
  | .error _ => d

/-- The document after some calls, each refused or not. -/
def run (d : Document) (calls : List Call) : Document := calls.foldl after d

theorem after_of_ok {d e : Document} {call : Call} (h : d.attempt call = .ok e) :
    d.after call = e := by
  rw [after, h]

theorem after_of_error {d : Document} {call : Call} {fault : Fault}
    (h : d.attempt call = .error fault) : d.after call = d := by
  rw [after, h]

theorem run_cons (d : Document) (call : Call) (calls : List Call) :
    d.run (call :: calls) = (d.after call).run calls := rfl

theorem run_append (d : Document) (calls more : List Call) :
    d.run (calls ++ more) = (d.run calls).run more := List.foldl_append

theorem ofStart_document {d : Document} {call : Call}
    (h : d.call call = .ofStart d (d.attempt call)) : (d.call call).document = d.after call := by
  rw [h, after]
  cases d.attempt call <;> rfl

/-- The document of a session moves by the same rule. -/
theorem call_document (d : Document) (call : Call) : (d.call call).document = d.after call := by
  cases call with
  | setTokens rows => exact ofStart_document (by rw [call, attempt])
  | setText text => exact ofStart_document (by rw [call, attempt])
  | load path found => exact ofStart_document (by rw [call, attempt])
  | apply text =>
    cases h : d.apply text with
    | ok next => simp [call, after, attempt, h, Reply.ofApply]
    | error fault => simp [call, after, attempt, h, Reply.ofApply, Reply.refuse]
  | undo =>
    cases h : d.undo with
    | ok result => simp [call, after, attempt, h, Reply.ofUndo, Except.map]
    | error fault =>
      cases fault <;> simp [call, after, attempt, h, Reply.ofUndo, Reply.refuse, Except.map]
  | reset => rfl

/-! ## Operations and their undo -/

theorem parse_trimmed (text : String) : Operation.parse (trimmed text) = Operation.parse text := by
  rw [Operation.parse, trimmed_trimmed, Operation.parse]

theorem apply_eq_ok {d e : Document} {text : String} :
    d.apply text = .ok e ↔ ∃ m op next, d.matrix = some m ∧ Operation.parse text = .ok op ∧
      m.apply op = .ok next ∧ e = ⟨some next, d.history ++ [m], d.log ++ [trimmed text]⟩ := by
  unfold apply
  split
  · rename_i hm
    constructor
    · intro h
      cases h
    · rintro ⟨m, op, next, hsome, _⟩
      rw [hm] at hsome
      cases hsome
  · rename_i m hm
    simp only [parse_trimmed, bind_eq_ok]
    constructor
    · rintro ⟨op, hop, next, hnext, he⟩
      cases he
      exact ⟨m, op, next, hm, hop, hnext, rfl⟩
    · rintro ⟨m', op, next, hsome, hop, hnext, rfl⟩
      rw [hm] at hsome
      cases hsome
      exact ⟨op, hop, next, hnext, rfl⟩

/-- An operation is refused without a matrix, by its reading, or by the matrix. -/
theorem apply_eq_error {d : Document} {text : String} {fault : Fault} :
    d.apply text = .error fault ↔ (d.matrix = none ∧ fault = .noMatrix) ∨
      ∃ m, d.matrix = some m ∧ (Operation.parse text = .error fault ∨
        ∃ op, Operation.parse text = .ok op ∧ m.apply op = .error fault) := by
  unfold apply
  split
  · rename_i hm
    simp [hm, eq_comm]
  · rename_i m hm
    simp [parse_trimmed, bind_eq_error, hm]

theorem apply_trimmed (d : Document) (text : String) : d.apply (trimmed text) = d.apply text := by
  unfold apply
  rw [trimmed_trimmed]

theorem undo_eq_ok {d e : Document} {text : String} :
    d.undo = .ok (e, text) ↔ ∃ m previous, d.matrix = some m ∧ d.history.getLast? = some previous ∧
      e = ⟨some previous, d.history.dropLast, d.log.dropLast⟩ ∧ text = d.log.getLast?.getD "" := by
  unfold undo
  cases hm : d.matrix with
  | none => simp
  | some m =>
    cases hl : d.history.getLast? with
    | none => simp
    | some previous =>
      simp only [Option.isNone_some, Bool.false_eq_true, if_false, Except.ok.injEq, Prod.mk.injEq]
      constructor
      · rintro ⟨rfl, rfl⟩
        exact ⟨m, previous, rfl, rfl, rfl, rfl⟩
      · rintro ⟨_, _, _, hp, rfl, rfl⟩
        cases hp
        exact ⟨rfl, rfl⟩

/-- Undoing right after an operation brings back the document before it and its trimmed text. -/
theorem undo_of_apply {d e : Document} {text : String} (h : d.apply text = .ok e) :
    e.undo = .ok (d, trimmed text) := by
  obtain ⟨m, op, next, hm, _, _, rfl⟩ := apply_eq_ok.mp h
  refine undo_eq_ok.mpr ⟨next, m, rfl, List.getLast?_concat, ?_, ?_⟩
  · rw [List.dropLast_concat, List.dropLast_concat, ← hm]
  · rw [List.getLast?_concat]
    rfl

theorem undo_of_history_nil {d : Document} (hr : d.isReady = true) (hh : d.history = []) :
    d.undo = .error .emptyHistory := by
  cases hm : d.matrix with
  | none =>
    rw [isReady, hm] at hr
    cases hr
  | some m => simp [undo, hm, hh]

/-! ## All that a call can do -/

/-- The ways in which a call can lead from one document to the next. -/
inductive Leads (d : Document) : Document → Prop where
  | stay : Leads d d
  | clear : Leads d .empty
  | start {rows : List (List String)} {m : Matrix} :
      Matrix.ofTokens rows = .ok m → Leads d (.start m)
  | apply {e : Document} {text : String} : d.apply text = .ok e → Leads d e
  | undo {e : Document} {text : String} : d.undo = .ok (e, text) → Leads d e

theorem leads_of_ofTokens (d : Document) {e : Document} {rows : List (List String)}
    (h : ofTokens rows = .ok e) : Leads d e := by
  obtain ⟨m, hm, rfl⟩ := map_eq_ok.mp h
  exact .start hm

theorem leads_of_ofText (d : Document) {e : Document} {text : String} (h : ofText text = .ok e) :
    Leads d e := by
  obtain ⟨m, hm, rfl⟩ := map_eq_ok.mp h
  obtain ⟨rows, _, hrows⟩ := bind_eq_ok.mp hm
  exact .start hrows

theorem leads_of_attempt {d e : Document} {call : Call} (h : d.attempt call = .ok e) :
    Leads d e := by
  cases call with
  | setTokens rows => exact leads_of_ofTokens d h
  | setText text => exact leads_of_ofText d h
  | load path found =>
    obtain ⟨text, _, htext⟩ := bind_eq_ok.mp h
    exact leads_of_ofText d htext
  | apply text => exact .apply h
  | undo =>
    obtain ⟨⟨next, text⟩, hu, rfl⟩ := map_eq_ok.mp h
    exact .undo hu
  | reset =>
    cases h
    exact .clear

theorem leads_after (d : Document) (call : Call) : Leads d (d.after call) := by
  cases h : d.attempt call with
  | ok e =>
    rw [after_of_ok h]
    exact leads_of_attempt h
  | error fault =>
    rw [after_of_error h]
    exact .stay

/-- What holds at the start of a run and is kept by each way to go on holds at its end. -/
theorem run_induction {P : Document → Prop} {d : Document} (h0 : P d)
    (hs : ∀ {e f : Document}, P e → Leads e f → P f) (calls : List Call) : P (d.run calls) := by
  induction calls generalizing d with
  | nil => exact h0
  | cons call calls ih =>
    rw [run_cons]
    exact ih (hs h0 (leads_after d call))

end Echelon.Document
