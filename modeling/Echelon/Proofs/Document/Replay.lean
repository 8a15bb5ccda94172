import Echelon.Proofs.Document.Run

/-!
# The log replays the document

A document that calls lead to is empty or is built from one matrix by the operations of its log,
one after the other: undoing takes the last step of that derivation away, and every other way to go
on starts a new one or adds a step. The history and the log are read off the derivation.
-/

namespace Echelon.Document

open Text

/-- A document that calls lead to. -/
def Reachable (d : Document) : Prop := ∃ calls, Document.empty.run calls = d

/-- The documents that operations lead to from a matrix. -/
inductive Built (base : Matrix) : Document → Prop where
  | start : Built base (.start base)
  | apply {d e : Document} {text : String} : Built base d → d.apply text = .ok e → Built base e

namespace Built

variable {base : Matrix} {d : Document}

/-- Undoing leads back along the derivation. -/
theorem undo {e : Document} {text : String} (h : Built base d) (hu : d.undo = .ok (e, text)) :
    Built base e := by
  cases h with
  | start =>
    rw [undo_of_history_nil rfl rfl] at hu
    cases hu
  | apply hb ha =>
    rw [undo_of_apply ha] at hu
    cases hu
    exact hb

theorem exists_matrix (h : Built base d) : ∃ m, d.matrix = some m := by
  cases h with
  | start => exact ⟨base, rfl⟩
  | apply _ ha =>
    obtain ⟨_, _, next, _, _, _, rfl⟩ := apply_eq_ok.mp ha
    exact ⟨next, rfl⟩

theorem length_eq (h : Built base d) : d.history.length = d.log.length := by
  induction h with
  | start => rfl
  | apply _ ha ih =>
    obtain ⟨_, _, _, _, _, _, rfl⟩ := apply_eq_ok.mp ha
    rw [List.length_append, List.length_append, ih]
    rfl

/-- The first matrix of the history is the one that the derivation starts from. -/
theorem headD_history (h : Built base d) {m : Matrix} (hm : d.matrix = some m) :
    d.history.headD m = base := by
  induction h generalizing m with
  | start =>
    cases hm
    rfl
  | @apply d e text _ ha ih =>
    obtain ⟨before, _, _, hb, _, _, rfl⟩ := apply_eq_ok.mp ha
    have hi := ih hb
    cases hh : d.history with
    | nil =>
      rw [hh] at hi
      exact hi
    | cons first rest =>
      rw [hh] at hi
      exact hi

theorem foldlM_log (h : Built base d) :
    d.log.foldlM Document.apply (Document.start base) = .ok d := by
  induction h with
  | start => rfl
  | @apply d e text _ ha ih =>
    have hlog : e.log = d.log ++ [trimmed text] := by
      obtain ⟨_, _, _, _, _, _, rfl⟩ := apply_eq_ok.mp ha
      rfl
    rw [hlog, List.foldlM_append, ih, Result.ok_bind, List.foldlM_cons, apply_trimmed, ha]
    rfl

/-- Each operation of the log leads from its snapshot to the next matrix. -/
theorem step (h : Built base d) {m : Matrix} (hm : d.matrix = some m) {i : Nat}
    (hi : i < d.log.length) :
    ∃ op before next, Operation.parse d.log[i] = .ok op ∧ d.history[i]? = some before ∧
      (d.history ++ [m])[i + 1]? = some next ∧ before.apply op = .ok next := by
  induction h generalizing m with
  | start => exact absurd hi (Nat.not_lt_zero i)
  | @apply d e text hd ha ih =>
    obtain ⟨current, op, _, hcurrent, hop, hnext, rfl⟩ := apply_eq_ok.mp ha
    have hlen := hd.length_eq
    cases hm
    by_cases hold : i < d.log.length
    · obtain ⟨op', before, after, hparse, hbefore, hafter, happly⟩ := ih hcurrent hold
      refine ⟨op', before, after, ?_, ?_, ?_, happly⟩
      · rw [← hparse]
        exact congrArg Operation.parse (List.getElem_append_left hold)
      · rw [List.getElem?_append_left (by omega), hbefore]
      · rw [List.getElem?_append_left (by simp; omega), hafter]
    · have hlast : i = d.log.length := by
        simp only [List.length_append, List.length_singleton] at hi
        omega
      subst hlast
      refine ⟨op, current, m, ?_, ?_, ?_, hnext⟩
      · rw [← hop, ← parse_trimmed text]
        exact congrArg Operation.parse (by simp)
      · rw [← hlen, List.getElem?_concat_length]
      · rw [← hlen, ← List.length_concat (a := current), List.concat_eq_append,
          List.getElem?_concat_length]

end Built

/-- Every way to go on keeps to a derivation or leaves the document empty. -/
theorem empty_or_built_of_leads {d e : Document} (h : d = .empty ∨ ∃ base, Built base d)
    (hl : Leads d e) : e = .empty ∨ ∃ base, Built base e := by
  cases hl with
  | stay => exact h
  | clear => exact Or.inl rfl
  | @start _ m _ => exact Or.inr ⟨m, .start⟩
  | apply ha =>
    rcases h with rfl | ⟨base, hb⟩
    · cases ha
    · exact Or.inr ⟨base, hb.apply ha⟩
  | undo hu =>
    rcases h with rfl | ⟨base, hb⟩
    · cases hu
    · exact Or.inr ⟨base, hb.undo hu⟩

theorem Reachable.empty_or_built {d : Document} (h : Reachable d) :
    d = .empty ∨ ∃ base, Built base d := by
  obtain ⟨calls, rfl⟩ := h
  exact run_induction (P := fun d => d = .empty ∨ ∃ base, Built base d) (Or.inl rfl)
    empty_or_built_of_leads calls

/-- **The log replays the document.** History and log are in step and empty without a matrix; each
logged operation leads from its snapshot to the next matrix, the last one to the live matrix; and
applying the log to the first of them gives the document again. -/
theorem log_replays {d : Document} (h : Reachable d) :
    d.history.length = d.log.length ∧
    (d.matrix = none → d.history = [] ∧ d.log = []) ∧
    ∀ m, d.matrix = some m →
      (∀ (i : Nat) (hi : i < d.log.length), ∃ op before next,
        Operation.parse d.log[i] = .ok op ∧ d.history[i]? = some before ∧
        (d.history ++ [m])[i + 1]? = some next ∧ before.apply op = .ok next) ∧
      d.log.foldlM Document.apply (Document.start (d.history.headD m)) = .ok d := by
  rcases h.empty_or_built with rfl | ⟨base, hb⟩
  · refine ⟨rfl, fun _ => ⟨rfl, rfl⟩, fun m hm => ?_⟩
    cases hm
  · refine ⟨hb.length_eq, fun hn => ?_, fun m hm => ⟨fun i hi => hb.step hm hi, ?_⟩⟩
    · obtain ⟨m, hm⟩ := hb.exists_matrix
      rw [hn] at hm
      cases hm
    · rw [hb.headD_history hm]
      exact hb.foldlM_log

/-- A run with refused calls and an undo, and the log that replays it. -/
theorem log_replays_mixed_run : ∃ d m, Reachable d ∧ d.matrix = some m ∧
    d.log = ["R1 <> R2", "R2 = R2 / 2"] ∧ d.history.length = 2 ∧
    d.log.foldlM Document.apply (Document.start (d.history.headD m)) = .ok d := by
  let calls : List Call := [.undo, .setText "2 4\n6 8", .apply " R1 <> R2\t", .apply "R1 = R3",
    .apply "R2 = R2 / 2", .apply "R1 = R1 - 2R2", .undo]
  have hr : Reachable (Document.empty.run calls) := ⟨calls, rfl⟩
  have hm : (Document.empty.run calls).matrix = some (Document.empty.run calls).snapshot := by
    decide +kernel
  have hlog : (Document.empty.run calls).log = ["R1 <> R2", "R2 = R2 / 2"] := by decide +kernel
  obtain ⟨hlength, _, hreplay⟩ := log_replays hr
  exact ⟨_, _, hr, hm, hlog, by rw [hlength, hlog]; rfl, (hreplay _ hm).2⟩

end Echelon.Document
