import Echelon.CommandLine
import Echelon.Proofs.Document.ReadBack
import Echelon.Proofs.Matrix.Refusal
import Echelon.Proofs.Operation.Classification
import Echelon.Proofs.Store.Write

/-!
# Command mode is a fold

A run in command mode loads its matrix and folds the steps over the document. The first fault ends
the fold, and the run ends with it before anything is printed or written. Otherwise the rows of the
last document are printed, one on a line, and its report is written last.
-/

namespace Echelon

open Result

/-! ## Steps -/

/-- Only a file that cannot be read has a cause of its own. -/
theorem Fault.trace_eq_message {fault : Fault} (h : fault.kind ≠ .unreadable) :
    fault.trace = fault.message := by
  cases fault with
  | unreadable cause => exact absurd rfl h
  | _ => rfl

namespace Document

open CommandLine

/-- The document after a step. Undoing without a history changes nothing. -/
def advance (d : Document) : Step → Except Fault Document
  | .apply text => d.apply text
  | .undo =>
    match d.undo with
    | .ok (e, _) => .ok e
    | .error .emptyHistory => .ok d
    | .error fault => .error fault

variable {d e : Document} {step : Step}

/-- All that a step can lead to. -/
inductive Follows (d : Document) : Step → Document → Prop where
  | apply {e : Document} {text : String} : d.apply text = .ok e → Follows d (.apply text) e
  | undo {e : Document} {text : String} : d.undo = .ok (e, text) → Follows d .undo e
  | idle : d.undo = .error .emptyHistory → Follows d .undo d

theorem follows_of_advance (h : d.advance step = .ok e) : Follows d step e := by
  cases step with
  | apply text => exact .apply h
  | undo =>
    simp only [advance] at h
    split at h
    · rename_i hundo
      cases h
      exact .undo hundo
    · rename_i hundo
      cases h
      exact .idle hundo
    · cases h

theorem Follows.leads (h : Follows d step e) : Leads d e := by
  cases h with
  | apply ha => exact .apply ha
  | undo hu => exact .undo hu
  | idle _ => exact .stay

theorem kind_of_apply {text : String} {fault : Fault} (h : d.apply text = .error fault) :
    fault.kind ≠ .unreadable := by
  rcases apply_eq_error.mp h with ⟨_, rfl⟩ | ⟨m, _, hparse | ⟨op, _, happly⟩⟩
  · simp [Fault.kind]
  · cases Grammar.refused_of_parse hparse <;> simp [Fault.kind]
  · cases (Matrix.first_of_apply happly).objects <;> simp [Fault.kind]

theorem undo_eq_error {fault : Fault} (h : d.undo = .error fault) :
    fault = .noMatrix ∨ fault = .emptyHistory := by
  unfold undo at h
  split at h
  · cases h
    exact Or.inl rfl
  · split at h
    · cases h
      exact Or.inr rfl
    · cases h

theorem kind_of_advance {fault : Fault} (h : d.advance step = .error fault) :
    fault.kind ≠ .unreadable := by
  cases step with
  | apply text => exact kind_of_apply h
  | undo =>
    simp only [advance] at h
    split at h
    · cases h
    · cases h
    · rename_i hundo
      cases h
      rcases undo_eq_error hundo with rfl | rfl
      · simp [Fault.kind]
      · simp [Fault.kind]

/-- A step answers the document that it leads to. -/
theorem follow_eq_advance (step : Step) (d : Document) : step.follow d = d.advance step := by
  cases step with
  | apply text => cases h : d.apply text <;> simp [Step.follow, callOf, call, advance, h,
      Reply.ofApply, Reply.refuse, Except.map]
  | undo =>
    cases h : d.undo with
    | ok result => simp [Step.follow, callOf, call, advance, h, Reply.ofUndo, Except.map]
    | error fault =>
      cases fault <;> simp [Step.follow, callOf, call, advance, h, Reply.ofUndo, Reply.refuse,
        Except.map]

/-! ## Runs of steps -/

theorem leads_of_ofFile {path : String} {found : Except StoreFault Node}
    (h : ofFile path found = .ok d) : Leads .empty d := by
  have hattempt : Document.empty.attempt (.load path found) = .ok d := h
  exact leads_of_attempt hattempt

theorem WellFormed.foldlM_advance {steps : List Step} (hd : d.WellFormed)
    (h : steps.foldlM advance d = .ok e) : e.WellFormed :=
  foldlM_induction hd (fun hb hstep => hb.leads (follows_of_advance hstep).leads) h

/-- The plain form has a line for each row, with a space between the cells. -/
theorem WellFormed.hasLines_plain (h : d.WellFormed) :
    Matrix.HasLines d.plain (d.snapshot.texts.map (" ".intercalate ·)) := by
  cases hm : d.matrix with
  | none =>
    rw [plain, snapshot, hm]
    rfl
  | some m =>
    have hmem : m ∈ d.matrices := by simp [matrices, hm]
    rw [plain_eq hm, snapshot, hm]
    exact Matrix.hasLines_written (h.wellFormed m hmem).word_of_mem_texts

end Document

namespace CommandLine

open Document

theorem followAll_eq (d : Document) (steps : List Step) :
    followAll d steps = steps.foldlM advance d := by
  simp only [followAll, follow_eq_advance]

variable {s : Store} {path : String} {steps : List Step} {d e : Document} {fault : Fault}

theorem document_of_refused (h : ofFile path (s.look path) = .error fault) :
    document s path steps = .error ("loading " ++ path ++ ": " ++ fault.trace) := by
  simp [document, call, h, Reply.ofStart, Reply.refuse]

theorem document_of_loaded (h : ofFile path (s.look path) = .ok d) :
    document s path steps =
      match steps.foldlM advance d with
      | .ok e => .ok e
      | .error fault => .error fault.trace := by
  simp only [document, call, h, Reply.ofStart, followAll_eq]
  cases steps.foldlM advance d <;> rfl

/-- Steps are never refused for a file, so their faults have no causes of their own. -/
theorem document_of_fault (h : ofFile path (s.look path) = .ok d)
    (hfault : steps.foldlM advance d = .error fault) :
    document s path steps = .error fault.message := by
  obtain ⟨_, _, _, _, _, _, hstep⟩ := foldlM_eq_error.mp hfault
  rw [document_of_loaded h, hfault, ← Fault.trace_eq_message (kind_of_advance hstep)]

theorem document_of_ok (h : ofFile path (s.look path) = .ok d)
    (hok : steps.foldlM advance d = .ok e) : document s path steps = .ok e := by
  rw [document_of_loaded h, hok]

/-! ## Outcomes -/

variable {report settings : Option String}

theorem runSteps_of_refused (h : ofFile path (s.look path) = .error fault) :
    runSteps s ⟨steps, report, settings, some path⟩ =
      .failure s ("loading " ++ path ++ ": " ++ fault.trace) := by
  simp [runSteps, document_of_refused h]

theorem runSteps_of_fault (h : ofFile path (s.look path) = .ok d)
    (hfault : steps.foldlM advance d = .error fault) :
    runSteps s ⟨steps, report, settings, some path⟩ = .failure s fault.message := by
  simp [runSteps, document_of_fault h hfault]

theorem runSteps_of_ok (h : ofFile path (s.look path) = .ok d)
    (hok : steps.foldlM advance d = .ok e) :
    runSteps s ⟨steps, report, settings, some path⟩ = finish s report e := by
  simp [runSteps, document_of_ok h hok]

theorem printed_finish (s : Store) (report : Option String) (d : Document) :
    (finish s report d).printed = d.plain := by
  unfold finish
  split
  · rfl
  · split <;> rfl

theorem finish_of_write {out : String} {next : Store} (h : s.write out d.markdown = .ok next) :
    finish s (some out) d = ⟨0, d.plain, "Result written to " ++ out ++ "\n", next⟩ := by
  simp [finish, writeReport, h]

theorem finish_of_refused_write {out : String} {why : StoreFault}
    (h : s.write out d.markdown = .error why) :
    finish s (some out) d =
      { Outcome.failure s (Fault.unreadable why.message).trace with printed := d.plain } := by
  simp [finish, writeReport, h]

/-- The program puts the warnings about the settings and the journal before what a run of command
mode says. -/
theorem runPlan_of_isCommandMode (around : Surroundings) {plan : Plan}
    (h : plan.isCommandMode = true) : ∃ warnings filter,
      runPlan around plan = ((runSteps around.store plan).logged
        (around.platform.writeJournal .complaints filter (journal around.store plan))).warned
          warnings := by
  refine ⟨(around.settings plan).2, (around.filter? (around.settings plan).1).getD "warn", ?_⟩
  simp only [runPlan, h, if_true, runCommands]

/-- **Command mode folds the steps over the loaded document, all or nothing.** If the matrix cannot
be loaded or a step is refused, the run fails, prints nothing and leaves all files as they are,
whatever steps come later. Otherwise it prints the rows of the document that the steps lead to, one
on a line, and a report holds the Markdown form of that document. Only warnings about the settings
and the journal stand before what a run complains of. -/
theorem steps_all_or_nothing (s : Store) (path : String) (steps : List Step)
    (report settings : Option String) :
    let plan : Plan := ⟨steps, report, settings, some path⟩
    (∀ around : Surroundings, around.store = s → plan.isCommandMode = true →
      ∃ warnings filter, runPlan around plan = ((runSteps s plan).logged
        (around.platform.writeJournal .complaints filter (journal s plan))).warned warnings) ∧
    (∀ fault, ofFile path (s.look path) = .error fault →
      runSteps s plan =
        ⟨1, "", "Error: " ++ ("loading " ++ path ++ ": " ++ fault.trace) ++ "\n", s⟩) ∧
    ∀ d, ofFile path (s.look path) = .ok d →
      (∀ fault, steps.foldlM advance d = .error fault →
        runSteps s plan = ⟨1, "", "Error: " ++ fault.message ++ "\n", s⟩ ∧
        ∃ before step after e, steps = before ++ step :: after ∧
          before.foldlM advance d = .ok e ∧ e.advance step = .error fault ∧
          ∀ others, runSteps s { plan with steps := before ++ step :: others } = runSteps s plan) ∧
      ∀ e, steps.foldlM advance d = .ok e →
        Matrix.HasLines (runSteps s plan).printed (e.snapshot.texts.map (" ".intercalate ·)) ∧
        (report = none → (runSteps s plan).code = 0 ∧ (runSteps s plan).store = s) ∧
        ∀ out, report = some out →
          (∀ next, s.write out e.markdown = .ok next → (runSteps s plan).code = 0 ∧
            (runSteps s plan).store = next ∧
            next.look out = .ok (.file e.markdown.toUTF8)) ∧
          ∀ why, s.write out e.markdown = .error why →
            (runSteps s plan).code = 1 ∧ (runSteps s plan).store = s := by
  intro plan
  refine ⟨?_, fun fault h => ?_, fun d hd => ⟨fun fault hfault => ?_, fun e he => ?_⟩⟩
  · rintro around rfl h
    exact runPlan_of_isCommandMode around h
  · exact runSteps_of_refused h
  · have hrun : runSteps s plan = .failure s fault.message := runSteps_of_fault hd hfault
    obtain ⟨before, step, after, e, hsteps, hbefore, hstep⟩ := foldlM_eq_error.mp hfault
    refine ⟨hrun, before, step, after, e, hsteps, hbefore, hstep, fun others => ?_⟩
    rw [hrun]
    exact runSteps_of_fault hd (foldlM_eq_error.mpr
      ⟨before, step, others, e, rfl, hbefore, hstep⟩)
  · have hrun : runSteps s plan = finish s report e := runSteps_of_ok hd he
    have hwell : e.WellFormed := (wellFormed_empty.leads (leads_of_ofFile hd)).foldlM_advance he
    rw [hrun, printed_finish]
    refine ⟨hwell.hasLines_plain, ?_, ?_⟩
    · rintro rfl
      exact ⟨rfl, rfl⟩
    · rintro out rfl
      refine ⟨fun next hwrite => ?_, fun why hwrite => ?_⟩
      · rw [finish_of_write hwrite]
        exact ⟨rfl, rfl, Store.look_of_write hwrite⟩
      · rw [finish_of_refused_write hwrite]
        exact ⟨rfl, rfl⟩

/-- Steps with an undo too many and a report, and the same steps before one that is refused. -/
theorem steps_all_or_nothing_report : ∃ s d e next,
    let steps : List Step := [.apply "R1 <> R2", .undo, .undo, .apply " R2 = R2 / 4"]
    let plan : Plan := ⟨steps, some "out.md", none, some "m.txt"⟩
    let longer : Plan := { plan with steps := steps ++ [.apply "R9 <> R1", .undo] }
    ofFile "m.txt" (s.look "m.txt") = .ok d ∧ steps.foldlM advance d = .ok e ∧
    s.write "out.md" e.markdown = .ok next ∧ (runSteps s plan).code = 0 ∧
    Matrix.HasLines (runSteps s plan).printed ["2 4", "6/4 2"] ∧ next ≠ s ∧
    (runSteps s plan).store = next ∧ next.look "out.md" = .ok (.file e.markdown.toUTF8) ∧
    runSteps s longer =
      ⟨1, "", "Error: Row R9 is out of range (matrix has 2 rows)\n", s⟩ := by
  let s : Store :=
    ⟨[(["work"], .directory), (["work", "m.txt"], .file "2 4\n6 8\n".toUTF8)], ["work"]⟩
  let steps : List Step := [.apply "R1 <> R2", .undo, .undo, .apply " R2 = R2 / 4"]
  let more : List Step := steps ++ [.apply "R9 <> R1", .undo]
  let d := Document.empty.run [.setText "2 4\n6 8"]
  let e := d.run [.apply "R2 = R2 / 4"]
  let next := s.put ["work", "out.md"] (.file e.markdown.toUTF8)
  have hd : ofFile "m.txt" (s.look "m.txt") = .ok d := by decide +kernel
  have he : steps.foldlM advance d = .ok e := by decide +kernel
  have hnext : s.write "out.md" e.markdown = .ok next := by decide +kernel
  have hfault : more.foldlM advance d = .error (.rowOutOfRange 9 2) := by decide +kernel
  have hlines : e.snapshot.texts.map (" ".intercalate ·) = ["2 4", "6/4 2"] := by decide +kernel
  obtain ⟨_, _, hrun⟩ := steps_all_or_nothing s "m.txt" steps (some "out.md") none
  obtain ⟨hprinted, _, hreport⟩ := (hrun d hd).2 e he
  obtain ⟨hcode, hstore, hlook⟩ := (hreport "out.md" rfl).1 next hnext
  obtain ⟨_, _, hmore⟩ := steps_all_or_nothing s "m.txt" more (some "out.md") none
  rw [hlines] at hprinted
  exact ⟨s, d, e, next, hd, he, hnext, hcode, hprinted, by decide +kernel, hstore, hlook,
    ((hmore d hd).1 _ hfault).1⟩

end CommandLine

end Echelon
