import Echelon.Proofs.CommandLine.Steps
import Echelon.Proofs.Document.Files

/-!
# Reports can be reproduced

The document that a run ends with is built from the matrix file by the operations of its log alone:
the ones that were undone are in no part of it. So a run with one step for each entry of the log
prints the same rows and writes the same report, on the files that the first run started from, on
those that it left, and wherever else the same matrix is found.
-/

namespace Echelon

open Result

/-! ## Documents that steps lead to -/

namespace Document

open CommandLine

variable {d e : Document} {base : Matrix}

theorem Built.foldlM_advance {steps : List Step} (h : Built base d)
    (hsteps : steps.foldlM advance d = .ok e) : Built base e := by
  refine foldlM_induction h (fun hb hstep => ?_) hsteps
  cases follows_of_advance hstep with
  | apply happly => exact hb.apply happly
  | undo hundo => exact hb.undo hundo
  | idle _ => exact hb

/-- Following the log leads to the document again. -/
theorem Built.foldlM_log_steps (h : Built base d) :
    (d.log.map Step.apply).foldlM advance (.start base) = .ok d := by
  rw [List.foldlM_map]
  exact h.foldlM_log

end Document

namespace CommandLine

open Document

variable {s t : Store} {path other out : String} {steps : List Step} {e : Document} {plan : Plan}

theorem document_eq_ok : document s path steps = .ok e ↔
    ∃ d, ofFile path (s.look path) = .ok d ∧ steps.foldlM advance d = .ok e := by
  constructor
  · intro h
    cases hload : ofFile path (s.look path) with
    | error fault =>
      rw [document_of_refused hload] at h
      cases h
    | ok d =>
      cases hsteps : steps.foldlM advance d with
      | error fault =>
        rw [document_of_fault hload hsteps] at h
        cases h
      | ok last =>
        rw [document_of_ok hload hsteps] at h
        cases h
        exact ⟨d, rfl, hsteps⟩
  · rintro ⟨d, hload, hsteps⟩
    exact document_of_ok hload hsteps

/-- Wherever the same matrix is found, the log leads to the same document. -/
theorem document_log (h : document s path steps = .ok e) (hlook : t.look other = s.look path) :
    document t other (e.log.map .apply) = .ok e := by
  obtain ⟨d, hload, hsteps⟩ := document_eq_ok.mp h
  obtain ⟨base, rfl⟩ := start_of_ofFile hload
  have hbuilt : Built base e := Built.start.foldlM_advance hsteps
  rw [← hlook] at hload
  exact document_of_ok (ofFile_of_ok hload) hbuilt.foldlM_log_steps

/-! ## Runs with a report -/

theorem look_of_document (h : document s path steps = .ok e) :
    ∃ found, s.look path = .ok found := by
  obtain ⟨d, hload, _⟩ := document_eq_ok.mp h
  cases hlook : s.look path with
  | error why =>
    rw [hlook] at hload
    cases hload
  | ok found => exact ⟨found, rfl⟩

theorem runPlan_of_report (around : Surroundings) (hreport : plan.report = some out) :
    ∃ warnings text, runPlan around plan =
      ((runSteps around.store plan).logged text).warned warnings := by
  have hmode : plan.isCommandMode = true := by simp [Plan.isCommandMode, hreport]
  obtain ⟨warnings, _, hrun⟩ := runPlan_of_isCommandMode around hmode
  exact ⟨warnings, _, hrun⟩

/-- A run with a report succeeds when its steps do and the report can be written. -/
theorem exists_of_code (hmatrix : plan.matrix = some path) (hreport : plan.report = some out)
    (h : (runSteps s plan).code = 0) : ∃ e next, document s path plan.steps = .ok e ∧
      s.write out e.markdown = .ok next := by
  cases hd : document s path plan.steps with
  | error message => simp [runSteps, hmatrix, hd, Outcome.failure] at h
  | ok e =>
    cases hwrite : s.write out e.markdown with
    | error why =>
      simp [runSteps, hmatrix, hreport, hd, finish_of_refused_write hwrite, Outcome.failure] at h
    | ok next => exact ⟨e, next, rfl, hwrite⟩

/-- A run whose steps succeed prints the document and leaves the files with the report. -/
theorem runPlan_of_write (around : Surroundings) (plan : Plan) {next : Store}
    (hmatrix : plan.matrix = some path) (hreport : plan.report = some out)
    (hd : document around.store path plan.steps = .ok e)
    (hwrite : around.store.write out e.markdown = .ok next) :
    (runPlan around plan).code = 0 ∧ (runPlan around plan).printed = e.plain ∧
      (runPlan around plan).store = next := by
  obtain ⟨warnings, text, hrun⟩ := runPlan_of_report around hreport
  have hsteps : runSteps around.store plan = finish around.store (some out) e := by
    simp [runSteps, hmatrix, hreport, hd]
  rw [hrun, hsteps, finish_of_write hwrite]
  exact ⟨rfl, rfl, rfl⟩

/-- **Reports can be reproduced from the log.** When a run succeeds and its report goes to another
file than the matrix, a run with one step for each entry of the log succeeds too, ends with the same
document, prints the same, and leaves the same files, before and after the report was written. With
the same matrix found elsewhere, or under another name, the report has the same bytes as well. -/
theorem reports_reproduce {around : Surroundings} {plan : Plan} {path out : String}
    (hmatrix : plan.matrix = some path) (hreport : plan.report = some out)
    (hother : around.store.locate path ≠ around.store.locate out)
    (hcode : (runPlan around plan).code = 0) :
    ∃ e, document around.store path plan.steps = .ok e ∧
      let first := runPlan around plan
      let replay := e.log.map Step.apply
      first.store.look out = .ok (.file e.markdown.toUTF8) ∧
      document around.store path replay = .ok e ∧
      (∀ t, t = around.store ∨ t = first.store →
        let second := runPlan { around with store := t } { plan with steps := replay }
        second.code = 0 ∧ second.printed = first.printed ∧ second.store = first.store) ∧
      ∀ (there : Surroundings) (settings : Option String) (name report : String) (next : Store),
        there.store.look name = around.store.look path →
        there.store.write report e.markdown = .ok next →
        let second := runPlan there ⟨replay, some report, settings, some name⟩
        second.code = 0 ∧ second.printed = first.printed ∧
          second.store.look report = first.store.look out := by
  obtain ⟨warnings, text, hrun⟩ := runPlan_of_report around hreport
  rw [hrun] at hcode
  obtain ⟨e, next, hd, hwrite⟩ := exists_of_code hmatrix hreport hcode
  obtain ⟨_, hprinted, hstore⟩ := runPlan_of_write around plan hmatrix hreport hd hwrite
  have hlook : next.look out = .ok (.file e.markdown.toUTF8) := Store.look_of_write hwrite
  refine ⟨e, hd, by rw [hstore, hlook], document_log hd rfl, fun t ht => ?_,
    fun there settings name report last hname hlast => ?_⟩
  · have hagain : t.look path = around.store.look path ∧ t.write out e.markdown = .ok next := by
      rcases ht with rfl | rfl
      · exact ⟨rfl, hwrite⟩
      · obtain ⟨found, hfound⟩ := look_of_document hd
        rw [hstore, hfound]
        exact ⟨Store.look_of_write_of_ne hwrite hfound hother, Store.write_again hwrite⟩
    obtain ⟨hcode, hsecond, hleft⟩ := runPlan_of_write { around with store := t }
      { plan with steps := e.log.map .apply } hmatrix hreport (document_log hd hagain.1) hagain.2
    exact ⟨hcode, hsecond.trans hprinted.symm, hleft.trans hstore.symm⟩
  · obtain ⟨hcode, hsecond, hleft⟩ := runPlan_of_write there
      ⟨e.log.map .apply, some report, settings, some name⟩ rfl rfl (document_log hd hname) hlast
    refine ⟨hcode, hsecond.trans hprinted.symm, ?_⟩
    rw [hleft, hstore, hlook]
    exact Store.look_of_write hlast

/-- Undos inside of others, one too many, and a report on what is left. -/
theorem reports_reproduce_nested_undos : ∃ (around : Surroundings) (plan : Plan),
    let first := runPlan around plan
    let second := runPlan { around with store := first.store }
      { plan with steps := [.apply "R2 = R2 / 4", .apply "R1 <> R2"] }
    plan.steps.length = 9 ∧ first.code = 0 ∧ first.printed = "6/4 2\n2 4\n" ∧
      second.code = 0 ∧ second.printed = first.printed ∧ second.store = first.store := by
  let s : Store :=
    ⟨[(["work"], .directory), (["work", "m.txt"], .file "2 4\n6 8\n".toUTF8)], ["work"]⟩
  let around : Surroundings := ⟨s, none, none, none⟩
  let steps : List Step := [.apply "R1 = R1 * 3", .undo, .undo, .apply " R2 = R2 / 4 ",
    .apply "R1 = R1 / 2", .apply "R2 <> R1", .undo, .undo, .apply "R1 <> R2"]
  let plan : Plan := ⟨steps, some "out.md", none, some "m.txt"⟩
  have hother : s.locate "m.txt" ≠ s.locate "out.md" := by decide +kernel
  have hcode : (runPlan around plan).code = 0 := by decide +kernel
  obtain ⟨e, hd, _, _, hsame, _⟩ := reports_reproduce rfl rfl hother hcode
  have hlog : (document s "m.txt" steps).map Document.log = .ok ["R2 = R2 / 4", "R1 <> R2"] := by
    decide +kernel
  have he : e.log = ["R2 = R2 / 4", "R1 <> R2"] := by
    rw [hd] at hlog
    exact Except.ok.inj hlog
  rw [he] at hsame
  exact ⟨around, plan, rfl, hcode, by decide +kernel, hsame _ (Or.inr rfl)⟩

end CommandLine

end Echelon
