import Echelon.CommandLine
import Echelon.Proofs.Session.View

/-!
# Sittings end when the user quits

Whatever happens in a sitting is a move of the workbench, so every state that is shown is one that
the front end can come to. A run that opens the workbench succeeds exactly when the terminal can be
used and the user quits, and it leaves the files alone but for the log file.
-/

namespace Echelon

namespace Workbench

variable {w next : Workbench} {happening : Happening} {entries : List Journal.Entry}

/-! ## What happens in a sitting -/

theorem Reachable.pressHelp (h : Reachable w) (key : Key) : Reachable (w.pressHelp key) := by
  unfold Workbench.pressHelp
  split
  · exact h.move .closeHelp
  · exact h.move .closeHelp
  · exact h.move .closeHelp
  · exact h.move (.scrollHelp 1)
  · exact h.move (.scrollHelp 1)
  · exact h.move (.scrollHelp (-1))
  · exact h.move (.scrollHelp (-1))
  · exact h

theorem Reachable.heed (h : Reachable w) (hnext : w.heed happening = some (next, entries)) :
    Reachable next := by
  cases happening with
  | key key =>
    simp only [Workbench.heed] at hnext
    split at hnext
    · cases hnext
      exact h.pressHelp key
    · split at hnext
      · cases hnext
      · cases hnext
        exact h.move (.perform _)
      · cases hnext
        exact h.move (.edit key)
  | second =>
    cases hnext
    exact h.move .tick
  | other =>
    cases hnext
    exact h

/-- The user quits by a key for it while the help text is closed, and in no other way. -/
theorem heed_eq_none_iff : w.heed happening = none ↔
    ∃ key, happening = .key key ∧ w.helpOpen = false ∧ Action.ofKey? w.focus key = some .quit := by
  constructor
  · intro h
    cases happening with
    | key key =>
      simp only [heed] at h
      split at h
      · cases h
      · rename_i hclosed
        split at h
        · rename_i hquit
          exact ⟨key, rfl, Bool.not_eq_true _ ▸ hclosed, hquit⟩
        · cases h
        · cases h
    | second => cases h
    | other => cases h
  · rintro ⟨key, rfl, hclosed, hquit⟩
    simp only [heed, hclosed, hquit, Bool.false_eq_true, if_false]

/-! ## Whole sittings -/

/-- The user quits at some time. -/
inductive Quits : Workbench → List Happening → Prop where
  | now {w : Workbench} {key : Key} {later : List Happening} : w.helpOpen = false →
      Action.ofKey? w.focus key = some .quit → Quits w (.key key :: later)
  | later {w next : Workbench} {happening : Happening} {entries : List Journal.Entry}
      {later : List Happening} : w.heed happening = some (next, entries) → Quits next later →
      Quits w (happening :: later)

theorem quits_sit_iff {happenings : List Happening} :
    (w.sit happenings).quits = true ↔ Quits w happenings := by
  induction happenings generalizing w with
  | nil => exact ⟨nofun, nofun⟩
  | cons happening later ih =>
    rw [sit]
    cases hheed : w.heed happening with
    | none =>
      obtain ⟨key, rfl, hclosed, hquit⟩ := heed_eq_none_iff.mp hheed
      exact ⟨fun _ => .now hclosed hquit, fun _ => rfl⟩
    | some answer =>
      constructor
      · intro h
        exact .later hheed (ih.mp h)
      · intro h
        cases h with
        | now hclosed hquit =>
          rw [heed_eq_none_iff.mpr ⟨_, rfl, hclosed, hquit⟩] at hheed
          cases hheed
        | later hnext hquits =>
          rw [hnext] at hheed
          cases hheed
          exact ih.mpr hquits

/-- Every state that is shown in a sitting is one that the front end can come to. -/
theorem Reachable.sit (h : Reachable w) (happenings : List Happening) :
    ∀ shown ∈ (w.sit happenings).shown, Reachable shown := by
  induction happenings generalizing w with
  | nil =>
    intro shown hshown
    rw [List.mem_singleton.mp hshown]
    exact h
  | cons happening later ih =>
    rw [Workbench.sit]
    cases hheed : w.heed happening with
    | none =>
      intro shown hshown
      rw [List.mem_singleton.mp hshown]
      exact h
    | some answer =>
      intro shown hshown
      rcases List.mem_cons.mp hshown with rfl | hlater
      · exact h
      · exact ih (h.heed hheed) shown hlater

end Workbench

namespace CommandLine

open Workbench

variable {s : Store} {settings : Settings} {matrix : Option String} {terminal : Terminal}

theorem reachable_of_workbench {w : Workbench} (h : (workbench s settings matrix).1 = .ok w) :
    Reachable w := by
  cases matrix with
  | none =>
    cases h
    exact .start _
  | some path => exact .ofFile h

/-- The matrix can be opened, the terminal can be used and given back, and the user quits. -/
def Succeeds (terminal : Terminal) (s : Store) (settings : Settings) (matrix : Option String) :
    Prop :=
  ∃ w, (workbench s settings matrix).1 = .ok w ∧ terminal.refusal = none ∧
    terminal.leaving = none ∧ Quits w terminal.happenings

theorem fault?_eq_none_iff (terminal : Terminal) (sitting : Sitting) :
    terminal.fault? sitting = none ↔ terminal.leaving = none ∧ sitting.quits = true := by
  rw [Terminal.fault?]
  cases terminal.leaving with
  | none => cases sitting.quits <;> simp
  | some why => simp

theorem openWorkbench_code_eq_zero_iff :
    (openWorkbench terminal s settings matrix).1.code = 0 ↔
      Succeeds terminal s settings matrix := by
  rw [Succeeds, openWorkbench]
  rcases workbench s settings matrix with ⟨opened, entries⟩
  cases opened with
  | error fault => simp [Outcome.failure]
  | ok w =>
    cases hrefusal : terminal.refusal with
    | some why => simp [Outcome.failure]
    | none =>
      have hfault := fault?_eq_none_iff terminal (w.sit terminal.happenings)
      rw [quits_sit_iff] at hfault
      cases h : terminal.fault? (w.sit terminal.happenings) with
      | none => simpa [h] using hfault.mp h
      | some why => simpa [Outcome.failure, h] using hfault

theorem openWorkbench_store : (openWorkbench terminal s settings matrix).1.store = s := by
  rw [openWorkbench]
  split
  · rfl
  · split
    · rfl
    · dsimp only
      split <;> rfl

/-- Nothing is printed but by the terminal, and it shows only states the front end can come to. -/
theorem openWorkbench_printed : ∃ shown, (∀ w ∈ shown, Reachable w) ∧
    (openWorkbench terminal s settings matrix).1.printed ∈ ["", terminal.print shown] := by
  rw [openWorkbench]
  split
  · exact ⟨[], List.forall_mem_nil _, List.mem_cons_self⟩
  · rename_i w entries hopen
    split
    · exact ⟨[], List.forall_mem_nil _, List.mem_cons_of_mem _ List.mem_cons_self⟩
    · have hw : Reachable w := reachable_of_workbench (congrArg Prod.fst hopen)
      exact ⟨_, hw.sit _, List.mem_cons_of_mem _ List.mem_cons_self⟩

/-! ## Runs -/

/-- The files when the workbench is opened: with a log file, if a filter asks for one. -/
def Surroundings.opened (around : Surroundings) (settings : Settings) : Store :=
  match settings.logFile <|> around.logPath, around.filter? settings with
  | some path, some _ => (openLog around.store path).1
  | _, _ => around.store

/-- Apart from a warning and the journal, a run is what opening the workbench comes to. -/
theorem runWorkbench_eq (around : Surroundings) (settings : Settings) (plan : Plan) :
    let opened := around.opened settings
    ∃ complaints store, runWorkbench around settings plan =
        { (openWorkbench around.platform.terminal opened settings plan.matrix).1 with
          complaints := complaints, store := store } ∧
      (store = opened ∨ ∃ path filter text, (settings.logFile <|> around.logPath) = some path ∧
        around.filter? settings = some filter ∧ store = opened.append path text) := by
  rw [runWorkbench, Surroundings.opened]
  cases (settings.logFile <|> around.logPath) with
  | none => exact ⟨_, _, rfl, Or.inl openWorkbench_store⟩
  | some path =>
    cases around.filter? settings with
    | none => exact ⟨_, _, rfl, Or.inl openWorkbench_store⟩
    | some filter =>
      dsimp only
      rcases openLog around.store path with ⟨s, fault | fault⟩
      · exact ⟨_, _, rfl, Or.inr ⟨path, filter, _, rfl, rfl,
          congrArg (Store.append · path _) openWorkbench_store⟩⟩
      · exact ⟨_, _, rfl, Or.inl openWorkbench_store⟩

/-- **A run that opens the workbench succeeds when the user quits.** It succeeds exactly when the
matrix can be opened, the terminal can be used and given back, and the user quits. What it shows are
states that the front end can come to, and the files that it leaves are those it found, but for a
log file that a filter asks for. -/
theorem runWorkbench_succeeds_iff (around : Surroundings) (settings : Settings) (plan : Plan) :
    let terminal := around.platform.terminal
    let opened := around.opened settings
    let outcome := runWorkbench around settings plan
    (outcome.code = 0 ↔ Succeeds terminal opened settings plan.matrix) ∧
      (∃ shown, (∀ w ∈ shown, Reachable w) ∧ outcome.printed ∈ ["", terminal.print shown]) ∧
      (outcome.store = opened ∨
        ∃ path filter text, (settings.logFile <|> around.logPath) = some path ∧
          around.filter? settings = some filter ∧ outcome.store = opened.append path text) ∧
      (around.filter? settings = none → outcome.store = around.store) := by
  obtain ⟨complaints, store, heq, hstore⟩ := runWorkbench_eq around settings plan
  dsimp only
  rw [heq]
  refine ⟨openWorkbench_code_eq_zero_iff, openWorkbench_printed, hstore, fun hfilter => ?_⟩
  rcases hstore with hstore | ⟨_, _, _, _, hsome, _⟩
  · rw [hstore, Surroundings.opened, hfilter]
    cases (settings.logFile <|> around.logPath) <;> rfl
  · rw [hfilter] at hsome
    cases hsome

end CommandLine

end Echelon
