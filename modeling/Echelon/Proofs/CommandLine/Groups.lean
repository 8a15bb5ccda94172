import Echelon.CommandLine
import Echelon.Proofs.Results
import Mathlib.Data.List.Induction

/-!
# Arguments in groups

A list of arguments has one reading as groups, from left to right. The first group that no plan can
take up ends a run before it looks at any file, whatever comes after it. When there is none, the
plan is made of the steps in their order, of the last value of each option and of the one argument
that stands for the matrix, and the run depends on nothing else.
-/

namespace Echelon.CommandLine

open Result

/-! ## How groups are written -/

namespace ValuedOption

/-- The arguments that name an option. -/
def names : ValuedOption → List String
  | operation => ["-c", "--command"]
  | report => ["-o", "--output"]
  | settings => ["--config"]

theorem ofArgument?_eq_some {argument : String} {option : ValuedOption} :
    ofArgument? argument = some option ↔ argument ∈ option.names := by
  constructor
  · intro h
    unfold ofArgument? at h
    split at h
    all_goals cases h
    all_goals decide
  · intro h
    cases option with
    | operation =>
      simp only [names, List.mem_cons, List.not_mem_nil, or_false] at h
      rcases h with rfl | rfl <;> rfl
    | report =>
      simp only [names, List.mem_cons, List.not_mem_nil, or_false] at h
      rcases h with rfl | rfl <;> rfl
    | settings =>
      obtain rfl := List.mem_singleton.mp h
      rfl

end ValuedOption

namespace Group

/-- The arguments that mean something else than a matrix. -/
def names : List String :=
  ["-h", "--help"] ++ (["-u", "--undo"] ++
    [ValuedOption.operation, .report, .settings].flatMap ValuedOption.names)

/-- The arguments that a group is written with. -/
inductive Written : Group → List String → Prop where
  | help {argument : String} : argument ∈ ["-h", "--help"] → Written .help [argument]
  | undo {argument : String} : argument ∈ ["-u", "--undo"] → Written .undo [argument]
  | valued {argument : String} {option : ValuedOption} (value : String) :
      argument ∈ option.names → Written (.valued option value) [argument, value]
  | incomplete {argument : String} {option : ValuedOption} :
      argument ∈ option.names → Written (.incomplete option) [argument]
  | unknown {argument : String} : argument ∉ names → argument.toList.head? = some '-' →
      Written (.unknown argument) [argument]
  | plain {argument : String} : argument.toList.head? ≠ some '-' →
      Written (.plain argument) [argument]

theorem mem_names {argument : String} : argument ∈ names ↔
    argument ∈ ["-h", "--help"] ∨ argument ∈ ["-u", "--undo"] ∨
      ∃ option, ValuedOption.ofArgument? argument = some option := by
  have hoptions : argument ∈ [ValuedOption.operation, .report, .settings].flatMap
      ValuedOption.names ↔ ∃ option, ValuedOption.ofArgument? argument = some option := by
    simp only [List.mem_flatMap, ValuedOption.ofArgument?_eq_some]
    constructor
    · rintro ⟨option, _, hname⟩
      exact ⟨option, hname⟩
    · rintro ⟨option, hname⟩
      exact ⟨option, by cases option <;> decide, hname⟩
  rw [names, List.mem_append, List.mem_append, hoptions]

variable {argument : String} {option : ValuedOption} {g : Group} {gs : List Group}

theorem written_ofArgument (h : ValuedOption.ofArgument? argument = none) :
    Written (ofArgument argument) [argument] := by
  unfold ofArgument
  split
  · rename_i hhelp
    exact .help (by simpa using hhelp)
  · rename_i hhelp
    split
    · rename_i hundo
      exact .undo (by simpa using hundo)
    · rename_i hundo
      split
      · rename_i hdash
        refine .unknown (fun hname => ?_) hdash
        rcases mem_names.mp hname with hmem | hmem | ⟨option, hoption⟩
        · exact hhelp (by simpa using hmem)
        · exact hundo (by simpa using hmem)
        · rw [h] at hoption
          cases hoption
      · rename_i hdash
        exact .plain hdash

theorem dash_of_mem_names : ∀ name ∈ names, name.toList.head? = some '-' := by decide

/-- The groups that are written with one argument and are no option are read from it. -/
theorem ofArgument_of_not_mem {argument : String} (h : argument ∉ names) :
    ValuedOption.ofArgument? argument = none ∧ ofArgument argument =
      if argument.toList.head? = some '-' then .unknown argument else .plain argument := by
  rw [mem_names, not_or, not_or] at h
  obtain ⟨hhelp, hundo, hoption⟩ := h
  refine ⟨Option.eq_none_iff_forall_ne_some.mpr fun option ho => hoption ⟨option, ho⟩, ?_⟩
  rw [ofArgument, if_neg (by simpa using hhelp), if_neg (by simpa using hundo)]

/-- A group is an argument that stands alone, or an option with its value or at the end. -/
inductive Formed : Group → List String → Prop where
  | single {argument : String} {g : Group} : ValuedOption.ofArgument? argument = none →
      ofArgument argument = g → Formed g [argument]
  | valued {argument : String} {option : ValuedOption} (value : String) :
      ValuedOption.ofArgument? argument = some option →
      Formed (.valued option value) [argument, value]
  | incomplete {argument : String} {option : ValuedOption} :
      ValuedOption.ofArgument? argument = some option → Formed (.incomplete option) [argument]

theorem Written.formed {words : List String} (h : Written g words) : Formed g words := by
  cases h with
  | help hname =>
    have hread : ∀ argument ∈ ["-h", "--help"], ValuedOption.ofArgument? argument = none ∧
        ofArgument argument = .help := by decide
    exact .single (hread _ hname).1 (hread _ hname).2
  | undo hname =>
    have hread : ∀ argument ∈ ["-u", "--undo"], ValuedOption.ofArgument? argument = none ∧
        ofArgument argument = .undo := by decide
    exact .single (hread _ hname).1 (hread _ hname).2
  | valued value hname => exact .valued value (ValuedOption.ofArgument?_eq_some.mpr hname)
  | incomplete hname => exact .incomplete (ValuedOption.ofArgument?_eq_some.mpr hname)
  | unknown hname hdash =>
    obtain ⟨hnone, hg⟩ := ofArgument_of_not_mem hname
    rw [if_pos hdash] at hg
    exact .single hnone hg
  | plain hdash =>
    obtain ⟨hnone, hg⟩ := ofArgument_of_not_mem (fun hname => hdash (dash_of_mem_names _ hname))
    rw [if_neg hdash] at hg
    exact .single hnone hg

end Group

/-! ## The reading of a list of arguments -/

/-- Arguments read as groups, from left to right. Only the last group can lack a value. -/
inductive Reads : List String → List Group → Prop where
  | nil : Reads [] []
  | cons {words rest : List String} {g : Group} {gs : List Group} : g.Written words →
      (∀ option, g = .incomplete option → rest = []) → Reads rest gs →
      Reads (words ++ rest) (g :: gs)

variable {argument value : String} {arguments rest : List String} {option : ValuedOption}
  {g : Group} {gs before after : List Group} {stop : Stop} {plan : Plan}

theorem groups_single (h : ValuedOption.ofArgument? argument = none) (rest : List String) :
    groups (argument :: rest) = .ofArgument argument :: groups rest := by
  cases rest with
  | nil => simp [groups, h]
  | cons next rest => simp [groups, h]

theorem groups_valued (h : ValuedOption.ofArgument? argument = some option) (value : String)
    (rest : List String) :
    groups (argument :: value :: rest) = .valued option value :: groups rest := by
  simp [groups, h]

theorem groups_incomplete (h : ValuedOption.ofArgument? argument = some option) :
    groups [argument] = [.incomplete option] := by
  simp [groups, h]

theorem Reads.single (h : ValuedOption.ofArgument? argument = none)
    (hgs : Reads rest gs) : Reads (argument :: rest) (.ofArgument argument :: gs) := by
  refine .cons (Group.written_ofArgument h) (fun option hg => ?_) hgs
  have hne : Group.ofArgument argument ≠ .incomplete option := by
    unfold Group.ofArgument
    split_ifs <;> simp
  exact absurd hg hne

/-- Every list of arguments has its groups as a reading. -/
theorem reads_groups (arguments : List String) : Reads arguments (groups arguments) := by
  induction arguments using groups.induct with
  | case1 => exact .nil
  | case2 argument option h =>
    rw [groups_incomplete h]
    exact .cons (.incomplete (ValuedOption.ofArgument?_eq_some.mp h)) (fun _ _ => rfl) .nil
  | case3 argument h =>
    rw [groups_single h]
    exact .single h .nil
  | case4 argument value rest option h ih =>
    rw [groups_valued h]
    exact .cons (.valued value (ValuedOption.ofArgument?_eq_some.mp h)) nofun ih
  | case5 argument next rest h ih =>
    rw [groups_single h]
    exact .single h ih

theorem Reads.groups_eq (h : Reads arguments gs) : groups arguments = gs := by
  induction h with
  | nil => rfl
  | cons hwritten hlast _ ih =>
    cases hwritten.formed with
    | single hnone hg => rw [List.singleton_append, groups_single hnone, hg, ih]
    | valued value hoption =>
      rw [List.cons_append, List.singleton_append, groups_valued hoption, ih]
    | incomplete hoption =>
      obtain rfl := hlast _ rfl
      rw [List.append_nil, groups_incomplete hoption, ← ih, groups]

/-- **The groups of a list of arguments are its only reading.** -/
theorem groups_eq_iff : groups arguments = gs ↔ Reads arguments gs := by
  refine ⟨?_, Reads.groups_eq⟩
  rintro rfl
  exact reads_groups arguments

/-! ## What groups ask for -/

namespace Group

/-- The step that a group adds to a plan. -/
def step? : Group → Option Step
  | .undo => some .undo
  | .valued .operation text => some (.apply text)
  | _ => none

/-- The value that a group gives to an option. -/
def value? (option : ValuedOption) : Group → Option String
  | .valued other value => if other = option then some value else none
  | _ => none

/-- The matrix that a group names. -/
def matrix? : Group → Option String
  | .plain argument => some argument
  | _ => none

end Group

/-- The plan that groups ask for: all steps, the last value of an option, and the matrix. -/
def Plan.requested (gs : List Group) : Plan where
  steps := gs.filterMap Group.step?
  report := (gs.filterMap (Group.value? .report)).getLast?
  settings := (gs.filterMap (Group.value? .settings)).getLast?
  matrix := (gs.filterMap Group.matrix?).head?

/-- A group that no plan can take up after some others, and why. -/
inductive Ends (before : List Group) : Group → Stop → Prop where
  | help : Ends before .help .help
  | incomplete (option : ValuedOption) : Ends before (.incomplete option) (.incomplete option)
  | unknown (argument : String) : Ends before (.unknown argument) (.unknown argument)
  | unexpected {first : String} (argument : String) : .plain first ∈ before →
      Ends before (.plain argument) (.unexpected argument)

/-- No group ends the reading. -/
def Complete (gs : List Group) : Prop :=
  ∀ before g after stop, gs = before ++ g :: after → ¬ Ends before g stop

theorem mem_filterMap_matrix? {argument : String} :
    argument ∈ gs.filterMap Group.matrix? ↔ .plain argument ∈ gs := by
  rw [List.mem_filterMap]
  constructor
  · rintro ⟨g, hg, hmatrix⟩
    cases g with
    | plain other =>
      obtain rfl := Option.some.inj hmatrix
      exact hg
    | _ => cases hmatrix
  · intro h
    exact ⟨_, h, rfl⟩

/-- A plan takes up a group, or the group ends the reading. -/
theorem add_requested (before : List Group) (g : Group) :
    (Plan.requested before).add g = .ok (Plan.requested (before ++ [g])) ∧
        (∀ stop, ¬ Ends before g stop) ∨
      ∃ stop, (Plan.requested before).add g = .error stop ∧ Ends before g stop := by
  cases g with
  | help => exact Or.inr ⟨_, rfl, .help⟩
  | incomplete option => exact Or.inr ⟨_, rfl, .incomplete option⟩
  | unknown argument => exact Or.inr ⟨_, rfl, .unknown argument⟩
  | undo =>
    refine Or.inl ⟨?_, nofun⟩
    simp [Plan.add, Plan.requested, Group.step?, Group.value?, Group.matrix?]
  | valued option value =>
    refine Or.inl ⟨?_, nofun⟩
    cases option <;> simp [Plan.add, Plan.requested, Group.step?, Group.value?, Group.matrix?]
  | plain argument =>
    cases hfirst : before.filterMap Group.matrix? with
    | nil =>
      refine Or.inl ⟨?_, fun stop hends => ?_⟩
      · simp [Plan.add, Plan.requested, Group.step?, Group.value?, Group.matrix?, hfirst]
      · cases hends with
        | unexpected _ hmem =>
          rw [← mem_filterMap_matrix?, hfirst] at hmem
          cases hmem
    | cons first rest =>
      have hmem : .plain first ∈ before := by
        rw [← mem_filterMap_matrix?, hfirst]
        exact List.mem_cons_self
      refine Or.inr ⟨_, ?_, .unexpected argument hmem⟩
      simp [Plan.add, Plan.requested, hfirst]

theorem complete_nil : Complete [] := fun before g after stop h => by simp at h

theorem Complete.concat (h : Complete gs) (hg : ∀ stop, ¬ Ends gs g stop) :
    Complete (gs ++ [g]) := by
  intro before last after stop heq
  rcases List.eq_nil_or_concat after with rfl | ⟨after, end', rfl⟩
  · obtain ⟨rfl, hlast⟩ := List.append_inj' heq rfl
    obtain rfl := List.singleton_inj.mp hlast
    exact hg stop
  · rw [List.concat_eq_append, ← List.cons_append, ← List.append_assoc] at heq
    obtain ⟨hgs, _⟩ := List.append_inj' heq rfl
    exact h before last after stop hgs

/-- Groups make the plan that they ask for, or the first of them that ends the reading stops it. -/
theorem foldlM_add (gs : List Group) :
    gs.foldlM Plan.add {} = .ok (Plan.requested gs) ∧ Complete gs ∨
      ∃ before g after stop, gs = before ++ g :: after ∧ Complete before ∧ Ends before g stop ∧
        gs.foldlM Plan.add {} = .error stop := by
  induction gs using List.reverseRecOn with
  | nil => exact Or.inl ⟨rfl, complete_nil⟩
  | append_singleton gs g ih =>
    rw [List.foldlM_append]
    rcases ih with ⟨hplan, hcomplete⟩ | ⟨before, last, after, stop, hgs, hbefore, hends, hstop⟩
    · rw [hplan, ok_bind]
      rcases add_requested gs g with ⟨hadd, hgoes⟩ | ⟨stop, hadd, hends⟩
      · exact Or.inl ⟨by simp [hadd], hcomplete.concat hgoes⟩
      · exact Or.inr ⟨gs, g, [], stop, rfl, hcomplete, hends, by simp [hadd]⟩
    · rw [hstop, error_bind]
      exact Or.inr ⟨before, last, after ++ [g], stop, by simp [hgs], hbefore, hends, rfl⟩

theorem complete_of_foldlM (h : gs.foldlM Plan.add {} = .ok plan) : Complete gs := by
  rcases foldlM_add gs with ⟨_, hcomplete⟩ | ⟨_, _, _, _, _, _, _, hstop⟩
  · exact hcomplete
  · rw [hstop] at h
    cases h

theorem ofArguments_of_reads (h : Reads arguments gs) :
    Plan.ofArguments arguments = gs.foldlM Plan.add {} := by
  rw [Plan.ofArguments, h.groups_eq]

/-- The outcome of a run whose arguments make no plan says nothing about what the run would find. -/
theorem ofStop_eq (hends : Ends before g stop) : ∃ code complaints,
    (g = .help → code = 0 ∧ complaints = usage) ∧ (g ≠ .help → code = 1) ∧
      ∀ s, Outcome.ofStop s stop = ⟨code, "", complaints, s⟩ := by
  cases hends with
  | help => exact ⟨0, usage, fun _ => ⟨rfl, rfl⟩, fun h => absurd rfl h, fun _ => rfl⟩
  | incomplete option => exact ⟨1, _, nofun, fun _ => rfl, fun _ => rfl⟩
  | unknown argument => exact ⟨1, _, nofun, fun _ => rfl, fun _ => rfl⟩
  | unexpected argument _ => exact ⟨1, _, nofun, fun _ => rfl, fun _ => rfl⟩

theorem run_of_complete (h : Reads arguments gs) (hc : Complete gs) (around : Surroundings) :
    run around arguments = runPlan around (.requested gs) := by
  rcases foldlM_add gs with ⟨hplan, _⟩ | ⟨before, g, after, stop, hgs, _, hends, _⟩
  · rw [run, ofArguments_of_reads h, hplan]
  · exact absurd hends (hc before g after stop hgs)

theorem isCommandMode_iff (plan : Plan) :
    plan.isCommandMode = true ↔ ¬ (plan.steps = [] ∧ plan.report = none) := by
  rw [Plan.isCommandMode, Bool.or_eq_true, Bool.not_eq_true', List.isEmpty_eq_false_iff,
    Option.isSome_iff_ne_none, not_and_or]

/-- A plan without steps and report is for the workbench, and any other for command mode. -/
theorem runPlan_eq (around : Surroundings) (plan : Plan) :
    runPlan around plan =
      (if plan.steps = [] ∧ plan.report = none then
        runWorkbench around (around.settings plan).1 plan
      else runCommands around (around.settings plan).1 plan).warned (around.settings plan).2 := by
  by_cases hnone : plan.steps = [] ∧ plan.report = none
  · have hmode : ¬ plan.isCommandMode = true := fun h => (isCommandMode_iff plan).mp h hnone
    simp only [runPlan, if_neg hmode, if_pos hnone]
  · have hmode : plan.isCommandMode = true := (isCommandMode_iff plan).mpr hnone
    simp only [runPlan, if_pos hmode, if_neg hnone]

/-- **Arguments are read in groups up to the first that ends the reading.** There is one way to read
arguments as groups. If a group ends the reading, a run says so with an exit code and a text that
depend on no file, and leaves the files as they are: asked for help it shows the usage and succeeds,
and else it fails. If there is no such group, the run follows the plan that the groups ask for: it
loads the settings that were named last, and without a step and a report it opens the workbench on
the matrix; otherwise it works off the steps in their order and writes the last report. So all other
arguments whose groups agree on the steps and their order, on the last report, on the last settings
and on the matrix make the same run. -/
theorem arguments_grouped (arguments : List String) :
    ∃ gs, (∀ others, Reads arguments others ↔ others = gs) ∧
      ((∃ before g after stop, gs = before ++ g :: after ∧ Complete before ∧ Ends before g stop ∧
        ∃ code complaints, (g = .help → code = 0 ∧ complaints = usage) ∧ (g ≠ .help → code = 1) ∧
          ∀ around, run around arguments = ⟨code, "", complaints, around.store⟩) ∨
      Complete gs ∧
        (∀ around : Surroundings,
          let plan := Plan.requested gs
          let chosen := around.settings plan
          run around arguments = runPlan around plan ∧
          runPlan around plan =
            (if plan.steps = [] ∧ plan.report = none then runWorkbench around chosen.1 plan
            else runCommands around chosen.1 plan).warned chosen.2) ∧
        ∀ other hs, Reads other hs → Complete hs →
          hs.filterMap Group.step? = gs.filterMap Group.step? →
          (hs.filterMap (Group.value? .report)).getLast? =
            (gs.filterMap (Group.value? .report)).getLast? →
          (hs.filterMap (Group.value? .settings)).getLast? =
            (gs.filterMap (Group.value? .settings)).getLast? →
          hs.filterMap Group.matrix? = gs.filterMap Group.matrix? →
          ∀ around, run around other = run around arguments) := by
  have hreads := reads_groups arguments
  refine ⟨groups arguments, fun others => groups_eq_iff.symm.trans eq_comm, ?_⟩
  rcases foldlM_add (groups arguments) with
    ⟨_, hcomplete⟩ | ⟨before, g, after, stop, hgs, hbefore, hends, hstop⟩
  · refine Or.inr ⟨hcomplete, fun around => ⟨run_of_complete hreads hcomplete around,
      runPlan_eq around _⟩, fun other hs hother hc hsteps hreport hsettings hmatrix around => ?_⟩
    have hplan : Plan.requested hs = .requested (groups arguments) := by
      rw [Plan.requested, hsteps, hreport, hsettings, hmatrix, Plan.requested]
    rw [run_of_complete hother hc, run_of_complete hreads hcomplete, hplan]
  · obtain ⟨code, complaints, hhelp, hfailure, houtcome⟩ := ofStop_eq hends
    refine Or.inl ⟨before, g, after, stop, hgs, hbefore, hends, code, complaints, hhelp, hfailure,
      fun around => ?_⟩
    rw [run, ofArguments_of_reads hreads, hstop]
    exact houtcome around.store

/-- A second matrix after a value that looks like an option, one plan asked for in two ways, and no
options for a workbench that the user quits. -/
theorem arguments_grouped_rearranged : ∃ stopped plain rearranged : List String,
    stopped = ["-c", "--help", "m.txt", "more.txt"] ∧
    plain = ["--command", "R1 <> R2", "--undo", "m.txt", "-o", "b.md"] ∧
    rearranged = ["-o", "--config", "m.txt", "-c", "R1 <> R2", "--output", "b.md", "-u"] ∧
    (∃ complaints, ∀ around, run around stopped = ⟨1, "", complaints, around.store⟩) ∧
    (∀ around, run around plain =
      runPlan around ⟨[.apply "R1 <> R2", .undo], some "b.md", none, some "m.txt"⟩) ∧
    (∀ around, run around rearranged = run around plain) ∧
    ∃ around, (run around []).code = 0 := by
  let stopped := ["-c", "--help", "m.txt", "more.txt"]
  let plain := ["--command", "R1 <> R2", "--undo", "m.txt", "-o", "b.md"]
  let rearranged := ["-o", "--config", "m.txt", "-c", "R1 <> R2", "--output", "b.md", "-u"]
  let plan : Plan := ⟨[.apply "R1 <> R2", .undo], some "b.md", none, some "m.txt"⟩
  have hstopped : groups stopped =
      [.valued .operation "--help", .plain "m.txt", .plain "more.txt"] := by decide
  have hplain : (groups plain).foldlM Plan.add {} = .ok plan := by decide
  have hrearranged : (groups rearranged).foldlM Plan.add {} = .ok plan := by decide
  have hcomplete : Complete (groups plain) := complete_of_foldlM hplain
  obtain ⟨gs, hreads, hcase⟩ := arguments_grouped plain
  obtain rfl := (hreads _).mp (reads_groups plain)
  rcases hcase with ⟨before, g, after, stop, hgs, _, hends, _⟩ | ⟨_, hrun, hsame⟩
  · exact absurd hends (hcomplete before g after stop hgs)
  refine ⟨stopped, plain, rearranged, rfl, rfl, rfl, ?_, fun around => (hrun around).1, ?_, ?_⟩
  · obtain ⟨gs, hreads, hcase⟩ := arguments_grouped stopped
    obtain rfl := (hreads _).mp (reads_groups stopped)
    rcases hcase with ⟨before, g, after, stop, hgs, _, _, _, complaints, _, hfailure, hrun⟩ |
      ⟨hcomplete, _⟩
    · have hg : g ≠ .help := by
        rintro rfl
        have hmem : Group.help ∈ groups stopped := by simp [hgs]
        exact absurd hmem (by decide)
      obtain rfl := hfailure hg
      exact ⟨complaints, hrun⟩
    · have hfirst : Group.plain "m.txt" ∈ [.valued .operation "--help", .plain "m.txt"] := by
        decide
      exact absurd (.unexpected "more.txt" hfirst) (hcomplete _ _ [] _ hstopped)
  · exact hsame rearranged _ (reads_groups rearranged) (complete_of_foldlM hrearranged)
      (by decide) (by decide) (by decide) (by decide)
  · let terminal : Terminal := ⟨none, [.key { code := .escape }], "", none, fun _ => ""⟩
    let platform : Platform := { Platform.bare with terminal := terminal }
    exact ⟨{ store := ⟨[], []⟩, settingsPath := none, logPath := none, logFilter := none,
             platform := platform }, by decide +kernel⟩

end Echelon.CommandLine
