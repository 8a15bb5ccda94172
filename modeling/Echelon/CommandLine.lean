import Echelon.CommandLine.Arguments
import Echelon.Platform
import Echelon.Report

/-!
# Runs

A run answers its arguments with an exit code, what it printed, and the files as it leaves them. In
command mode it loads the matrix and follows the steps; the first fault ends it before anything is
printed or written. Otherwise it opens the workbench, for a sitting in the terminal of the platform.
-/

namespace Echelon

/-- The call that a step makes. -/
def Document.callOf : CommandLine.Step → Call
  | .apply text => .apply text
  | .undo => .undo

namespace CommandLine

/-- What a run finds when it starts: the files, the usual paths of settings and log, the log filter
that the environment asks for, and the platform. -/
structure Surroundings where
  store : Store
  settingsPath : Option String
  logPath : Option String
  logFilter : Option String
  [platform : Platform]

/-- What a run leaves. -/
structure Outcome where
  code : Nat
  printed : String
  complaints : String
  store : Store
  deriving DecidableEq

namespace Outcome

/-- A run that fails with a message. -/
def failure (s : Store) (message : String) : Outcome := ⟨1, "", "Error: " ++ message ++ "\n", s⟩

/-- An outcome with warnings before the other complaints. -/
def warned (outcome : Outcome) (warnings : List String) : Outcome :=
  { outcome with
    complaints :=
      String.join (warnings.map fun text => "Warning: " ++ text ++ "\n") ++ outcome.complaints }

/-- An outcome with what was logged before the other complaints. -/
def logged (outcome : Outcome) (text : String) : Outcome :=
  { outcome with complaints := text ++ outcome.complaints }

/-- A run whose arguments make no plan. -/
def ofStop (s : Store) : Stop → Outcome
  | .help => ⟨0, "", usage, s⟩
  | .incomplete option => failure s option.requirement
  | .unknown argument => ⟨1, "", "Error: Unknown option: " ++ argument ++ "\n" ++ usage, s⟩
  | .unexpected argument => ⟨1, "", "Error: Unexpected argument: " ++ argument ++ "\n" ++ usage, s⟩

end Outcome

/-- The document after a step. -/
def Step.follow (step : Step) (d : Document) : Except Fault Document :=
  let reply := d.call (Document.callOf step)
  reply.result.map fun _ => reply.document

/-- The document after the steps of a plan. -/
def followAll (d : Document) (steps : List Step) : Except Fault Document :=
  steps.foldlM (fun d step => step.follow d) d

/-- The document that a plan leads to, or the message for the first fault on the way. -/
def document (s : Store) (path : String) (steps : List Step) : Except String Document := do
  let loaded := Document.empty.call (.load path (s.look path))
  match loaded.result with
  | .error fault => .error ("loading " ++ path ++ ": " ++ fault.trace)
  | .ok () =>
    match followAll loaded.document steps with
    | .error fault => .error fault.trace
    | .ok d => .ok d

/-- Prints a document, and writes its report if one is asked for. -/
def finish (s : Store) (report : Option String) (d : Document) : Outcome :=
  match report with
  | none => ⟨0, d.plain, "", s⟩
  | some path =>
    match d.writeReport s path with
    | .ok next => ⟨0, d.plain, "Result written to " ++ path ++ "\n", next⟩
    | .error fault => { Outcome.failure s fault.trace with printed := d.plain }

/-- Works off a plan. -/
def runSteps (s : Store) (plan : Plan) : Outcome :=
  match plan.matrix with
  | none => .failure s "command mode requires a matrix file"
  | some path =>
    match document s path plan.steps with
    | .error message => .failure s message
    | .ok d => finish s plan.report d

/-- What following the steps of a plan notes in the journal, up to the first that is refused. -/
def stepsJournal (d : Document) : List Step → List Journal.Entry
  | [] => []
  | step :: steps =>
    d.journal (Document.callOf step) ++
      match step.follow d with
      | .ok next => stepsJournal next steps
      | .error _ => []

/-- What the end of a plan notes in the journal. -/
def finishJournal (s : Store) (report : Option String) (d : Document) : List Journal.Entry :=
  .finished d.log.length ::
    match report with
    | none => []
    | some path =>
      match d.writeReport s path with
      | .ok _ => [.exported path]
      | .error _ => []

/-- What working off a plan notes in the journal. -/
def journal (s : Store) (plan : Plan) : List Journal.Entry :=
  match plan.matrix with
  | none => []
  | some path =>
    let call := Call.load path (s.look path)
    let loaded := Document.empty.call call
    Document.empty.journal call ++
      (match loaded.result with
        | .ok () => stepsJournal loaded.document plan.steps
        | .error _ => []) ++
      match document s path plan.steps with
      | .ok d => finishJournal s plan.report d
      | .error _ => []

/-- The log filter in effect: the one of the environment or else that of the settings, of those that
are log filters. -/
def Surroundings.filter? (around : Surroundings) (settings : Settings) : Option String :=
  (around.logFilter.toList ++ settings.logFilter.toList).find? around.platform.isLogFilter

/-- Works off a plan, with the journal among the complaints: warnings, unless another filter is in
effect. -/
def runCommands (around : Surroundings) (settings : Settings) (plan : Plan) : Outcome :=
  let filter := (around.filter? settings).getD "warn"
  (runSteps around.store plan).logged
    (around.platform.writeJournal .complaints filter (journal around.store plan))

/-- Makes sure that a log file exists at a path: the files, and what went wrong. Directories that
were created for it stay in any case. -/
def openLog (s : Store) (path : String) : Store × Option StoreFault :=
  match s.makeDirectories ((Store.parent? path).getD "") with
  | (s, some fault) => (s, some fault)
  | (s, none) =>
    match s.touch path with
    | .ok next => (next, none)
    | .error fault => (s, some fault)

/-- The workbench that a plan opens, with what is noted. -/
def workbench (s : Store) (settings : Settings) (matrix : Option String) :
    Except Fault Workbench × List Journal.Entry :=
  let appearance : Appearance := ⟨settings.columnWidth, settings.showTimer⟩
  match matrix with
  | none => (.ok (.start appearance), [])
  | some path =>
    (Workbench.ofFile appearance path (s.look path), Workbench.fileJournal path (s.look path))

/-- Opens the workbench of a plan for a sitting: the outcome, and what is noted. -/
def openWorkbench (terminal : Terminal) (s : Store) (settings : Settings)
    (matrix : Option String) : Outcome × List Journal.Entry :=
  match workbench s settings matrix with
  | (.error fault, entries) => (.failure s fault.message, entries)
  | (.ok w, entries) =>
    match terminal.refusal with
    | some why => ({ Outcome.failure s why with printed := terminal.print [] }, entries)
    | none =>
      let sitting := w.sit terminal.happenings
      let outcome : Outcome := match terminal.fault? sitting with
        | none => ⟨0, "", "", s⟩
        | some why => .failure s why
      ({ outcome with printed := terminal.print sitting.shown }, entries ++ sitting.entries)

/-- Opens the workbench of a plan. The journal goes to the end of the log file, if a filter asks for
one and the file can be opened. -/
def runWorkbench (around : Surroundings) (settings : Settings) (plan : Plan) : Outcome :=
  let opened (s : Store) := openWorkbench around.platform.terminal s settings plan.matrix
  match settings.logFile <|> around.logPath, around.filter? settings with
  | some path, some filter =>
    match openLog around.store path with
    | (s, some fault) =>
      (opened s).1.warned ["could not open log file " ++ path ++ ": " ++ fault.message]
    | (s, none) =>
      let (outcome, entries) := opened s
      let text := around.platform.writeJournal .file filter entries
      { outcome with store := outcome.store.append path text }
  | _, _ => (opened around.store).1

/-- The settings that a plan asks for, and the warnings about them. -/
def Surroundings.settings (around : Surroundings) (plan : Plan) : Settings × List String :=
  around.platform.readSettings.load around.store plan.settings around.settingsPath

/-- Runs a plan. -/
def runPlan (around : Surroundings) (plan : Plan) : Outcome :=
  let chosen := around.settings plan
  let outcome :=
    if plan.isCommandMode then runCommands around chosen.1 plan
    else runWorkbench around chosen.1 plan
  outcome.warned chosen.2

/-- Runs the program with some arguments, which are Unicode texts. -/
def run (around : Surroundings) (arguments : List String) : Outcome :=
  match Plan.ofArguments arguments with
  | .error stop => .ofStop around.store stop
  | .ok plan => runPlan around plan

end CommandLine

end Echelon
