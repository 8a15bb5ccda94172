import Echelon.Fault

/-!
# Arguments

The arguments of a run are read from left to right in groups: an option that takes a value takes
the next argument, whatever it looks like, and every other argument stands alone. A plan gathers
what the groups ask for. A group that cannot be part of a plan ends the reading, so nothing after
it counts.
-/

namespace Echelon.CommandLine

/-- A step of command mode. -/
inductive Step where
  /-- Applies the operation that a text stands for. -/
  | apply (text : String)
  /-- Takes back the latest operation, if there is one. -/
  | undo
  deriving DecidableEq, Repr

/-- An option that takes a value. -/
inductive ValuedOption where
  | operation
  | report
  | settings
  deriving DecidableEq, Repr

namespace ValuedOption

/-- The option that an argument names. -/
def ofArgument? : String → Option ValuedOption
  | "-c" => some operation
  | "--command" => some operation
  | "-o" => some report
  | "--output" => some report
  | "--config" => some settings
  | _ => none

/-- The text for an option whose value is missing. -/
def requirement : ValuedOption → String
  | operation => "--command requires an operation"
  | report => "--output requires a file path"
  | settings => "--config requires a file path"

end ValuedOption

/-- Arguments that belong together. -/
inductive Group where
  | help
  | undo
  | valued (option : ValuedOption) (value : String)
  /-- An option at the end of the arguments that lacks its value. -/
  | incomplete (option : ValuedOption)
  | unknown (argument : String)
  | plain (argument : String)
  deriving DecidableEq, Repr

/-- The group of an argument that stands alone. -/
def Group.ofArgument (argument : String) : Group :=
  if argument = "-h" ∨ argument = "--help" then help
  else if argument = "-u" ∨ argument = "--undo" then undo
  else if argument.toList.head? = some '-' then unknown argument
  else plain argument

/-- The groups of a list of arguments. -/
def groups : List String → List Group
  | [] => []
  | [argument] =>
    match ValuedOption.ofArgument? argument with
    | some option => [.incomplete option]
    | none => [.ofArgument argument]
  | argument :: next :: rest =>
    match ValuedOption.ofArgument? argument with
    | some option => .valued option next :: groups rest
    | none => .ofArgument argument :: groups (next :: rest)

/-- What a run is asked to do. -/
structure Plan where
  steps : List Step := []
  report : Option String := none
  settings : Option String := none
  matrix : Option String := none
  deriving DecidableEq, Repr

/-- Why the reading of arguments ended before a plan was complete. -/
inductive Stop where
  | help
  | incomplete (option : ValuedOption)
  | unknown (argument : String)
  | unexpected (argument : String)
  deriving DecidableEq, Repr

namespace Plan

/-- Adds what a group asks for. -/
def add (plan : Plan) : Group → Except Stop Plan
  | .help => .error .help
  | .undo => .ok { plan with steps := plan.steps ++ [.undo] }
  | .valued .operation text => .ok { plan with steps := plan.steps ++ [.apply text] }
  | .valued .report path => .ok { plan with report := some path }
  | .valued .settings path => .ok { plan with settings := some path }
  | .incomplete option => .error (.incomplete option)
  | .unknown argument => .error (.unknown argument)
  | .plain argument =>
    if plan.matrix.isNone then .ok { plan with matrix := some argument }
    else .error (.unexpected argument)

/-- The plan that arguments describe. -/
def ofArguments (arguments : List String) : Except Stop Plan := (groups arguments).foldlM add {}

/-- Whether a run works off its plan by itself. -/
def isCommandMode (plan : Plan) : Bool := !plan.steps.isEmpty || plan.report.isSome

end Plan

/-- The text that explains the arguments. -/
def usage : String :=
  "\n".intercalate [
    "Usage: rowreduce [OPTIONS] [FILE]",
    "",
    "Arguments:",
    "  [FILE]                    Matrix file: one row per line, numbers separated by spaces",
    "",
    "Options:",
    "  -c, --command <OP>        Apply a row operation non-interactively (can be repeated)",
    "  -u, --undo                Undo the previous operation (command mode)",
    "  -o, --output <FILE>       Write the result as Markdown (command mode)",
    "  --config <FILE>           Read settings from this config file",
    "  -h, --help                Print help",
    "",
    Fault.operationUsage,
    ""]

end Echelon.CommandLine
