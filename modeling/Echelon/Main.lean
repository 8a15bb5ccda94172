import Echelon.CommandLine

/-!
# The program

The outer layer: it looks at the files that a run may touch, runs on what it saw, and then prints
and writes what the outcome says.
-/

namespace Echelon.Program

open CommandLine

/-- A file of the program below a directory of the user: the one that the environment gives, which
has to be an absolute path, or the usual one below the home directory. -/
def userFile (given home : Option String) (usual name : String) : Option String :=
  let directory := (given.filter fun path => path.toList.head? == some '/') <|>
    ((home.filter fun path => !path.isEmpty).map (· ++ "/" ++ usual))
  directory.map (· ++ "/rowreduce/" ++ name)

/-- The surroundings that the variables of an environment describe. -/
def surroundings (s : Store) (valueOf : String → Option String) : Surroundings :=
  let home := valueOf "HOME"
  { store := s
    settingsPath := userFile (valueOf "XDG_CONFIG_HOME") home ".config" "config.toml"
    logPath := userFile (valueOf "XDG_CACHE_HOME") home ".cache" "rowreduce.log"
    logFilter := valueOf "ROWREDUCE_LOG" }

/-- The paths that a run with the given plan and settings may follow. -/
def paths (around : Surroundings) (plan : Plan) (settings : Settings) : List String :=
  [plan.matrix, plan.report, plan.settings, around.settingsPath,
    settings.logFile <|> around.logPath].filterMap id

/-- The path of an absolute location. -/
def pathOf (location : List String) : String := "/" ++ "/".intercalate location

/-- What the system has at an absolute location. -/
def probe (location : List String) : IO (Option Node) := do
  try
    let path ← IO.FS.realPath (pathOf location)
    if ← path.isDir then return some .directory
    return some (.file (← IO.FS.readBinFile path))
  catch _ => return none

/-- Adds what the system has along some paths. -/
def survey (s : Store) (paths : List String) : IO Store := do
  let mut store := s
  for location in (paths.flatMap s.waypoints).eraseDups do
    if let some node ← probe location then
      store := store.put location node
  return store

/-- Brings the system from one state of the files to the next. -/
def commit (before after : Store) : IO Unit := do
  for (location, node) in after.entries.reverse do
    unless before.at? location = some node do
      match node with
      | .directory => IO.FS.createDirAll (pathOf location)
      | .file content => IO.FS.writeBinFile (pathOf location) content

/-- The variables of the environment that a run looks at. -/
def environment : IO (String → Option String) := do
  let names := ["HOME", "XDG_CONFIG_HOME", "XDG_CACHE_HOME", "ROWREDUCE_LOG"]
  let values ← names.mapM fun name => return (name, ← IO.getEnv name)
  return fun name => (values.lookup name).join

end Echelon.Program

open Echelon Echelon.CommandLine in
/-- Runs the program, on the bare platform. -/
def main (arguments : List String) : IO UInt32 := do
  let directory := toString (← IO.currentDir)
  let nowhere : Store := ⟨[], (Store.names directory).filter fun name => name ≠ ""⟩
  let around := Program.surroundings nowhere (← Program.environment)
  let plan := (Plan.ofArguments arguments).toOption.getD {}
  let early ← Program.survey nowhere (Program.paths around plan Settings.standard)
  let (settings, _) := Settings.load early plan.settings around.settingsPath
  let store ← Program.survey early (Program.paths around plan settings)
  let outcome := run { around with store := store } arguments
  Program.commit store outcome.store
  IO.print outcome.printed
  IO.eprint outcome.complaints
  return UInt32.ofNat outcome.code
