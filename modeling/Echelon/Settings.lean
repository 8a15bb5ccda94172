import Echelon.Settings.Toml
import Echelon.Store
import Echelon.Text.Blank

/-!
# Settings

What the user can choose in a settings file. Nothing wrong with the file stops the program: it
becomes a warning, and the standard settings take its place. How choices are written in a file is
for its reader to say: a function from the text to the choices, or to what is wrong with it.
-/

namespace Echelon

/-- The settings in effect. -/
structure Settings where
  columnWidth : Nat
  showTimer : Bool
  logFilter : Option String
  logFile : Option String
  deriving DecidableEq, Repr

namespace Settings

def standard : Settings := ⟨10, true, none, none⟩

/-- The narrowest and the widest column. -/
def leastWidth : Nat := 4

def greatestWidth : Nat := 40

/-- What a settings file says, setting by setting. -/
structure Choices where
  columnWidth : Option Nat := none
  showTimer : Option Bool := none
  logFilter : Option String := none
  logFile : Option String := none
  deriving DecidableEq, Repr

/-- Adds what an assignment says, which has to be a known setting with a fitting value. -/
def Choices.add? (c : Choices) : String × Toml.Value → Option Choices
  | ("col_width", .integer n) =>
    if c.columnWidth.isNone ∧ 0 ≤ n ∧ n ≤ 65535 then some { c with columnWidth := some n.toNat }
    else none
  | ("show_timer", .boolean b) =>
    if c.showTimer.isNone then some { c with showTimer := some b } else none
  | ("log_filter", .text s) =>
    if c.logFilter.isNone then some { c with logFilter := some s } else none
  | ("log_file", .text s) =>
    if c.logFile.isNone then some { c with logFile := some s } else none
  | _ => none

/-- What a settings text says, if all of it can be understood. -/
def Choices.ofText? (text : String) : Option Choices := do
  (← Toml.assignments? text).foldlM Choices.add? {}

/-- A function that finds the choices in a text, or says what is wrong with the text. -/
abbrev Reader := String → Except String Choices

/-- A reader of flat TOML, which does not say what is wrong. -/
def Reader.flat : Reader := fun text =>
  match Choices.ofText? text with
  | some choices => .ok choices
  | none => .error "..."

/-- The column width in effect for a chosen one. -/
def clampWidth (width : Nat) : Nat := min greatestWidth (max leastWidth width)

/-- The warning about a column width that is not in effect as chosen. -/
def widthWarnings (width : Nat) : List String :=
  if clampWidth width = width then []
  else
    ["col_width " ++ width.repr ++ " out of range " ++ leastWidth.repr ++ "..=" ++
      greatestWidth.repr ++ "; using " ++ (clampWidth width).repr]

/-- The settings in effect for some choices, and the warnings about them. -/
def ofChoices (c : Choices) : Settings × List String :=
  let filter := (c.logFilter.map Text.trimmed).filter fun filter => !filter.isEmpty
  (⟨(c.columnWidth.map clampWidth).getD standard.columnWidth,
      c.showTimer.getD standard.showTimer, filter, c.logFile⟩,
    (c.columnWidth.map widthWarnings).getD [])

/-- The settings in the file at a path, and the warnings about it. -/
def ofFile (read : Reader) (path : String) (found : Except StoreFault Node) :
    Settings × List String :=
  match readText path "file" found with
  | .ok text =>
    match read text with
    | .ok choices => ofChoices choices
    | .error why => (standard, ["Failed to parse " ++ path ++ ": " ++ why])
  | .error (.tooLarge path subject size limit) =>
    (standard, [(StoreFault.tooLarge path subject size limit).message])
  | .error fault => (standard, ["Failed to read " ++ path ++ ": " ++ fault.message])

/-- The settings from the file that the user named, or else from the usual one, which need not
exist. -/
def Reader.load (read : Reader) (s : Store) (named usual : Option String) :
    Settings × List String :=
  match named <|> usual with
  | none => (standard, [])
  | some path =>
    match s.look path with
    | .ok node => ofFile read path (.ok node)
    | .error _ =>
      (standard, if named.isSome then ["Config file not found: " ++ path] else [])

/-- The settings from a file in flat TOML. -/
def load : Store → Option String → Option String → Settings × List String := Reader.flat.load

end Settings

end Echelon
