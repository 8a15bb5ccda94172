import Echelon.Settings
import Echelon.Settings.LogFilter
import Echelon.Terminal

/-!
# Platforms

What a run leaves to others: reading a settings text, understanding log filters, writing the
journal, and the terminal. A run is the same program on every platform.
-/

namespace Echelon

/-- Those parts of a run that are done outside of it. -/
class Platform where
  readSettings : Settings.Reader
  isLogFilter : String → Bool
  /-- What is written at a place for some entries of the journal, as a log filter lets them pass. -/
  writeJournal : Journal.Place → String → List Journal.Entry → String
  terminal : Terminal

/-- A platform without a terminal, where no journal is kept. -/
instance Platform.bare : Platform where
  readSettings := .flat
  isLogFilter := LogFilter.isValid
  writeJournal _ _ _ := ""
  terminal := .absent

end Echelon
