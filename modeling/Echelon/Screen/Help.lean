/-!
# Help text

The text of the help box and the reminder in the status line.
-/

namespace Echelon.Help

/-- The lines of the help box. Lines that are not indented are headings. -/
def lines : List String := [
  "Matrix input:",
  "  Enter            Set matrix (clears history and log)",
  "  Shift/Alt+Enter  New row",
  "  Rows on lines, numbers separated by spaces",
  "",
  "Operations:",
  "  R1 <> R2         Swap rows",
  "  R1 = R1 * -2     Multiply a row",
  "  R1 = R1 / 3      Divide a row (inexact cells become a/b)",
  "  R2 = R2 - 3R1    Add/subtract a multiple of a row",
  "  R2 = R2 + R1     Coefficient defaults to 1",
  "  Rows are R1..R9",
  "",
  "Keys:",
  "  Tab              Switch input",
  "  Ctrl+Z           Undo",
  "  Ctrl+R           Reset",
  "  F1               This help",
  "  Esc / Ctrl+C     Quit"]

/-- Whether a line of the help text is a heading. -/
def isHeading (line : String) : Bool := !line.isEmpty && line.toList.take 2 != [' ', ' ']

/-- The reminder of the keys. -/
def hint : String := "Enter:apply  Tab:switch  C-z:undo  C-r:reset  F1:help  Esc:quit"

end Echelon.Help
