import Echelon.Screen.Columns
import Echelon.Screen.Help
import Echelon.Screen.Picture
import Echelon.Text.Lines
import Echelon.Workbench

/-!
# The screen

The workbench drawn to a grid of glyphs. From the top: the matrix input, the matrix and the log
side by side, then the operation input and the status line. The help box covers the middle. Content
that does not fit its box is cut; the log keeps its newest entries in sight.
-/

namespace Echelon.Workbench

open Picture

/-- The width of the matrix input. -/
def inputWidth : Nat := 24

/-- The width of the log. -/
def logWidth : Nat := 28

/-- The height of the operation input. -/
def operationHeight : Nat := 3

/-- The width of the row names beside the matrix. -/
def rowNameWidth : Nat := 4

/-- The text of an input by lines, with a mark at the cursor if it has the focus. -/
def inputLines (e : Editor) (focused : Bool) : Picture :=
  let a := e.around
  let text := if focused then a.before.reverse ++ '│' :: a.after else e.text.toList
  (Text.lines text).map (Strip.paint .plain)

/-- An input in its box. -/
def inputBox (e : Editor) (focused : Bool) (title : String) (width height : Nat) : Picture :=
  framed (if focused then .cyan else .darkGray) title width height (inputLines e focused)

/-- The colour of a cell. -/
def cellColor (cell : Cell) : Color :=
  if cell.text.toList.head? = some '#' then .red
  else if cell.isFraction then .yellow
  else .plain

/-- A line of the matrix table: its parts in columns of the given widths, with a space between. -/
def tableStrip (widths : List Nat) (parts : List Strip) : Strip :=
  [⟨" ", .plain⟩].intercalate (List.zipWith Strip.fit widths parts)

/-- The matrix as a table with the names of its rows and columns, for the given room. -/
def matrixTable (columnWidth room : Nat) (m : Matrix) : Picture :=
  let widths := Columns.widths room (rowNameWidth :: List.replicate m.width columnWidth)
  let label (name : String) (index : Nat) : Strip :=
    Strip.paint .darkGray (name ++ (index + 1).repr).toList
  let header := tableStrip widths ([] :: (List.range m.width).map (label "C"))
  let rows := m.rows.zipIdx.map fun (row, index) =>
    tableStrip widths (label "R" index ::
      row.map fun cell => Strip.paint (cellColor cell) cell.text.toList)
  header :: rows

/-- The matrix in its box, or what to do when there is none. -/
def matrixBox (w : Workbench) (width height : Nat) : Picture :=
  framed .plain " Row Reduce " width height <|
    if w.view.matrix.isEmpty then
      [Strip.paint .darkGray "Enter a matrix and press Enter".toList]
    else matrixTable w.appearance.columnWidth (width - 2) w.view.matrix

/-- A number at the end of at least two columns. -/
def entryNumber (number : Nat) : List Char :=
  let digits := number.repr.toList
  List.replicate (2 - digits.length) ' ' ++ digits

/-- The log with its entries numbered. -/
def logLines (log : List String) : Picture :=
  (log.zipIdx 1).map fun (text, number) =>
    Strip.paint .darkGray (entryNumber number ++ ". ".toList) ++ Strip.paint .plain text.toList

/-- How many lines of the log are above the first one in sight: a 16-bit count, so that it starts
over at 65536. -/
def logScroll (lineCount height : Nat) : Nat := (lineCount - height) % 65536

/-- The lines of the log in sight when there is room for `height` of them. -/
def visibleLog (log : List String) (height : Nat) : Picture :=
  ((logLines log).drop (logScroll log.length height)).take height

/-- The log in its box. -/
def logBox (w : Workbench) (height : Nat) : Picture :=
  framed .plain " Log " logWidth height (visibleLog w.view.log (height - 2))

/-- The status line: the latest notice or the reminder of the keys, and the time. -/
def statusLine (w : Workbench) : Strip :=
  let message := match w.view.notice with
    | some (.error _ message) => Strip.paint .red ("Error: " ++ message).toList
    | some (.info text) => Strip.paint .yellow text.toList
    | none => Strip.paint .darkGray Help.hint.toList
  let time :=
    if w.appearance.showTimer then
      Strip.paint .darkGray "  |  ".toList ++ Strip.paint .green w.view.stopwatch.text.toList
    else []
  message ++ time

/-- The help text from the line that it is scrolled to. -/
def helpLines (scroll : Nat) : Picture :=
  (Help.lines.drop scroll).map fun line =>
    Strip.paint (if Help.isHeading line then .yellow else .white) line.toList

/-- The place at a number of hundredths of a length, a half going up. -/
def atPercent (length percent : Nat) : Nat := (length * percent + 50) / 100

/-- A screen with the help box over it. -/
def coverWithHelp (scroll width height : Nat) (screen : Picture) : Picture :=
  let (left, right) := (atPercent width 15, atPercent width 85)
  let (top, bottom) := (atPercent height 10, atPercent height 90)
  let box := framed .green " Help (Esc to close) " (right - left) (bottom - top)
    (helpLines scroll)
  screen.cover box left top

/-- The workbench drawn to a screen of the given size. -/
def screen (w : Workbench) (width height : Nat) : Picture :=
  let bodyHeight := height - operationHeight - 1
  let body :=
    ((inputBox w.matrixInput (w.focus = .matrix) " Matrix " inputWidth bodyHeight).beside
      (w.matrixBox (width - inputWidth - logWidth) bodyHeight)).beside (w.logBox bodyHeight)
  let operation :=
    inputBox w.operationInput (w.focus = .operation) " Operation " width operationHeight
  let whole := body ++ operation ++ [w.statusLine.fit width]
  if w.helpOpen then coverWithHelp w.helpScroll width height whole else whole

end Echelon.Workbench
