import Echelon.Document

/-!
# Reports

A document in writing: the plain form, one line of cells for each row, and the Markdown form, a
table of the matrix followed by the numbered operations. `writeReport` puts the Markdown form into a
file.
-/

namespace Echelon.Document

/-- The cells of the matrix, one row on a line. -/
def plain (d : Document) : String :=
  String.join (d.snapshot.texts.map fun row => " ".intercalate row ++ "\n")

/-- A table row: its parts with a bar after each. -/
def tableLine (first : String) (rest : List String) : String :=
  first ++ String.join rest ++ "\n"

/-- The matrix as a Markdown table. -/
def table (m : Matrix) : String :=
  let columns := List.range m.width
  let header := tableLine "|   |" (columns.map fun c => " C" ++ (c + 1).repr ++ " |")
  let rule := tableLine "|---|" (columns.map fun _ => "---|")
  let rows := (m.rows.zipIdx 1).map fun (row, number) =>
    tableLine ("| R" ++ number.repr ++ " |") (row.map fun cell => " " ++ cell.text ++ " |")
  header ++ rule ++ String.join rows

/-- The operations as a numbered list. -/
def operationList (log : List String) : String :=
  String.join ((log.zipIdx 1).map fun (text, number) => number.repr ++ ". `" ++ text ++ "`\n")

/-- The Markdown report on a document. -/
def markdown (d : Document) : String :=
  "# Matrix\n\n" ++
    (if d.snapshot.isEmpty then "*No matrix loaded*\n" else table d.snapshot) ++
    "\n## Operations\n\n" ++
    (if d.log.isEmpty then "*None*\n" else operationList d.log)

/-- The files after the report on a document was written to a path. -/
def writeReport (d : Document) (s : Store) (path : String) : Except Fault Store :=
  match s.write path d.markdown with
  | .ok next => .ok next
  | .error fault => .error (.unreadable fault.message)

end Echelon.Document
