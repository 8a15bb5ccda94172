import Echelon.Main
import Echelon.Screen
import Echelon.Number.Word
import Echelon.Proofs.Operation.Classification
import Echelon.Proofs.Operation.RoundTrip
import Echelon.Proofs.Document.Replay
import Echelon.Proofs.Document.WellFormed
import Echelon.Proofs.Document.Undo
import Echelon.Proofs.Document.ReadBack
import Echelon.Proofs.Matrix.Solutions
import Echelon.Proofs.Session.View
import Echelon.Proofs.CommandLine.Reproduce
import Echelon.Proofs.CommandLine.FrontEnds
import Echelon.Proofs.Matrix.Effect
import Echelon.Proofs.Matrix.Division
import Echelon.Proofs.Document.Report
import Echelon.Proofs.Editor.Bytes
import Echelon.Proofs.Workbench.Cursors
import Echelon.Proofs.Matrix.Refusal
import Echelon.Proofs.Matrix.Locality
import Echelon.Proofs.Matrix.Renaming
import Echelon.Proofs.Editor.Indexed
import Echelon.Proofs.Matrix.Columns
import Echelon.Proofs.Matrix.ZeroSign
import Echelon.Proofs.Workbench.Loading
import Echelon.Proofs.CommandLine.Groups
import Echelon.Proofs.CommandLine.Sittings
import Echelon.Proofs.Document.ReportLines
import Echelon.Proofs.Screen.Log
import Echelon.Proofs.Screen.Size
import Echelon.Proofs.Operation.Order
import Echelon.Proofs.Number.RoundTrip
