import ExactCover.Console.Snapshot
import ExactCover.IncidenceMatrix.Text
import ExactCover.Main
import ExactCover.Proofs.BoardText
import ExactCover.Proofs.Generation
import ExactCover.Proofs.GridRules
import ExactCover.Proofs.MatrixText
import ExactCover.Proofs.SolverCounters
import ExactCover.Proofs.StoredForms
import ExactCover.Sudoku.StoredForms
import ExactCover.Proofs.ExactUndo
import ExactCover.Proofs.BoardReading
import ExactCover.Proofs.RemovalCalls
import ExactCover.Proofs.JoinedSortings
import ExactCover.Proofs.Arrangements
import ExactCover.Proofs.DiagonalBoxes
import ExactCover.Proofs.GivenDigits
import ExactCover.Proofs.LinkedCalls
import ExactCover.Proofs.MatrixRows
import ExactCover.Proofs.CompletionWork
import ExactCover.Proofs.FinalRejections
import ExactCover.Proofs.Reports
import ExactCover.Proofs.Selections
import ExactCover.Proofs.NestedRemovals
import ExactCover.Proofs.SearchFrames
