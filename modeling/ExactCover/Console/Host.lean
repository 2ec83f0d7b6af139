import ExactCover.Console.FileTree
import ExactCover.Console.Report

/-! # The world around the command line

The program reaches files, clocks, memory figures and its output through a host, so that it can
be run on a real machine and on a value alike.
-/

namespace ExactCover.Console

/-- Where the program runs. -/
structure Host (m : Type → Type) where
  /-- What stands at a path. -/
  kindAt : String → m PathKind
  /-- The bytes of the file at a path. -/
  bytesAt : String → m ByteArray
  /-- What the directory at a path holds; the bytes of its files need not be read. -/
  treeAt : String → m FileTree
  /-- The value of a computation, and the nanoseconds that it took. -/
  timed : {α : Type} → (Unit → α) → m (α × Nat)
  memory : m Memory
  /-- A seed that differs from run to run. -/
  freshSeed : m UInt64
  print : String → m Unit
  /-- Prints a line of diagnostics. -/
  complain : String → m Unit

/-- Why a run fails. -/
inductive Failure where
  /-- Nothing was asked for. -/
  | nothingAsked
  | noSuchFile (path : String)
  | notAFile (path : String)
  | notText (path : String)
  | badFile (path : String) (cause : Error)
  | badText (cause : Error)
  | notADirectory (path : String)
  | unsolved (cause : Error)
  | notAGrid (number : Nat)
  | clueChanged (number : Nat)
  | ungenerated (cause : Error)
  | notVerified (number : Nat) (cause : Error)
  | otherGrid (number : Nat)
  deriving DecidableEq

def Failure.message : Failure → String
  | .nothingAsked => "No command provided. Use --help for more information."
  | .noSuchFile path => s!"Sudoku file does not exist: {path}"
  | .notAFile path => s!"Provided path is not a file: {path}"
  | .notText path => s!"Unable to read {path}: stream did not contain valid UTF-8"
  | .badFile path cause => s!"Error parsing Sudoku file {path}: " ++ cause.message
  | .badText cause => "Error parsing board: " ++ cause.message
  | .notADirectory path => s!"Provided path is not a directory: {path}"
  | .unsolved cause => cause.message
  | .notAGrid number => s!"Solution {number} is not a valid grid"
  | .clueChanged number => s!"Solution {number} does not keep the clues"
  | .ungenerated cause => cause.message
  | .notVerified number cause => s!"Puzzle {number} failed verification: " ++ cause.message
  | .otherGrid number => s!"Puzzle {number} solves to a different grid"

end ExactCover.Console
