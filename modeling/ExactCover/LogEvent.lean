import ExactCover.Search

/-! # Log events

What the library reports about its own work, apart from its answers: a level, the part of the
program that an event comes from, and a text.
-/

namespace ExactCover

/-- How much an event matters, the most important first. -/
inductive LogLevel where
  | error
  | warn
  | info
  | debug
  | trace
  deriving DecidableEq

namespace LogLevel

def rank : LogLevel → Nat
  | .error => 1
  | .warn => 2
  | .info => 3
  | .debug => 4
  | .trace => 5

def name : LogLevel → String
  | .error => "ERROR"
  | .warn => "WARN"
  | .info => "INFO"
  | .debug => "DEBUG"
  | .trace => "TRACE"

end LogLevel

/-- What is reported. -/
inductive LogEvent where
  | forcedRowClash (row : Nat)
  | clueRemoved (cell remaining : Nat)
  | removalStopped (remaining target failures : Nat)
  | puzzleReady (remaining : Nat)
  /-- The completions of a board were searched for. -/
  | searchFinished (elapsed : String) (stats : Statistics)
  | fileSkipped (path : String)
  deriving DecidableEq

namespace LogEvent

def level : LogEvent → LogLevel
  | clueRemoved .. => .trace
  | _ => .debug

/-- The part of the program that an event comes from. -/
def target : LogEvent → String
  | forcedRowClash .. => "sudoku_dlx::dlx::graph"
  | clueRemoved .. | removalStopped .. | puzzleReady .. => "sudoku_dlx::sudoku::generator"
  | searchFinished .. | fileSkipped .. => "sudoku_dlx::command_line::cli"

def text : LogEvent → String
  | forcedRowClash row => s!"forced row {row} clashes with an earlier forced row"
  | clueRemoved cell remaining => s!"removed cell {cell}, {remaining} clues left"
  | removalStopped remaining target failures =>
      s!"stopping at {remaining} clues (target {target}) after {failures} failed removals"
  | puzzleReady remaining => s!"generated a puzzle with {remaining} clues"
  | searchFinished elapsed stats => s!"search finished in {elapsed}: " ++ stats.describe
  | fileSkipped path => s!"Skipping non-sudoku file: {path}"

/-- The events of building a graph: the clash of forced rows, if there is one. -/
def ofClash (clash : Option Nat) : List LogEvent := (clash.map forcedRowClash).toList

end LogEvent

end ExactCover
