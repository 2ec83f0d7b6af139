import ExactCover.Sudoku.ClueRemoval
import ExactCover.Sudoku.Completion
import ExactCover.Sudoku.Difficulty
import ExactCover.Sudoku.Puzzle

/-! # Generating puzzles

A generator fills the three boxes on the diagonal at random, completes them to a grid, and
removes clues from the grid while it stays the only completion. The three boxes share no row,
no column and no box, so they can always be completed.
-/

namespace ExactCover

/-- A source of puzzles. -/
structure Generator where
  /-- The source of random numbers, which goes on from puzzle to puzzle. -/
  source : RandomSource
  /-- How many draws in a row may fail before a puzzle is taken as it is. -/
  maxTries : Nat

/-- A puzzle that was made, and what was reported on the way. -/
structure Generated where
  puzzle : Puzzle
  log : List LogEvent

/-- The board whose diagonal boxes hold the given digits row by row, and which is blank
    elsewhere. -/
def Board.ofDiagonal (boxes : Fin 3 → Vector Digit 9) : Board :=
  ofFn fun row column =>
    if bandOf row = bandOf column then (boxes (bandOf row)).get (boxPlace row column) else 0

namespace Generator

/-- How many draws in a row may fail unless told otherwise. -/
def defaultMaxTries : Nat := 40

/-- The digits of a box in ascending order. -/
def sortedBox : Vector Digit 9 := #v[1, 2, 3, 4, 5, 6, 7, 8, 9]

/-- The first completion of a board of diagonal boxes. -/
def completeDiagonal (boxes : Fin 3 → Vector Digit 9) : Except Error Board := do
  match ← (Board.ofDiagonal boxes).completionsUpTo 1 with
  | grid :: _ => return grid
  | [] => throw .noCompletion

/-- The digits of three boxes, shuffled one box after the other. -/
def shuffledBoxes {σ : Type} (draw : Draw σ) (state : σ) : (Fin 3 → Vector Digit 9) × σ :=
  let first := shuffle draw sortedBox state
  let second := shuffle draw sortedBox first.2
  let third := shuffle draw sortedBox second.2
  let boxes : Fin 3 → Vector Digit 9
    | 0 => first.1
    | 1 => second.1
    | 2 => third.1
  (boxes, third.2)

/-- A random grid. -/
def filledBoard (generator : Generator) : Except Error (Board × Generator) := do
  let shuffled := shuffledBoxes RandomSource.below generator.source
  let grid ← completeDiagonal shuffled.1
  return (grid, { generator with source := shuffled.2 })

/-- The judge that accepts the boards with one completion. -/
def judge : Judge Unit Error := fun board _ => do return (← board.hasUniqueCompletion, ())

/-- A random puzzle with one solution that aims for a number of clues. -/
def withClues (generator : Generator) (target : Nat) : Except Error (Generated × Generator) := do
  let (grid, generator) ← generator.filledBoard
  let removed ← RemovalState.run RandomSource.below judge target generator.maxTries
    ⟨.start grid, generator.source, ()⟩
  let puzzle ← Puzzle.ofBoards removed.clues [grid]
  return (⟨puzzle, removed.log⟩, { generator with source := removed.source })

/-- A random puzzle with one solution that aims for the number of clues of a difficulty. -/
def generate (generator : Generator) (difficulty : Difficulty) :
    Except Error (Generated × Generator) :=
  generator.withClues difficulty.clues

end Generator

end ExactCover
