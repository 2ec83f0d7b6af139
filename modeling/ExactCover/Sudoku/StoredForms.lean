import ExactCover.Stored
import ExactCover.Sudoku.Difficulty
import ExactCover.Sudoku.Puzzle

/-! # Stored boards, puzzles, cells and difficulties

Each type has a writer and a reader. A reader accepts no value that could not also be built in
another way: what is read is checked by the same functions that build boards, puzzles and cells.
-/

namespace ExactCover

/-- A board is stored as the list of its 81 digits. -/
def Board.store (board : Board) : Stored :=
  .list (board.toList.map fun digit => .natural digit.val)

/-- Reads a board. All items are read as bytes before they are checked to be a board. -/
def Board.restore : Stored.Reader Board := fun stored => do
  Stored.checked (Board.ofNats (← Stored.listOf Stored.byte stored))

/-- A puzzle is stored as its clues and its solutions. -/
def Puzzle.store (puzzle : Puzzle) : Stored :=
  .record [("clues", puzzle.clues.store), ("solutions", .list (puzzle.solutions.map Board.store))]

def Puzzle.restore : Stored.Reader Puzzle := fun stored => do
  let (clues, solutions) ← Stored.pair
    ("clues", Board.restore) ("solutions", Stored.listOf Board.restore) stored
  Stored.checked (Puzzle.ofBoards clues solutions)

/-- A cell is stored as its three digits. -/
def Cell.store (cell : Cell) : Stored :=
  .record [("clue", .natural cell.clue.val), ("solution", .natural cell.solution.val),
    ("value", .natural cell.value.val)]

def Cell.restore : Stored.Reader Cell := fun stored => do
  let (clue, solution, value) ← Stored.triple
    ("clue", Stored.byte) ("solution", Stored.byte) ("value", Stored.byte) stored
  Stored.checked (Cell.ofParts clue solution value)

/-- A difficulty is stored as its name. -/
def Difficulty.store (difficulty : Difficulty) : Stored := .text difficulty.name

/-- Reads a difficulty: its name, or a record with that name alone and nothing in it. -/
def Difficulty.restore : Stored.Reader Difficulty
  | .text name => Stored.present (ofName? name)
  | .record [(name, .null)] => Stored.present (ofName? name)
  | _ => .error .shape

end ExactCover
