import ExactCover.Sudoku.Board

/-! # Puzzles and playable cells

A puzzle is a board of clues with at least one solution, each of which keeps the clues. A
playable cell has a clue or is open, knows its solution, and shows a value that a player may
change while the cell is open.
-/

namespace ExactCover

/-- A cell of a game in progress. -/
structure Cell where
  /-- The digit given with the puzzle; a blank when the cell is open. -/
  clue : Digit
  solution : Digit
  value : Digit
  /-- A clue is the solution. -/
  clue_eq : clue = 0 ∨ clue = solution
  /-- A cell with a clue shows it. -/
  value_eq : clue = 0 ∨ value = clue
  deriving DecidableEq

namespace Cell

/-- A cell that shows its clue. Numbers above nine count before a clue that is not the
    solution. -/
def ofClue (clue solution : Nat) : Except Error Cell :=
  if hd : clue < 10 ∧ solution < 10 then
    if hc : clue = 0 ∨ clue = solution then
      .ok {
        clue := ⟨clue, hd.1⟩
        solution := ⟨solution, hd.2⟩
        value := ⟨clue, hd.1⟩
        clue_eq := hc.imp (fun h => Fin.ext h) (fun h => Fin.ext h)
        value_eq := .inr rfl }
    else .error (.clueMismatch clue solution)
  else .error (.cellParts clue solution)

def isEditable (cell : Cell) : Bool := cell.clue == 0

def isSolved (cell : Cell) : Bool := cell.value == cell.solution

/-- Shows another digit in an open cell. A number above nine counts before a clue. -/
def edit (value : Nat) : ExceptT Error (StateM Cell) Unit := do
  if hv : value < 10 then
    let cell ← get
    if hc : cell.clue = 0 then
      set { cell with value := ⟨value, hv⟩, value_eq := .inl hc }
    else throw .clueLocked
  else throw (.notADigit value)

/-- The cell after an edit, unless that is refused. -/
def enter (cell : Cell) (value : Nat) : Except Error Cell :=
  let (result, after) := (edit value).run.run cell
  result.map fun _ => after

/-- The cell with this clue, solution and shown digit. -/
def ofParts (clue solution value : Nat) : Except Error Cell := do
  let cell ← ofClue clue solution
  if cell.value.val = value then return cell else cell.enter value

end Cell

/-- Clues together with solutions that keep them. -/
structure Puzzle where
  clues : Board
  solutions : List Board
  solved : solutions ≠ []
  agree : ∀ solution ∈ solutions, clues.agreesWith solution
  deriving DecidableEq

namespace Puzzle

/-- The puzzle of these clues and solutions. A missing solution counts before one that changes
    a clue, and of those the first one is reported. -/
def ofBoards (clues : Board) (solutions : List Board) : Except Error Puzzle :=
  if hs : solutions = [] then .error .noSolution
  else match h : solutions.findIdx? (!clues.agreesWith ·) with
    | some index => .error (.solutionMismatch index)
    | none => .ok {
        clues
        solutions
        solved := hs
        agree := fun solution member => by simpa using List.findIdx?_eq_none_iff.1 h solution member }

def solution (puzzle : Puzzle) : Board := puzzle.solutions.head puzzle.solved

theorem solution_mem (puzzle : Puzzle) : puzzle.solution ∈ puzzle.solutions :=
  List.head_mem puzzle.solved

/-- The clue and the digit of the first solution in a cell, as a playable cell. -/
def cell (puzzle : Puzzle) (index : CellIndex) : Cell where
  clue := puzzle.clues.get index
  solution := puzzle.solution.get index
  value := puzzle.clues.get index
  clue_eq := by
    have agrees := puzzle.agree _ puzzle.solution_mem
    have here := List.all_eq_true.1 agrees index (List.mem_finRange index)
    simpa using here
  value_eq := .inr rfl

/-- The 81 playable cells, row by row. -/
def cells (puzzle : Puzzle) : List Cell := (List.finRange 81).map puzzle.cell

end Puzzle

end ExactCover
