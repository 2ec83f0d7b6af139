import ExactCover.IncidenceMatrix
import ExactCover.Sudoku.Board

/-! # Sudoku as an exact cover problem

A placement puts a digit into a cell. Each placement is a row of a matrix that sets four of its
324 columns, one for each rule that a grid has to keep:

* columns 0 to 80: every cell holds one digit;
* columns 81 to 161: every row holds every digit once;
* columns 162 to 242: every column holds every digit once;
* columns 243 to 323: every box holds every digit once.

An exact cover of the matrix is a grid, and its rows are the placements of the grid.
-/

namespace ExactCover

/-- A digit put into a cell. -/
structure Placement where
  row : Fin 9
  column : Fin 9
  /-- The digit less one. -/
  rank : Fin 9
  deriving DecidableEq

namespace Placement

def count : Nat := 729

def constraintCount : Nat := 324

/-- The placement of a digit in the cell in a row and a column, if the cell is on the board and
    the digit is one to nine. -/
def of? (row column digit : Nat) : Option Placement :=
  if h : row < 9 ∧ column < 9 ∧ 1 ≤ digit ∧ digit ≤ 9 then
    some ⟨⟨row, h.1⟩, ⟨column, h.2.1⟩, ⟨digit - 1, by omega⟩⟩
  else none

def number (placement : Placement) : Nat :=
  placement.row * 81 + placement.column * 9 + placement.rank

def ofNumber (number : Fin 729) : Placement :=
  ⟨⟨number / 81, by omega⟩, ⟨number / 9 % 9, by omega⟩, ⟨number % 9, by omega⟩⟩

def box (placement : Placement) : Nat := placement.row / 3 * 3 + placement.column / 3

/-- The matrix columns that a placement sets. -/
def constraints (placement : Placement) : List Nat :=
  [placement.row * 9 + placement.column,
    81 + placement.row * 9 + placement.rank,
    162 + placement.column * 9 + placement.rank,
    243 + placement.box * 9 + placement.rank]

theorem pairwise_constraints (placement : Placement) :
    placement.constraints.Pairwise (· < ·) := by
  have := placement.row.isLt
  have := placement.column.isLt
  have := placement.rank.isLt
  have : placement.box < 9 := by simp only [box]; omega
  simp only [constraints, List.pairwise_cons, List.mem_cons, List.not_mem_nil, or_false,
    forall_eq_or_imp, forall_eq]
  simp
  omega

theorem constraints_lt {placement : Placement} {column : Nat}
    (h : column ∈ placement.constraints) : column < constraintCount := by
  have := placement.row.isLt
  have := placement.column.isLt
  have := placement.rank.isLt
  have : placement.box < 9 := by simp only [box]; omega
  simp only [constraints, List.mem_cons, List.not_mem_nil, or_false] at h
  simp only [constraintCount]
  omega

/-- The matrix whose rows are all placements and whose columns are the rules. -/
def matrix : IncidenceMatrix where
  columns := constraintCount
  rows := Array.ofFn fun number : Fin 729 => (ofNumber number).constraints
  ascending := by
    intro row hrow
    obtain ⟨number, _, rfl⟩ := Array.mem_ofFn.1 hrow
    exact pairwise_constraints _
  inside := by
    intro row hrow column hcolumn
    obtain ⟨number, _, rfl⟩ := Array.mem_ofFn.1 hrow
    exact constraints_lt hcolumn

end Placement

namespace Board

/-- The placement of the digit in a cell, unless the cell is blank. -/
def placementAt? (board : Board) (cell : CellIndex) : Option Placement :=
  Placement.of? (CellIndex.row cell) (CellIndex.column cell) (board.get cell)

/-- The matrix rows of the placements on a board, in the order of the cells. -/
def clueRows (board : Board) : List Nat :=
  (List.finRange 81).filterMap fun cell => (board.placementAt? cell).map Placement.number

/-- Puts the placement of a matrix row onto a board. The row's first column is to name a cell
    that is still blank, and its first column from 81 on a digit of that cell's row. -/
def place (matrix : IncidenceMatrix) (board : Board) (number : Nat) : Except Error Board :=
  match matrix.row? number with
  | none => .error (.rowMissing number)
  | some columns =>
      match columns.head? with
      | none => .error (.rowWithoutCell number)
      | some cell =>
          if hcell : cell < 81 then
            if board.get ⟨cell, hcell⟩ = 0 then
              match columns.find? (81 ≤ ·) with
              | none => .error (.rowWithoutDigit number)
              | some mark =>
                  if mark < 162 then
                    if h : 81 + cell / 9 * 9 ≤ mark ∧ mark < 81 + cell / 9 * 9 + 9 then
                      .ok (board.put ⟨cell, hcell⟩ ⟨mark - 81 - cell / 9 * 9 + 1, by omega⟩)
                    else .error (.digitOutsideRow number (cell / 9))
                  else .error (.rowWithoutDigit number)
            else .error (.cellFilledTwice (cell / 9) (cell % 9))
          else .error (.rowWithoutCell number)

/-- The board whose placements are these rows of a matrix. -/
def ofRows (matrix : IncidenceMatrix) (numbers : List Nat) : Except Error Board := do
  let board ← numbers.foldlM (place matrix) blank
  if board.isFilled then return board else throw (.cellsLeft board.clueCount)

end Board

end ExactCover
