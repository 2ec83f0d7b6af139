import ExactCover.Error

/-! # Boards

A grid of nine rows and nine columns, whose cells hold a digit or are blank. The cells are
numbered row by row from the top left corner.
-/

namespace ExactCover

/-- What a cell holds; zero stands for a blank. -/
abbrev Digit := Fin 10

/-- Digits have numerals, because there is a digit. The zero of the natural numbers is named, so
    that a numeral is the same term wherever it is written. -/
instance Digit.neZero : @NeZero Nat (@Zero.ofOfNat0 Nat (instOfNatNat 0)) 10 :=
  ⟨Nat.succ_ne_zero 9⟩

/-- The number of a cell. -/
abbrev CellIndex := Fin 81

/-- The cell in a row and a column. -/
def cellAt (row column : Fin 9) : CellIndex := ⟨row * 9 + column, by omega⟩

/-- The cell in the `k`-th place of a box, counted row by row within the box. -/
def boxCell (box k : Fin 9) : CellIndex :=
  cellAt ⟨box / 3 * 3 + k / 3, by omega⟩ ⟨box % 3 * 3 + k % 3, by omega⟩

/-- Which three of the nine rows, or of the nine columns, one of them belongs to. -/
def bandOf (line : Fin 9) : Fin 3 := ⟨line / 3, by omega⟩

/-- The place of the cell in a row and a column within its box. -/
def boxPlace (row column : Fin 9) : Fin 9 := ⟨row % 3 * 3 + column % 3, by omega⟩

def CellIndex.row (cell : CellIndex) : Fin 9 := ⟨cell.val / 9, by have := cell.isLt; omega⟩

def CellIndex.column (cell : CellIndex) : Fin 9 := ⟨cell.val % 9, by omega⟩

/-- A grid of digits and blanks. -/
structure Board where
  cells : Vector Digit 81
  deriving DecidableEq

namespace Board

def blank : Board := ⟨Vector.replicate 81 0⟩

/-- The board that holds in each row and column what the function says. -/
def ofFn (f : Fin 9 → Fin 9 → Digit) : Board :=
  ⟨Vector.ofFn fun cell : CellIndex => f (CellIndex.row cell) (CellIndex.column cell)⟩

/-- The board with these cells, row by row. A wrong number of cells counts before a number
    above nine, and of those the first one is reported. -/
def ofNats (numbers : List Nat) : Except Error Board :=
  if h : numbers.length = 81 then
    match numbers.zipIdx.find? (fun (number, _) => 9 < number) with
    | some (number, cell) => .error (.cellNotADigit cell number)
    | none => .ok ⟨⟨(numbers.map (Fin.ofNat 10)).toArray, by simp [h]⟩⟩
  else .error (.cellCount numbers.length)

def get (board : Board) (cell : CellIndex) : Digit := board.cells[cell.val]

def digitAt (board : Board) (row column : Fin 9) : Digit := board.get (cellAt row column)

/-- The number that the cell in a row and a column has, or would have outside the board. -/
def cellNumber (row column : Nat) : Nat := row * 9 + column

def get? (board : Board) (cell : Nat) : Option Digit := board.cells[cell]?

/-- What the cell in a row and a column holds, if they lie on the board. -/
def digitAt? (board : Board) (row column : Nat) : Option Digit :=
  if row < 9 ∧ column < 9 then board.get? (cellNumber row column) else none

/-- The board with another digit in a cell. -/
def put (board : Board) (cell : CellIndex) (digit : Digit) : Board :=
  ⟨board.cells.set cell.val digit⟩

/-- Writes a number in the cell with a number. A number above nine counts before a cell that is
    not on the board. -/
def set (board : Board) (cell value : Nat) : Except Error Board :=
  if hv : value < 10 then
    if hc : cell < 81 then .ok (board.put ⟨cell, hc⟩ ⟨value, hv⟩)
    else .error (.cellOutside cell)
  else .error (.notADigit value)

/-- Writes a number in the cell in a row and a column. A place outside the board counts before
    a number above nine. -/
def setAt (board : Board) (row column value : Nat) : Except Error Board :=
  if row < 9 ∧ column < 9 then board.set (cellNumber row column) value
  else .error (.outsideGrid row column)

def toList (board : Board) : List Digit := board.cells.toList

/-- The number of cells that are not blank. -/
def clueCount (board : Board) : Nat := board.toList.countP (· ≠ 0)

def isFilled (board : Board) : Bool := board.toList.all (· ≠ 0)

/-- What these cells hold as a set of bits, a digit by the bit of that place. -/
def digitMask (board : Board) (cells : Fin 9 → CellIndex) : Nat :=
  (List.finRange 9).foldl (fun seen k => seen ||| 1 <<< (board.get (cells k)).val) 0

/-- The mask of the digits one to nine, without that of a blank. -/
def realMask : Nat := 0b1111111110

/-- Whether these cells hold every real digit and no blank. -/
def showsAll (board : Board) (cells : Fin 9 → CellIndex) : Bool :=
  board.digitMask cells == realMask

/-- Whether no cell is blank and every row, column and box shows all nine digits. -/
def isGrid (board : Board) : Bool :=
  board.isFilled && (List.finRange 9).all fun i =>
    board.showsAll (fun column => cellAt i column) &&
    board.showsAll (fun row => cellAt row i) &&
    board.showsAll (boxCell i)

/-- Whether the other board holds the same digit wherever this one is not blank. -/
def agreesWith (board other : Board) : Bool :=
  (List.finRange 81).all fun cell => board.get cell == 0 || board.get cell == other.get cell

/-- What a completed grid is: every row, every column and every box holds each of the digits
    one to nine exactly once. -/
structure IsGrid (board : Board) : Prop where
  row : ∀ r : Fin 9, ∀ digit ≠ 0, ∃ c, board.digitAt r c = digit ∧
    ∀ other, board.digitAt r other = digit → other = c
  column : ∀ c : Fin 9, ∀ digit ≠ 0, ∃ r, board.digitAt r c = digit ∧
    ∀ other, board.digitAt other c = digit → other = r
  box : ∀ b : Fin 9, ∀ digit ≠ 0, ∃ k, board.get (boxCell b k) = digit ∧
    ∀ other, board.get (boxCell b other) = digit → other = k

/-- A completion of a board is a grid that keeps every cell that is not blank. -/
def IsCompletion (clues grid : Board) : Prop :=
  grid.IsGrid ∧ ∀ cell, clues.get cell ≠ 0 → grid.get cell = clues.get cell

end Board

end ExactCover
