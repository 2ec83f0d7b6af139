import ExactCover.Fault
import ExactCover.Text.Quoted

/-! # Errors

Every way in which an input can be refused, by its cause. A cause belongs to one kind, and its
text is the kind's lead followed by what was wrong.
-/

namespace ExactCover

/-- The situations that the causes fall into. -/
inductive ErrorKind where
  /-- A text is not of the expected form. -/
  | invalidFormat
  /-- A value is well formed and breaks a rule. -/
  | constraintViolation
  /-- A board that was to have one completion has none, or several. -/
  | notUniquelySolvable
  /-- A set of matrix rows does not describe a grid. -/
  | malformedSolution
  /-- A linked structure was used outside its rules. -/
  | brokenStructure
  deriving DecidableEq

/-- The text of an error of some kind, given what was wrong. -/
def ErrorKind.describe (kind : ErrorKind) (reason : String) : String :=
  match kind with
  | .invalidFormat => "invalid format: " ++ reason
  | .constraintViolation => "constraint violation: " ++ reason
  | .notUniquelySolvable => "the board does not have exactly one solution"
  | .malformedSolution => "malformed exact cover solution: " ++ reason
  | .brokenStructure => "broken structure: " ++ reason

/-- Why an input is refused. Rows, columns, cells and solutions are counted from zero. -/
inductive Error where
  | columnOutside (row column columns : Nat)
  | unevenLine (row length expected : Nat)
  /-- A line of a matrix text has a character other than a zero or a one. -/
  | notABit (row : Nat) (found : Char)
  | cellNotADigit (cell value : Nat)
  | cellCount (found : Nat)
  | notADigit (value : Nat)
  | outsideGrid (row column : Nat)
  | cellOutside (cell : Nat)
  | strayCharacter (found : Char)
  | digitCount (found : Nat)
  | noSolution
  /-- A solution of a puzzle changes a clue. -/
  | solutionMismatch (solution : Nat)
  | cellParts (clue solution : Nat)
  | clueMismatch (clue solution : Nat)
  /-- A cell with a clue is to be edited. -/
  | clueLocked
  | notUnique
  | rowMissing (row : Nat)
  | rowWithoutCell (row : Nat)
  | cellFilledTwice (row column : Nat)
  | rowWithoutDigit (row : Nat)
  | digitOutsideRow (row gridRow : Nat)
  | cellsLeft (filled : Nat)
  | noCompletion
  | fault (inner : Fault)
  deriving DecidableEq

namespace Error

/-- The situation that a cause belongs to. -/
def kind : Error → ErrorKind
  | unevenLine .. | notABit .. | strayCharacter .. | digitCount .. => .invalidFormat
  | columnOutside .. | cellNotADigit .. | cellCount .. | notADigit .. | outsideGrid ..
  | cellOutside .. | noSolution | solutionMismatch .. | cellParts .. | clueMismatch ..
  | clueLocked => .constraintViolation
  | notUnique => .notUniquelySolvable
  | rowMissing .. | rowWithoutCell .. | cellFilledTwice .. | rowWithoutDigit ..
  | digitOutsideRow .. | cellsLeft .. | noCompletion => .malformedSolution
  | fault .. => .brokenStructure

/-- What was wrong, without the lead of the kind. -/
def reason : Error → String
  | columnOutside row column columns =>
      s!"row {row} sets column {column}, but the matrix has {columns} columns"
  | unevenLine row length expected => s!"row {row} has {length} characters, expected {expected}"
  | notABit row found =>
      s!"row {row} contains " ++ quoteChar found ++ "; only '0' and '1' are allowed"
  | cellNotADigit cell value => s!"cell {cell} holds {value}, expected a digit between 0 and 9"
  | cellCount found => s!"a board has 81 cells, got {found}"
  | notADigit value => s!"{value} is not a digit between 0 and 9"
  | outsideGrid row column => s!"({row}, {column}) is outside the 9x9 grid"
  | cellOutside cell => s!"cell index {cell} is outside the 9x9 grid"
  | strayCharacter found => quoteChar found ++ " is not a digit"
  | digitCount found => s!"expected 81 digits, found {found}"
  | noSolution => "a sudoku needs at least one solution"
  | solutionMismatch solution => s!"solution {solution} does not match the clues"
  | cellParts clue solution =>
      s!"clue {clue} and solution {solution} must be digits between 0 and 9"
  | clueMismatch clue solution => s!"clue {clue} does not match solution {solution}"
  | clueLocked => "clue cells cannot be edited"
  | notUnique => ""
  | rowMissing row => s!"row {row} is not in the matrix"
  | rowWithoutCell row => s!"row {row} has no cell constraint"
  | cellFilledTwice row column => s!"cell ({row}, {column}) is filled twice"
  | rowWithoutDigit row => s!"row {row} has no row constraint"
  | digitOutsideRow row gridRow => s!"row {row} places a digit outside 1 to 9 in row {gridRow}"
  | cellsLeft filled => s!"only {filled} of 81 cells are filled"
  | noCompletion => "the diagonal seed grid has no completion"
  | fault inner => inner.message

def message (error : Error) : String :=
  error.kind.describe error.reason

end Error

end ExactCover
