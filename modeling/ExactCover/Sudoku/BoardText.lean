import ExactCover.Sudoku.Board

/-! # Boards as text

A board is written as nine lines of nine digits. Reading takes the digits in their order and
ignores white space, wherever it stands.
-/

namespace ExactCover

def Digit.toChar (digit : Digit) : Char := Char.ofNat (48 + digit.val)

/-- The digit that a character stands for, if it is one of the ten decimal digits of ASCII. -/
def Digit.ofChar? (c : Char) : Option Digit :=
  if h : '0'.toNat ≤ c.toNat ∧ c.toNat ≤ '9'.toNat then
    some ⟨c.toNat - '0'.toNat, by have : '9'.toNat = '0'.toNat + 9 := rfl; omega⟩
  else none

/-- A list of digits without anything between them. -/
def digitText (digits : List Digit) : String :=
  String.ofList (digits.map Digit.toChar)

namespace Board

/-- What the rows hold. -/
def rows (board : Board) : List (List Digit) :=
  (List.finRange 9).map fun row => (List.finRange 9).map fun column => board.digitAt row column

/-- The board as nine lines, without a line feed at the end. -/
def toText (board : Board) : String :=
  "\n".intercalate (board.rows.map digitText)

/-- The board as one line of 81 digits. -/
def flat (board : Board) : String := digitText board.toList

/-- The board in one line with a slash before every row. -/
def describe (board : Board) : String :=
  "Board(" ++ String.join (board.rows.map fun row => "/" ++ digitText row) ++ ")"

/-- Reads the characters of a board. The first character that is neither a digit nor blank
    counts before a wrong number of digits. -/
def ofChars (chars : List Char) : Except Error Board :=
  let marks := chars.filter (!isBlank ·)
  match marks.find? fun c => (Digit.ofChar? c).isNone with
  | some c => .error (.strayCharacter c)
  | none =>
      let digits := marks.filterMap Digit.ofChar?
      if h : digits.length = 81 then .ok ⟨⟨digits.toArray, by simp [h]⟩⟩
      else .error (.digitCount digits.length)

def parse (text : String) : Except Error Board := ofChars text.toList

end Board

end ExactCover
