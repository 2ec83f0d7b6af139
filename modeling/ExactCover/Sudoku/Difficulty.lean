/-! # Difficulties

How many clues a puzzle is to keep.
-/

namespace ExactCover

/-- A difficulty, easiest first. -/
inductive Difficulty where
  | easy
  | medium
  | hard
  | veryHard
  deriving DecidableEq

namespace Difficulty

def all : List Difficulty := [.easy, .medium, .hard, .veryHard]

/-- The number of clues to aim for. -/
def clues : Difficulty → Nat
  | .easy => 45
  | .medium => 38
  | .hard => 30
  | .veryHard => 26

def name : Difficulty → String
  | .easy => "easy"
  | .medium => "medium"
  | .hard => "hard"
  | .veryHard => "very-hard"

/-- The name of a difficulty as one word. -/
def word : Difficulty → String
  | .easy => "Easy"
  | .medium => "Medium"
  | .hard => "Hard"
  | .veryHard => "VeryHard"

/-- How many difficulties are easier. -/
def rank : Difficulty → Nat
  | .easy => 0
  | .medium => 1
  | .hard => 2
  | .veryHard => 3

def ofName? (name : String) : Option Difficulty := all.find? (·.name == name)

/-- The difficulty of a name, whatever the case of its ASCII letters. -/
def ofNameAnyCase? (name : String) : Option Difficulty := all.find? (·.name == name.toLower)

theorem ofName?_name (difficulty : Difficulty) : ofName? difficulty.name = some difficulty := by
  cases difficulty <;> decide

end Difficulty

end ExactCover
