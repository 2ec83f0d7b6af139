import ExactCover.Text.Blank

/-! # Patterns

A pattern says which pieces of a text fit it. A text of `n` characters has `n + 1` places: before
the first character, between two neighbours, and after the last one. A pattern leads from a set
of places, where a piece may start, to the set of places where a piece that fits ends.

A set of places is a number: the place before the first character is its lowest bit.
-/

namespace ExactCover

/-- A set of characters. -/
inductive CharSet where
  | none
  | range (first last : Char)
  | union (a b : CharSet)
  | intersection (a b : CharSet)
  | difference (a b : CharSet)
  | symmetricDifference (a b : CharSet)
  | complement (a : CharSet)
  /-- The characters of a set, and for each letter of a to z also its other case. -/
  | bothCases (a : CharSet)
  deriving DecidableEq

/-- A letter of a to z in its other case; any other character is unchanged. -/
def otherCase (c : Char) : Char :=
  if c.isLower then c.toUpper else c.toLower

namespace CharSet

def contains : CharSet → Char → Bool
  | none, _ => false
  | range first last, c => first.toNat ≤ c.toNat && c.toNat ≤ last.toNat
  | union a b, c => a.contains c || b.contains c
  | intersection a b, c => a.contains c && b.contains c
  | difference a b, c => a.contains c && !b.contains c
  | symmetricDifference a b, c => a.contains c != b.contains c
  | complement a, c => !a.contains c
  | bothCases a, c => a.contains c || a.contains (otherCase c)

def single (c : Char) : CharSet := range c c

def all : CharSet := complement none

def unionAll : List CharSet → CharSet
  | [] => none
  | [a] => a
  | a :: rest => union a (unionAll rest)

end CharSet

/-- How a place lies to a word, that is to a run of letters, digits and underscores. -/
inductive WordPlace where
  | boundary
  | noBoundary
  | start
  | stop
  /-- No word goes on from before. -/
  | startHalf
  /-- No word goes on afterwards. -/
  | stopHalf
  deriving DecidableEq

/-- What may be asked of a place. -/
inductive PlaceTest where
  | textStart
  | textStop
  /-- A line starts. Lines end at a line feed, or also at a carriage return. -/
  | lineStart (atReturns : Bool)
  /-- A line ends. -/
  | lineStop (atReturns : Bool)
  /-- The place lies so to a word of a to z, digits and underscores. -/
  | word (place : WordPlace)
  /-- The place lies so to a word of any script. Such words are not known, and the test never
      holds. -/
  | anyWord (place : WordPlace)
  deriving DecidableEq

/-- Whether a character belongs to a word. -/
def isWordChar (c : Char) : Bool := c.isAlphanum || c == '_'

/-- Whether a place is of a kind, given whether words surround it. -/
def WordPlace.holds : WordPlace → Bool → Bool → Bool
  | .boundary, before, after => before != after
  | .noBoundary, before, after => before == after
  | .start, before, after => !before && after
  | .stop, before, after => before && !after
  | .startHalf, before, _ => !before
  | .stopHalf, _, after => !after

/-- Whether a test holds at a place between two characters, or at an end of the text. -/
def PlaceTest.holds : PlaceTest → Option Char → Option Char → Bool
  | .textStart, before, _ => before.isNone
  | .textStop, _, after => after.isNone
  | .lineStart false, before, _ => before.all (· == '\n')
  | .lineStart true, before, after =>
      before.all (· == '\n') || (before == some '\r' && after != some '\n')
  | .lineStop false, _, after => after.all (· == '\n')
  | .lineStop true, before, after =>
      after.all (· == '\r') || (after == some '\n' && before != some '\r')
  | .word place, before, after => place.holds (before.any isWordChar) (after.any isWordChar)
  | .anyWord _, _, _ => false

/-- What pieces of a text may be asked to be. -/
inductive Pattern where
  | empty
  | one (set : CharSet)
  /-- Nothing, at a place of a kind. -/
  | place (test : PlaceTest)
  /-- A piece that fits the first, directly before a piece that fits the second. -/
  | both (first second : Pattern)
  /-- A piece that fits the one or the other. -/
  | either (first second : Pattern)
  /-- So many pieces in a row that fit; without a greatest number, any number from the least. -/
  | repeated (least : Nat) (most : Option Nat) (body : Pattern)
  /-- A piece that fits and has a number of its own. -/
  | group (body : Pattern)
  deriving DecidableEq

/-- A set of places of a text. -/
abbrev Places := Nat

/-- The places before a character of a set. -/
def CharSet.marks (set : CharSet) : List Char → Places
  | [] => 0
  | c :: rest => (set.contains c).toNat + 2 * set.marks rest

/-- The places where a test holds, given the character before the text. -/
def PlaceTest.marks (test : PlaceTest) : Option Char → List Char → Places
  | before, [] => (test.holds before none).toNat
  | before, c :: rest =>
      (test.holds before (some c)).toNat + 2 * test.marks (some c) rest

/-- Applies a step so many times, or until it changes nothing. -/
def settle (step : Places → Places) : Nat → Places → Places
  | 0, places => places
  | times + 1, places =>
      let next := step places
      if next = places then places else settle step times next

namespace Pattern

/-- The places where pieces end that start at one of the given places and fit.

    A row of more pieces than the text has characters has an empty one among them, which may
    stand in the row as often as need be; so no row has to be longer than the text by more than
    one piece. -/
def reach (text : List Char) : Pattern → Places → Places
  | empty, places => places
  | one set, places => 2 * (places &&& set.marks text)
  | place test, places => places &&& test.marks none text
  | both first second, places => second.reach text (first.reach text places)
  | either first second, places => first.reach text places ||| second.reach text places
  | group body, places => body.reach text places
  | repeated least most body, places =>
      let enough := text.length + 1
      let started := settle (body.reach text) (min least enough) places
      let further := match most with
        | none => enough
        | some most => min (most - least) enough
      settle (fun places => places ||| body.reach text places) further started

def allPlaces (text : List Char) : Places := 2 * (1 <<< text.length) - 1

/-- Whether some piece of a text fits a pattern. -/
def occursIn (pattern : Pattern) (text : String) : Bool :=
  pattern.reach text.toList (allPlaces text.toList) != 0

/-- One pattern after the other. -/
def sequence : List Pattern → Pattern
  | [] => empty
  | [pattern] => pattern
  | pattern :: rest => both pattern (sequence rest)

/-- Whether only empty pieces can fit. -/
def isEmptyOnly : Pattern → Bool
  | empty | place _ => true
  | one _ => false
  | both first second | either first second => first.isEmptyOnly && second.isEmptyOnly
  | repeated _ most body => most == some 0 || body.isEmptyOnly
  | group body => body.isEmptyOnly

/-- Whether a piece that fits has a character, whatever the text. -/
def isNeverEmpty : Pattern → Bool
  | empty | place _ => false
  | one _ => true
  | both first second => first.isNeverEmpty || second.isNeverEmpty
  | either first second => first.isNeverEmpty && second.isNeverEmpty
  | repeated least _ body => least != 0 && body.isNeverEmpty
  | group body => body.isNeverEmpty

/-- A pattern so many times in a row, with as few repetitions as say the same. -/
def times (least : Nat) (most : Option Nat) (body : Pattern) : Pattern :=
  let (least, most) :=
    if body.isEmptyOnly then (min least 1, some (min (most.getD 1) 1)) else (least, most)
  if most = some 0 then empty
  else if least = 1 ∧ most = some 1 then body
  else repeated least most body

/-- Whether a pattern asks for words of any script. -/
def usesAnyWord : Pattern → Bool
  | place (.anyWord _) => true
  | empty | one _ | place _ => false
  | both first second | either first second => first.usesAnyWord || second.usesAnyWord
  | repeated _ _ body | group body => body.usesAnyWord

end Pattern

end ExactCover
