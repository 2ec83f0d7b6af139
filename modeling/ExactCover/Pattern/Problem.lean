import ExactCover.Text.Blank

/-! # Problems of a written pattern

What may be wrong with a pattern as it is written, where it is wrong, and how that is shown: the
pattern with carets under the stretch in question, and the cause in words.
-/

namespace ExactCover.Pattern

/-- Where a character of a written pattern stands, counted from one. -/
structure Spot where
  row : Nat
  /-- The number of the character in its line. -/
  column : Nat

namespace Spot

def start : Spot := ⟨1, 1⟩

/-- The spot after a character. -/
def after (spot : Spot) (c : Char) : Spot :=
  if c = '\n' then ⟨spot.row + 1, 1⟩ else ⟨spot.row, spot.column + 1⟩

end Spot

/-- A stretch of a written pattern. -/
structure Span where
  first : Spot
  /-- Where what follows it starts. -/
  stop : Spot

def Span.at (spot : Spot) : Span := ⟨spot, spot⟩

/-- How deeply the parts of a pattern may be nested. -/
def nestLimit : Nat := 250

/-- What is wrong. -/
inductive Cause where
  | backreference
  | boundaryUnclosed
  | boundaryUnfinished
  | boundaryUnknown
  | caseUnavailable
  | classEscape
  | classRange
  | classRangeEnd
  | classUnavailable
  | classUnclosed
  | countEmpty
  | countInvalid
  | countOrder
  | countUnclosed
  | escapeUnfinished
  | escapeUnknown
  | flagDangling
  | flagDuplicate
  | flagNegatedTwice
  | flagUnfinished
  | flagUnknown
  | groupUnclosed
  | groupUnopened
  | hexDigit
  | hexEmpty
  | hexInvalid
  | lookAround
  | nameDuplicate
  | nameEmpty
  | nameInvalid
  | nameUnclosed
  | nestedTooDeeply
  | notUtf8
  | propertyInvalid
  | propertyUnknown
  | propertyValueUnknown
  | repetitionMissing
  | unicodeNotAllowed

def Cause.message : Cause → String
  | .backreference => "backreferences are not supported"
  | .boundaryUnclosed =>
      "special word boundary assertion is either unclosed or contains an invalid character"
  | .boundaryUnfinished =>
      "found either the beginning of a special word boundary or a bounded repetition on a \\b " ++
        "with an opening brace, but no closing brace"
  | .boundaryUnknown =>
      "unrecognized special word boundary assertion, valid choices are: start, end, start-half " ++
        "or end-half"
  | .caseUnavailable =>
      "Unicode-aware case insensitivity matching is not available (make sure the unicode-case " ++
        "feature is enabled)"
  | .classEscape => "invalid escape sequence found in character class"
  | .classRange => "invalid character class range, the start must be <= the end"
  | .classRangeEnd => "invalid range boundary, must be a literal"
  | .classUnclosed => "unclosed character class"
  | .countEmpty => "repetition quantifier expects a valid decimal"
  | .countInvalid => "decimal literal invalid"
  | .countOrder => "invalid repetition count range, the start must be <= the end"
  | .countUnclosed => "unclosed counted repetition"
  | .escapeUnfinished => "incomplete escape sequence, reached end of pattern prematurely"
  | .escapeUnknown => "unrecognized escape sequence"
  | .flagDangling => "dangling flag negation operator"
  | .flagDuplicate => "duplicate flag"
  | .flagNegatedTwice => "flag negation operator repeated"
  | .flagUnfinished => "expected flag but got end of regex"
  | .flagUnknown => "unrecognized flag"
  | .groupUnclosed => "unclosed group"
  | .groupUnopened => "unopened group"
  | .hexDigit => "invalid hexadecimal digit"
  | .hexEmpty => "hexadecimal literal empty"
  | .hexInvalid => "hexadecimal literal is not a Unicode scalar value"
  | .lookAround => "look-around, including look-ahead and look-behind, is not supported"
  | .nameDuplicate => "duplicate capture group name"
  | .nameEmpty => "empty capture group name"
  | .nameInvalid => "invalid capture group character"
  | .nameUnclosed => "unclosed capture group name"
  | .nestedTooDeeply =>
      "exceed the maximum number of nested parentheses/brackets (" ++ toString nestLimit ++ ")"
  | .notUtf8 => "pattern can match invalid UTF-8"
  | .classUnavailable =>
      "Unicode-aware Perl class not found (make sure the unicode-perl feature is enabled)"
  | .propertyInvalid => "invalid Unicode character class"
  | .propertyUnknown => "Unicode property not found"
  | .propertyValueUnknown => "Unicode property value not found"
  | .repetitionMissing => "repetition operator missing expression"
  | .unicodeNotAllowed => "Unicode not allowed here"

/-- What is wrong with a written pattern, and where. -/
structure Problem where
  cause : Cause
  span : Span
  /-- The earlier stretch that this one is at odds with, if there is one. -/
  earlier : Option Span

namespace Problem

/-- The stretches to be shown, in their order. -/
def spans (problem : Problem) : List Span := problem.earlier.toList ++ [problem.span]

/-- The carets under the stretches of one row, given the column that is reached. -/
def caretsFrom : Nat → List Span → String
  | _, [] => ""
  | column, span :: rest =>
      let gap := span.first.column - column
      let width := max 1 (span.stop.column - span.first.column)
      "".pushn ' ' gap ++ "".pushn '^' width ++ caretsFrom (column + gap + width) rest

/-- The rows of a pattern, each with a row of carets below it where it has a stretch to be
    shown. Rows are numbered when the numbers have a width. -/
def markedRows (width : Nat) (spans : List Span) : Nat → List (List Char) → List String
  | _, [] => []
  | number, chars :: rest =>
      let label := toString number
      let start := if width = 0 then "    "
        else "".pushn ' ' (width - label.length) ++ label ++ ": "
      let here := spans.filter fun span =>
        span.first.row = number ∧ span.stop.row = number
      let carets := if here.isEmpty then [] else
        ["".pushn ' ' (if width = 0 then 4 else width + 2) ++ caretsFrom 1 here]
      (start ++ String.ofList chars) :: carets ++ markedRows width spans (number + 1) rest

/-- A stretch over several rows in words. -/
def describeRows (span : Span) : String :=
  s!"on line {span.first.row} (column {span.first.column}) through line {span.stop.row} " ++
    s!"(column {span.stop.column - 1})"

/-- A problem in words, with the pattern. -/
def report (pattern : List Char) (problem : Problem) : String :=
  let rows := linesOf pattern
  let count := rows.length + (if pattern.getLast? = some '\n' then 1 else 0)
  let width := if count ≤ 1 then 0 else (toString count).length
  let marked := markedRows width problem.spans 1 rows
  let rule := "".pushn '~' 79
  let across := (problem.spans.filter fun span => span.first.row ≠ span.stop.row).map describeRows
  let shown := if pattern.contains '\n' then [rule] ++ marked ++ [rule] ++ across else marked
  "\n".intercalate (["regex parse error:"] ++ shown ++ ["error: " ++ problem.cause.message])

end Problem

end ExactCover.Pattern
