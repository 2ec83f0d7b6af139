import ExactCover.Sudoku.BoardText
import ExactCover.Sudoku.Completion

/-! # Reports

The lines that the program prints about a board: what was found, what can be said about the
number of completions, and the statistics of the work.
-/

namespace ExactCover.Console

/-- What a search that stops after a number of completions says about how many there are. -/
inductive Verdict where
  | unsolvable
  /-- There is one completion, and a second was looked for. -/
  | unique
  /-- There is a completion, and a second was not looked for. -/
  | unchecked
  /-- There are at least this many completions, and no further one was looked for. -/
  | stopped (found : Nat)
  /-- There are this many completions. -/
  | several (found : Nat)
  deriving DecidableEq

namespace Verdict

/-- The verdict when so many completions were found by a search that stops after `cap`. -/
def of (found cap : Nat) : Verdict :=
  if found = 0 then .unsolvable
  else if found = 1 then if 2 ≤ cap then .unique else .unchecked
  else if cap ≤ found then .stopped found else .several found

def text : Verdict → String
  | .unsolvable => "NO SOLUTION"
  | .unique => "UNIQUE"
  | .unchecked => "FOUND 1 (uniqueness not checked)"
  | .stopped found => s!"MULTIPLE (stopped after {found})"
  | .several found => s!"MULTIPLE ({found})"

end Verdict

def padRight (width : Nat) (text : String) : String := text.pushn ' ' (width - text.length)

def padLeft (width : Nat) (text : String) : String :=
  "".pushn ' ' (width - text.length) ++ text

/-- A quotient with a number of places after the point, rounded to the nearest. -/
def fixed (places numerator denominator : Nat) : String :=
  let unit := Nat.pow 10 places
  let scaled := (numerator * unit * 2 + denominator) / (denominator * 2)
  let digits := toString (scaled % unit)
  toString (scaled / unit) ++
    (if places = 0 then "" else "." ++ "".pushn '0' (places - digits.length) ++ digits)

/-- A time in nanoseconds as seconds with three places. -/
def seconds (time : Nat) : String := fixed 3 time 1000000000

/-- A number of bytes as mebibytes with two places. -/
def mebibytes (bytes : Nat) : String := fixed 2 bytes 1048576

/-- A quotient in decimal notation, without zeros at the end of its places. -/
def shortest (places value unit : Nat) : String :=
  let digits := toString (value % unit)
  let shown := ("".pushn '0' (places - digits.length) ++ digits).toList.reverse.dropWhile (· == '0')
  toString (value / unit) ++
    (if shown.isEmpty then "" else "." ++ String.ofList shown.reverse)

/-- A time in nanoseconds in the largest unit that it fills. -/
def elapsedText (time : Nat) : String :=
  if 1000000000 ≤ time then shortest 9 time 1000000000 ++ "s"
  else if 1000000 ≤ time then shortest 6 time 1000000 ++ "ms"
  else if 1000 ≤ time then shortest 3 time 1000 ++ "µs"
  else toString time ++ "ns"

def statLine (label value : String) : String :=
  "|  " ++ padRight 28 label ++ " " ++ padLeft 18 value ++ "  |"

/-- A line of a table of statistics with how many there are per second. -/
def rateLine (label : String) (value time : Nat) : String :=
  let rate := if time = 0 then "0" else fixed 0 (value * 1000000000) time
  "|  " ++ padRight 20 label ++ " " ++ padLeft 12 (toString value) ++
    " (" ++ padLeft 9 rate ++ "/sec)  |"

/-- The time that the parts of the work took, in nanoseconds. -/
structure Timings where
  parse : Nat
  build : Nat
  search : Nat

/-- The memory in use, in bytes. -/
structure Memory where
  allocated : Nat
  resident : Nat

/-- The statistics of completing a board. -/
def statisticsLines (board : Board) (timings : Timings) (stats : Statistics) (memory : Memory) :
    List String :=
  ["",
    "=======================[ Problem Statistics ]=========================",
    statLine "Parse time (s)" (seconds timings.parse),
    statLine "Matrix build time (s)" (seconds timings.build),
    statLine "Clues" (toString board.clueCount),
    statLine "Candidate rows" (toString Placement.count),
    statLine "Constraint columns" (toString Placement.constraintCount),
    "========================[ Search Statistics ]========================",
    rateLine "Rows tried" stats.rowsTried timings.search,
    rateLine "Link updates" stats.updates timings.search,
    statLine "Dead ends" (toString stats.deadEnds),
    statLine "Max depth" (toString stats.maxDepth),
    statLine "Solutions" (toString stats.solutions),
    statLine "Memory usage (MiB)" (mebibytes memory.allocated),
    statLine "Resident memory (MiB)" (mebibytes memory.resident),
    statLine "CPU time (s)" (seconds timings.search),
    "====================================================================="]

def solutionLines (boards : List Board) : List String :=
  boards.zipIdx.flatMap fun (board, index) => ["", s!"Solution {index + 1}:", board.toText]

/-- What is said at the end about a board of which so many completions were found. -/
def verdictLines (found cap : Nat) : List String := ["", (Verdict.of found cap).text]

end ExactCover.Console
