import ExactCover.Console.Arguments
import ExactCover.Console.Host
import ExactCover.Sudoku.Generator

/-! # The commands

What the program does for each request, on any host.
-/

namespace ExactCover.Console

variable {m : Type → Type} [Monad m]

/-- A part of a run, which may fail. -/
abbrev Run (m : Type → Type) := ExceptT Failure m

def orFail {α : Type} (result : Except Failure α) : Run m α := ExceptT.mk (pure result)

/-- A board typed as a word, in which a slash ends a line. -/
def boardOfText (text : String) : Except Failure Board :=
  (Board.ofChars (text.toList.map fun c => if c = '/' then '\n' else c)).mapError .badText

/-- The board that the bytes of a file hold. -/
def boardOfBytes (path : String) (bytes : ByteArray) : Except Failure Board :=
  match String.fromUTF8? bytes with
  | none => .error (.notText path)
  | some text => (Board.parse text).mapError (.badFile path)

/-- The first completion that is not a grid, or changes a clue. -/
def verify (clues : Board) (boards : List Board) : Except Failure Unit :=
  match boards.zipIdx.find? (fun (board, _) => !(board.isGrid && clues.agreesWith board)) with
  | none => .ok ()
  | some (board, index) =>
      if board.isGrid then .error (.clueChanged (index + 1)) else .error (.notAGrid (index + 1))

namespace Host

def printAll (host : Host m) (lines : List String) : Run m Unit :=
  lines.forM fun line => (host.print line : m Unit)

def log (host : Host m) (filter : LogFilter) (events : List LogEvent) : Run m Unit :=
  (events.filter filter.shows).forM fun event => (host.complain (logLine event) : m Unit)

/-- Checks completions and says how many there are. -/
def verifyAll (host : Host m) (clues : Board) (boards : List Board) : Run m Unit := do
  orFail (verify clues boards)
  host.printAll [s!"Verified: {boards.length} solution(s)"]

/-- The value of a computation, and the time that it took. -/
def measure {α : Type} (host : Host m) (compute : Unit → α) : Run m (α × Nat) :=
  (host.timed compute : m (α × Nat))

def readBoard (host : Host m) (path : String) : Run m (Board × Nat) := do
  match ← (host.kindAt path : m PathKind) with
  | .missing => throw (.noSuchFile path)
  | .directory | .other => throw (.notAFile path)
  | .file =>
      let bytes ← (host.bytesAt path : m ByteArray)
      let (board, time) ← host.measure fun _ => boardOfBytes path bytes
      return (← orFail board, time)

/-- Completes a board and reports what is found. At least one completion is looked for. -/
def solveAndReport (host : Host m) (filter : LogFilter) (options : Options)
    (label : Option String) (board : Board) (parse build : Nat) : Run m Unit := do
  if let some path := label then host.printAll [s!"Solving: {path}"]
  host.printAll ["Parsed Sudoku:", board.toText]
  let cap := max 1 options.maxSolutions
  let (found, search) ← host.measure fun _ => board.completions cap
  let found ← orFail (found.mapError .unsolved)
  host.log filter (LogEvent.ofClash found.clash)
  host.log filter [.searchFinished (elapsedText search) found.stats]
  if options.verify then host.verifyAll board found.boards
  if options.stats then
    let memory ← (host.memory : m Memory)
    host.printAll (statisticsLines board ⟨parse, build, search⟩ found.stats memory)
  host.printAll (solutionLines found.boards)
  host.printAll (verdictLines found.boards.length cap)

def buildTime (host : Host m) : Run m Nat := do
  let (_, time) ← host.measure fun _ => Placement.matrix.size
  return time

def solveFile (host : Host m) (filter : LogFilter) (options : Options) (build : Nat)
    (path : String) : Run m Unit := do
  let (board, parse) ← host.readBoard path
  host.solveAndReport filter options (some path) board parse build

def solveText (host : Host m) (filter : LogFilter) (options : Options) (input : String) :
    Run m Unit := do
  let (board, parse) ← host.measure fun _ => boardOfText input
  let board ← orFail board
  host.solveAndReport filter options none board parse (← host.buildTime)

/-- Completes the boards in the files of a directory. Other files are passed over. -/
def solveDirectory (host : Host m) (filter : LogFilter) (options : Options) (path : String) :
    Run m Unit := do
  match ← (host.kindAt path : m PathKind) with
  | .directory =>
      let build ← host.buildTime
      let tree ← (host.treeAt path : m FileTree)
      (tree.visits path path).forM fun visit => do
        if isBoardName visit.name then host.solveFile filter options build visit.path
        else host.log filter [.fileSkipped visit.path]
  | _ => throw (.notADirectory path)

/-- Checks that a puzzle has its solution as the only completion. -/
def verifyPuzzle (number : Nat) (puzzle : Puzzle) : Except Failure Unit :=
  match puzzle.clues.uniqueCompletion with
  | .error cause => .error (.notVerified number cause)
  | .ok grid => if grid = puzzle.solution then .ok () else .error (.otherGrid number)

def generateOne (host : Host m) (filter : LogFilter) (options : Options)
    (difficulty : Difficulty) (number : Nat) (generator : Generator) : Run m Generator := do
  let (made, time) ← host.measure fun _ => generator.generate difficulty
  let (made, generator) ← orFail (made.mapError .ungenerated)
  host.log filter made.log
  let puzzle := made.puzzle
  let clues := puzzle.clues.clueCount
  host.printAll [s!"Puzzle {number} ({difficulty.name}, {clues} clues):", puzzle.clues.toText,
    "Solution:", puzzle.solution.toText, ""]
  if options.verify then
    orFail (verifyPuzzle number puzzle)
    host.verifyAll puzzle.clues puzzle.solutions
  if options.stats then
    host.printAll [statLine "Generation time (s)" (seconds time),
      statLine "Clues" (toString clues), statLine "Target clues" (toString difficulty.clues)]
  return generator

/-- Makes a number of puzzles, counted from the given one on. -/
def generateFrom (host : Host m) (filter : LogFilter) (options : Options)
    (difficulty : Difficulty) : Nat → Nat → Generator → Run m Unit
  | 0, _, _ => pure ()
  | left + 1, number, generator => do
      let generator ← host.generateOne filter options difficulty number generator
      host.generateFrom filter options difficulty left (number + 1) generator

def generate (host : Host m) (filter : LogFilter) (options : Options) (order : PuzzleOrder) :
    Run m Unit := do
  let seed ← match order.seed with
    | some seed => pure (UInt64.ofNat seed)
    | none => (host.freshSeed : m UInt64)
  let maxTries := order.maxTries.getD Generator.defaultMaxTries
  host.generateFrom filter options order.difficulty order.count 1 ⟨.ofSeed seed, maxTries⟩

end Host

end ExactCover.Console
