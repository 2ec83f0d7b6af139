import ExactCover.Search
import ExactCover.Sudoku.Placement

/-! # Completing boards

The completions of a board are the exact covers of the placement matrix that have the board's
own placements. They are found one at a time, in the order of the search.
-/

namespace ExactCover

/-- The completions found, with the work that it took. -/
structure Completions where
  /-- The grids, in the order in which they were found. -/
  boards : List Board
  stats : Statistics
  /-- The first placement of the board that breaks a rule with an earlier one. -/
  clash : Option Nat

namespace Board

def solver (board : Board) : Except Fault Solver :=
  Solver.ofMatrix Placement.matrix board.clueRows

/-- The grid of an exact cover of the placement matrix. -/
def ofCover (rows : List Nat) : Except Error Board := ofRows Placement.matrix rows

/-- The answers of `n` calls for a further completion. -/
def completionItems (board : Board) (n : Nat) :
    Except Error (List (Option (Except Error Board))) := do
  let solver ← board.solver.mapError .fault
  let (items, _) ← (solver.search.pull n).mapError .fault
  return items.map (Option.map ofCover)

/-- At most `n` completions, with the work that finding them took. Nothing is tried after the
    last of them is found. -/
def completions (board : Board) (n : Nat) : Except Error Completions := do
  let solver ← board.solver.mapError .fault
  let (covers, search) ← (solver.search.take n).mapError .fault
  return { boards := ← covers.mapM ofCover, stats := search.stats, clash := solver.graph.clash }

def completionsUpTo (board : Board) (n : Nat) : Except Error (List Board) := do
  return (← board.completions n).boards

/-- The one completion of a board. Finding none, or a second one, is an error. -/
def uniqueCompletion (board : Board) : Except Error Board := do
  match ← board.completionsUpTo 2 with
  | [grid] => return grid
  | _ => throw .notUnique

/-- Whether one completion was found, unless the search itself went wrong. -/
def foundOne : Except Error Board → Except Error Bool
  | .ok _ => .ok true
  | .error .notUnique => .ok false
  | .error e => .error e

def hasUniqueCompletion (board : Board) : Except Error Bool := foundOne board.uniqueCompletion

end Board

end ExactCover
