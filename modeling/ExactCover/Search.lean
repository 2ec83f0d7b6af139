import ExactCover.Graph.Build

/-! # Searching for exact covers

The exact covers of a matrix, one at a time and in a fixed order. A search works on a stack of
columns: it covers the live column with the fewest nodes, tries the rows of that column from
the top, and covers the other columns of the row it tries. When no column is live the rows
tried are an exact cover together with the forced rows; a live column without a node is a dead
end.

A search can stop after any cover and go on later. Closing it undoes what it has covered, so a
solver whose searches are closed always starts from the same graph.
-/

namespace ExactCover

/-- Counters of the work of a search. -/
structure Tally where
  rowsTried : Nat
  solutions : Nat
  /-- The most columns that were open at once. -/
  maxDepth : Nat
  /-- Chosen columns that had no row left. -/
  deadEnds : Nat
  deriving DecidableEq

def Tally.zero : Tally := ⟨0, 0, 0, 0⟩

/-- A tally together with the updates that covers have made on the graph. -/
structure Statistics extends Tally where
  /-- Nodes taken out of their columns, those for forced rows included. -/
  updates : Nat
  deriving DecidableEq

def Statistics.describe (stats : Statistics) : String :=
  s!"rows tried: {stats.rowsTried}, updates: {stats.updates}, solutions: {stats.solutions}, " ++
    s!"max depth: {stats.maxDepth}, dead ends: {stats.deadEnds}"

/-- An open column of a search, and the node of it whose row is being tried, if any is yet. -/
structure Frame where
  /-- The header of the open column. -/
  column : Node
  /-- The node of the row being tried. -/
  trying : Option Node
  deriving DecidableEq

/-- How far a search has come. -/
inductive Phase where
  | fresh
  | running
  /-- Every exact cover has been found, or the search has been closed. -/
  | done
  deriving DecidableEq

/-- A search that can be resumed, with the graph it works on. -/
structure Search where
  /-- The graph, with the columns covered that the open columns and their rows call for. -/
  graph : Graph
  tally : Tally
  /-- The open columns, the newest first. -/
  frames : List Frame
  /-- The rows being tried, the newest first. -/
  chosen : List Nat
  phase : Phase
  deriving DecidableEq

/-- What one step of a search leads to. -/
inductive Event where
  /-- The search has to go on. -/
  | busy
  /-- The rows of an exact cover: the forced rows in ascending order, then the others in the
      order in which they were chosen. -/
  | found (rows : List Nat)
  | spent
  deriving DecidableEq

namespace Search

def stats (search : Search) : Statistics :=
  { search.tally with updates := search.graph.updates }

/-- Goes one level down: reports an exact cover when no column is live, counts a dead end when
    the chosen column has no node, and opens the chosen column otherwise. -/
def descend : Search → Except Fault (Event × Search)
  | ⟨graph, tally, frames, chosen, phase⟩ => do
      match ← graph.chooseColumn with
      | none =>
          let rows := graph.clueRows ++ chosen.reverse
          return (.found rows,
            ⟨graph, { tally with solutions := tally.solutions + 1 }, frames, chosen, phase⟩)
      | some column =>
          if (← graph.countOf column) = 0 then
            return (.busy,
              ⟨graph, { tally with deadEnds := tally.deadEnds + 1 }, frames, chosen, phase⟩)
          else
            let graph ← graph.cover column
            let frames := ⟨column, none⟩ :: frames
            let tally := { tally with maxDepth := max tally.maxDepth frames.length }
            return (.busy, ⟨graph, tally, frames, chosen, phase⟩)

/-- Stops trying the row that is being tried in a frame, if any. -/
def leaveRow (graph : Graph) (chosen : List Nat) (frame : Frame) :
    Except Fault (Graph × List Nat) :=
  match frame.trying with
  | none => .ok (graph, chosen)
  | some node => do return (← graph.uncoverRow node, chosen.tail)

def tryRow (graph : Graph) (tally : Tally) (below : List Frame) (chosen : List Nat)
    (column node : Node) : Except Fault (Event × Search) := do
  match ← graph.rowOf node with
  | none => throw (.rowless node)
  | some row =>
      let graph ← graph.coverRow node
      descend ⟨graph, { tally with rowsTried := tally.rowsTried + 1 },
        ⟨column, some node⟩ :: below, row :: chosen, .running⟩

/-- One step of a running search: in the newest open column the next row is tried, or the
    column is closed when it has no further row. -/
def step : Search → Except Fault (Event × Search)
  | ⟨graph, tally, [], chosen, _⟩ => .ok (.spent, ⟨graph, tally, [], chosen, .done⟩)
  | ⟨graph, tally, frame :: below, chosen, _⟩ => do
      let (graph, chosen) ← leaveRow graph chosen frame
      let node ← graph.down (frame.trying.getD frame.column)
      if node = frame.column then
        let graph ← graph.uncover frame.column
        return (.busy, ⟨graph, tally, below, chosen, .running⟩)
      else
        tryRow graph tally below chosen frame.column node

/-- Steps until an exact cover is found or there is no further one. -/
def stepsWithin : Nat → Search → Except Fault (Option (List Nat) × Search)
  | 0, _ => .error .unfinished
  | limit + 1, search =>
      match search.step with
      | .error fault => .error fault
      | .ok (.busy, search) => stepsWithin limit search
      | .ok (.found rows, search) => .ok (some rows, search)
      | .ok (.spent, search) => .ok (none, search)

/-- More steps than a search on a graph of this size makes in all: every open column accounts
    for at most as many steps as the graph has nodes, and no more columns are open at once than
    there are. -/
def stepLimit (graph : Graph) : Nat :=
  Nat.pow (graph.size + 2) (graph.columns + 2)

/-- The first step of a search, which does nothing when the forced rows clash. -/
def start (search : Search) : Except Fault (Event × Search) :=
  if search.graph.isConsistent then descend { search with phase := .running }
  else .ok (.spent, { search with phase := .done })

/-- The next exact cover, if there is one. -/
def next (search : Search) : Except Fault (Option (List Nat) × Search) :=
  match search.phase with
  | .done => .ok (none, search)
  | .running => stepsWithin (stepLimit search.graph) search
  | .fresh =>
      match search.start with
      | .error fault => .error fault
      | .ok (.busy, search) => stepsWithin (stepLimit search.graph) search
      | .ok (.found rows, search) => .ok (some rows, search)
      | .ok (.spent, search) => .ok (none, search)

/-- The exact covers that up to `n` calls of `next` find. -/
def take : Nat → Search → Except Fault (List (List Nat) × Search)
  | 0, search => .ok ([], search)
  | n + 1, search => do
      match ← search.next with
      | (none, search) => return ([], search)
      | (some rows, search) =>
          let (more, search) ← take n search
          return (rows :: more, search)

/-- The answers of exactly `n` calls of `next`. -/
def pull : Nat → Search → Except Fault (List (Option (List Nat)) × Search)
  | 0, search => .ok ([], search)
  | n + 1, search => do
      let (item, search) ← search.next
      let (more, search) ← pull n search
      return (item :: more, search)

/-- Undoes the covers of the open columns, the newest first. -/
def unwind : List Frame → Graph → Except Fault Graph
  | [], graph => .ok graph
  | frame :: below, graph => do
      let (graph, _) ← leaveRow graph [] frame
      unwind below (← graph.uncover frame.column)

end Search

/-- A graph to be searched, with the work of the searches so far. -/
structure Solver where
  /-- The graph, with no column covered but those of forced rows. -/
  graph : Graph
  tally : Tally
  deriving DecidableEq

namespace Solver

def ofGraph (graph : Graph) : Solver := ⟨graph, .zero⟩

/-- A solver for a matrix, all of whose exact covers are to have the forced rows. -/
def ofMatrix (matrix : IncidenceMatrix) (forced : List Nat) : Except Fault Solver := do
  return ofGraph (← Graph.ofMatrix matrix forced)

theorem ofMatrix_eq_ok {matrix : IncidenceMatrix} {forced : List Nat} {graph : Graph}
    (built : Graph.ofMatrix matrix forced = .ok graph) :
    ofMatrix matrix forced = .ok (ofGraph graph) := by
  rw [ofMatrix, built]
  rfl

def stats (solver : Solver) : Statistics :=
  { solver.tally with updates := solver.graph.updates }

def search : Solver → Search
  | ⟨graph, tally⟩ => ⟨graph, tally, [], [], .fresh⟩

/-- Closes a search and gives back the solver it was opened on. -/
def close : Search → Except Fault Solver
  | ⟨graph, tally, frames, _, _⟩ => do return ⟨← Search.unwind frames graph, tally⟩

/-- The first `n` exact covers, or all when there are fewer. Nothing is tried after the last of
    them is found. -/
def first (solver : Solver) (n : Nat) : Except Fault (List (List Nat) × Solver) := do
  let (covers, search) ← solver.search.take n
  return (covers, ← close search)

/-- The answers of `n` calls of `next` on a search from the start. -/
def pull (solver : Solver) (n : Nat) : Except Fault (List (Option (List Nat)) × Solver) := do
  let (items, search) ← solver.search.pull n
  return (items, ← close search)

/-- All exact covers. A search finds fewer than it makes steps. -/
def all (solver : Solver) : Except Fault (List (List Nat) × Solver) :=
  let limit := Search.stepLimit solver.graph
  solver.first limit

end Solver

end ExactCover
