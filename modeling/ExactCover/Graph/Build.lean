import ExactCover.Graph
import ExactCover.IncidenceMatrix

/-! # Building the graph of a matrix

The graph starts as the root alone. A header is added for every column, then the nodes of every
row, each at the bottom of its column and to the right of the node before it.

Rows may be forced: the columns that they set are covered before any search. When a forced row
shares a column with an earlier one, no exact cover has both, and nothing further is covered.
-/

namespace ExactCover.Graph

def blank (columns : Nat) : Graph where
  horizontal := .empty
  vertical := .empty
  headers := #[]
  rowNumbers := #[]
  counts := #[]
  columns := columns
  clueNodes := []
  clash := none
  updates := 0

/-- Adds a node that is linked to no other, given its header and its row. -/
def addNode (graph : Graph) (header : Node) (row : Option Nat) : Graph :=
  { graph with
    horizontal := graph.horizontal.alloc
    vertical := graph.vertical.alloc
    headers := graph.headers.push header
    rowNumbers := graph.rowNumbers.push row }

/-- Adds the root or a header, with a count of no nodes. -/
def addHead (graph : Graph) : Graph :=
  let added := graph.addNode graph.size none
  { added with counts := added.counts.push 0 }

/-- Puts a node into the horizontal ring of another, directly after it. -/
def linkRight (graph : Graph) (left node : Node) : Except Fault Graph := do
  graph.horizontal.check left
  graph.horizontal.check node
  return { graph with horizontal := graph.horizontal.insertAfter left node }

def linkBelow (graph : Graph) (above node : Node) : Except Fault Graph := do
  graph.vertical.check above
  graph.vertical.check node
  return { graph with vertical := graph.vertical.insertAfter above node }

/-- Adds the header of the next column, at the end of the ring of live headers. -/
def addHeader (graph : Graph) : Except Fault Graph := do
  let node := graph.size
  let last := graph.horizontal.previousOf root
  graph.addHead.linkRight last node

def countUp (graph : Graph) (header : Node) : Except Fault Graph := do
  let count ← graph.countOf header
  return { graph with counts := graph.counts.setIfInBounds header (count + 1) }

/-- Adds the node of a row in a column, at the bottom of the column. -/
def addEntry (graph : Graph) (row column : Nat) : Except Fault Graph := do
  let node := graph.size
  let bottom := graph.vertical.previousOf (header column)
  let graph ← (graph.addNode (header column) (some row)).countUp (header column)
  graph.linkBelow bottom node

/-- Adds the rest of a row to the right of its last node so far. -/
def addEntriesAfter (row : Nat) : Node → List Nat → Graph → Except Fault Graph
  | _, [], graph => .ok graph
  | left, column :: rest, graph => do
      let node := graph.size
      let graph ← graph.addEntry row column
      addEntriesAfter row node rest (← graph.linkRight left node)

/-- Adds the nodes of a row. A forced row that has a node is noted by its first. -/
def addRow (forced : List Nat) (graph : Graph) : List Nat × Nat → Except Fault Graph
  | ([], _) => .ok graph
  | (column :: rest, row) => do
      let node := graph.size
      let graph ← graph.addEntry row column
      let graph := if forced.contains row then
        { graph with clueNodes := graph.clueNodes ++ [node] } else graph
      addEntriesAfter row node rest graph

/-- The graph of a matrix before any column is covered, with its forced rows noted. -/
def link (matrix : IncidenceMatrix) (forced : List Nat) : Except Fault Graph := do
  let heads ← (List.range matrix.columns).foldlM (fun graph _ => graph.addHeader)
    (blank matrix.columns).addHead
  matrix.rows.toList.zipIdx.foldlM (addRow forced) heads

/-- Covers the columns of the forced rows in turn, up to the first row that sets a column
    covered before. -/
def commitClues : List Node → List Node → Graph → Except Fault Graph
  | [], _, graph => .ok graph
  | clue :: rest, covered, graph => do
      let headers ← graph.rowHeaders clue
      if headers.any covered.contains then
        return { graph with clash := some ((← graph.rowOf clue).getD 0) }
      else
        commitClues rest (headers ++ covered) (← graph.commit headers)

/-- The graph of a matrix with the columns of the forced rows covered. Numbers of no row, rows
    that set no column and repetitions are ignored. -/
def ofMatrix (matrix : IncidenceMatrix) (forced : List Nat) : Except Fault Graph := do
  let graph ← link matrix forced
  commitClues graph.clueNodes [] graph

end ExactCover.Graph
