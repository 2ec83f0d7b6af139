import ExactCover.RingTable

/-! # The graph of an exact cover problem

Every set entry of a matrix is a node. The nodes of a row form a ring in one table, and the
nodes of a column form a ring with the column's header in another. The headers of the columns
still to be covered form a ring with the root.

Node 0 is the root, node `j + 1` the header of column `j`, and the nodes after these belong to
the rows of the matrix.

Covering a column takes its header out of the ring of live columns, and takes every other node
of each of its rows out of that node's column, going down the column and right along each row.
Uncovering goes up the column and left along each row, and so meets the same nodes in the reverse
order, as long as covers are undone in the reverse of theirs.
-/

namespace ExactCover

/-- The linked form of a matrix. -/
structure Graph where
  /-- The rings of rows, and the ring of the root and the live headers. -/
  horizontal : RingTable
  /-- The rings of columns. -/
  vertical : RingTable
  /-- The header of the column that each node stands in; a header stands in its own. -/
  headers : Array Node
  /-- The matrix row that each node stands in; none for the root and the headers. -/
  rowNumbers : Array (Option Nat)
  /-- The number of nodes under each header, by the header's node number. -/
  counts : Array Nat
  columns : Nat
  /-- The first node of each forced row, in the order of the rows. -/
  clueNodes : List Node
  /-- The first forced row that shares a column with an earlier one. -/
  clash : Option Nat
  /-- How many nodes covers have taken out of their columns. -/
  updates : Nat
  deriving DecidableEq

namespace Graph

/-- The node that the live headers are linked to. -/
def root : Node := 0

/-- The header of a column. -/
def header (column : Nat) : Node := column + 1

def columnOfHeader (header : Node) : Nat := header - 1

def size (graph : Graph) : Nat := graph.horizontal.size

/-- Whether no two forced rows share a column. -/
def isConsistent (graph : Graph) : Bool := graph.clash.isNone

/-- The forced rows in ascending order. -/
def clueRows (graph : Graph) : List Nat :=
  graph.clueNodes.filterMap fun node => (graph.rowNumbers[node]?).join

/-- The matrix row of a node, which the root and the headers do not have. -/
def rowOf (graph : Graph) (node : Node) : Except Fault (Option Nat) :=
  match graph.rowNumbers[node]? with
  | some row => .ok row
  | none => .error (.missingNode node)

def headerOf (graph : Graph) (node : Node) : Except Fault Node :=
  match graph.headers[node]? with
  | some header => .ok header
  | none => .error (.missingNode node)

def countOf (graph : Graph) (header : Node) : Except Fault Nat :=
  match graph.counts[header]? with
  | some count => .ok count
  | none => .error (.missingNode header)

def down (graph : Graph) (node : Node) : Except Fault Node := do
  graph.vertical.check node
  return graph.vertical.nextOf node

def isSolved (graph : Graph) : Bool := graph.horizontal.isAlone root

/-- The headers of the columns left to be covered, in ascending order. -/
def liveHeaders (graph : Graph) : Except Fault (List Node) := graph.horizontal.ring root

/-- Whether a node is the header of a column left to be covered. -/
def isLive (graph : Graph) (header : Node) : Bool :=
  0 < header && header ≤ graph.columns && graph.horizontal.isLinked header

/-- The nodes under a header, top to bottom. -/
def columnNodes (graph : Graph) (header : Node) : Except Fault (List Node) :=
  graph.vertical.ring header

def columnNodesUp (graph : Graph) (header : Node) : Except Fault (List Node) :=
  graph.vertical.backward.ring header

/-- The other nodes of a node's row, left to right from the node on. -/
def rowMates (graph : Graph) (node : Node) : Except Fault (List Node) :=
  graph.horizontal.ring node

def rowMatesBack (graph : Graph) (node : Node) : Except Fault (List Node) :=
  graph.horizontal.backward.ring node

/-- The headers of the columns of a node's row, from the node on. -/
def rowHeaders (graph : Graph) (node : Node) : Except Fault (List Node) := do
  (node :: (← graph.rowMates node)).mapM graph.headerOf

/-- Of a column and the best so far, the one with fewer nodes; the earlier one on a tie. -/
def fewer (graph : Graph) (best : Option (Node × Nat)) (header : Node) :
    Except Fault (Option (Node × Nat)) := do
  let count ← graph.countOf header
  match best with
  | none => return some (header, count)
  | some (_, least) => return if count < least then some (header, count) else best

/-- The first of the live columns that have the fewest nodes; none when no column is live. -/
def chooseColumn (graph : Graph) : Except Fault (Option Node) := do
  let best ← (← graph.liveHeaders).foldlM graph.fewer none
  return best.map (·.1)

/-- Takes a header out of the ring of live columns. -/
def unlinkHeader (graph : Graph) (header : Node) : Except Fault Graph := do
  graph.horizontal.check header
  return { graph with horizontal := graph.horizontal.unlink header }

def relinkHeader (graph : Graph) (header : Node) : Except Fault Graph := do
  graph.horizontal.check header
  return { graph with horizontal := graph.horizontal.relink header }

/-- Takes a node out of its column. -/
def detach (graph : Graph) (node : Node) : Except Fault Graph := do
  graph.vertical.check node
  let header ← graph.headerOf node
  match ← graph.countOf header with
  | 0 => throw (.emptyColumn header)
  | count + 1 => return { graph with
      vertical := graph.vertical.unlink node
      counts := graph.counts.setIfInBounds header count
      updates := graph.updates + 1 }

def attach (graph : Graph) (node : Node) : Except Fault Graph := do
  graph.vertical.check node
  let header ← graph.headerOf node
  let count ← graph.countOf header
  return { graph with
    vertical := graph.vertical.relink node
    counts := graph.counts.setIfInBounds header (count + 1) }

/-- Takes the other nodes of a node's row out of their columns, left to right. -/
def hideRow (graph : Graph) (node : Node) : Except Fault Graph := do
  (← graph.rowMates node).foldlM detach graph

def showRow (graph : Graph) (node : Node) : Except Fault Graph := do
  (← graph.rowMatesBack node).foldlM attach graph

/-- Removes a column, and from the other columns every row that has a node in it. -/
def cover (graph : Graph) (header : Node) : Except Fault Graph := do
  let nodes ← graph.columnNodes header
  nodes.foldlM hideRow (← graph.unlinkHeader header)

/-- Undoes a cover of the column, when that is the most recent cover that is not undone yet. -/
def uncover (graph : Graph) (header : Node) : Except Fault Graph := do
  let nodes ← graph.columnNodesUp header
  (← nodes.foldlM showRow graph).relinkHeader header

def coverAll (graph : Graph) (headers : List Node) : Except Fault Graph :=
  headers.foldlM cover graph

def uncoverAll (graph : Graph) (headers : List Node) : Except Fault Graph :=
  headers.foldlM uncover graph

/-- The headers of the columns of the other nodes of a node's row, left to right. -/
def otherHeaders (graph : Graph) (node : Node) : Except Fault (List Node) := do
  (← graph.rowMates node).mapM graph.headerOf

def otherHeadersBack (graph : Graph) (node : Node) : Except Fault (List Node) := do
  (← graph.rowMatesBack node).mapM graph.headerOf

/-- Covers the columns of the other nodes of a node's row. -/
def coverRow (graph : Graph) (node : Node) : Except Fault Graph := do
  graph.coverAll (← graph.otherHeaders node)

def uncoverRow (graph : Graph) (node : Node) : Except Fault Graph := do
  graph.uncoverAll (← graph.otherHeadersBack node)

/-- Covers columns that all have to be live. -/
def commit (graph : Graph) (headers : List Node) : Except Fault Graph :=
  match headers.find? (!graph.isLive ·) with
  | some header => .error (.coveredColumn header)
  | none => graph.coverAll headers

end Graph

end ExactCover
