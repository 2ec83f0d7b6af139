import ExactCover.Fault

/-! # Ring tables

Circular doubly linked lists over numbered nodes. A table remembers two neighbours for every
node. Taking a node out of its ring leaves the node's own two neighbours as they were, which is
what lets the node be put back in one step, as long as removals are undone in reverse order.

The operations on a table are total: a node that is not in the table is its own neighbour and
is never written. `RingTable.check` is the guard that an operation's node and the neighbours it
remembers are all there.
-/

namespace ExactCover

/-- A node is known by its place in the table. -/
abbrev Node := Nat

/-- The two neighbours of every node. -/
structure RingTable where
  previous : Array Node
  next : Array Node
  /-- Every node has both neighbours. -/
  size_eq : previous.size = next.size
  deriving DecidableEq

namespace RingTable

def empty : RingTable := ⟨#[], #[], rfl⟩

def size (table : RingTable) : Nat := table.next.size

def isEmpty (table : RingTable) : Bool := table.size == 0

def previousOf (table : RingTable) (node : Node) : Node := table.previous.getD node node

def nextOf (table : RingTable) (node : Node) : Node := table.next.getD node node

/-- Adds a node, numbered by the old size, as a ring of its own. -/
def alloc (table : RingTable) : RingTable where
  previous := table.previous.push table.next.size
  next := table.next.push table.next.size
  size_eq := by simp [table.size_eq]

/-- Puts `b` into the ring of `a`, directly after `a`. -/
def insertAfter (table : RingTable) (a b : Node) : RingTable :=
  let c := table.nextOf a
  { previous := (table.previous.setIfInBounds b a).setIfInBounds c b
    next := (table.next.setIfInBounds b c).setIfInBounds a b
    size_eq := by simp [table.size_eq] }

/-- Takes a node out of its ring; the node keeps its own two neighbours. -/
def unlink (table : RingTable) (b : Node) : RingTable :=
  let before := table.previousOf b
  let after := table.nextOf b
  { previous := table.previous.setIfInBounds after before
    next := table.next.setIfInBounds before after
    size_eq := by simp [table.size_eq] }

/-- Puts a node back between the two neighbours it remembers. -/
def relink (table : RingTable) (b : Node) : RingTable :=
  let before := table.previousOf b
  let after := table.nextOf b
  { previous := table.previous.setIfInBounds after b
    next := table.next.setIfInBounds before b
    size_eq := by simp [table.size_eq] }

/-- The table read the other way: what came after a node comes before it. -/
def backward (table : RingTable) : RingTable where
  previous := table.next
  next := table.previous
  size_eq := table.size_eq.symm

/-- Whether a node is the only member of its ring. -/
def isAlone (table : RingTable) (node : Node) : Bool :=
  table.nextOf node == node

/-- Whether the neighbour before a node leads to the node, as it does for a node in its ring. -/
def isLinked (table : RingTable) (node : Node) : Bool :=
  table.nextOf (table.previousOf node) == node

/-- The nodes met going forward from `node`, up to `stop` and at most as many as the limit. -/
def walk (table : RingTable) (stop : Node) : Nat → Node → List Node
  | 0, _ => []
  | limit + 1, node =>
      if node = stop then [] else node :: table.walk stop limit (table.nextOf node)

/-- Refuses a node that is not in the table, or remembers a neighbour that is not. -/
def check (table : RingTable) (node : Node) : Except Fault Unit :=
  if node < table.size then
    if table.previousOf node < table.size then
      if table.nextOf node < table.size then .ok ()
      else .error (.missingNode (table.nextOf node))
    else .error (.missingNode (table.previousOf node))
  else .error (.missingNode node)

/-- The other members of the ring of a node in forward order, at most as many as the limit. -/
def ringUpTo (table : RingTable) (limit : Nat) (start : Node) : Except Fault (List Node) := do
  table.check start
  return table.walk start limit (table.nextOf start)

/-- All other members of the ring of a node in forward order. A ring has fewer other members
    than the table has nodes, so a longer walk means that it never leads back. -/
def ring (table : RingTable) (start : Node) : Except Fault (List Node) := do
  table.check start
  let nodes := table.walk start table.size (table.nextOf start)
  if nodes.length < table.size then .ok nodes else .error (.openRing start)

/-- The neighbours before and after a node of the table. -/
def neighbours (table : RingTable) (node : Node) : Except Fault (Node × Node) := do
  table.check node
  return (table.previousOf node, table.nextOf node)

def insertAfterChecked (table : RingTable) (a b : Node) : Except Fault RingTable := do
  table.check a
  table.check b
  return table.insertAfter a b

def unlinkChecked (table : RingTable) (b : Node) : Except Fault RingTable := do
  table.check b
  return table.unlink b

def relinkChecked (table : RingTable) (b : Node) : Except Fault RingTable := do
  table.check b
  return table.relink b

/-- The table in one line: for each node its number and its neighbours before and after. -/
def describe (table : RingTable) : String :=
  ", ".intercalate ((List.range table.size).map fun node =>
    s!"{node}:{table.previousOf node}-{table.nextOf node}")

theorem size_alloc (table : RingTable) : table.alloc.size = table.size + 1 := by
  simp [size, alloc]

theorem size_insertAfter (table : RingTable) (a b : Node) :
    (table.insertAfter a b).size = table.size := by
  simp [size, insertAfter]

theorem size_unlink (table : RingTable) (b : Node) : (table.unlink b).size = table.size := by
  simp [size, unlink]

theorem size_backward (table : RingTable) : table.backward.size = table.size :=
  table.size_eq

theorem nextOf_backward (table : RingTable) (node : Node) :
    table.backward.nextOf node = table.previousOf node := rfl

end RingTable

end ExactCover
