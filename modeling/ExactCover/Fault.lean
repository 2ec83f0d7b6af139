/-! # Faults

What goes wrong when a linked structure is used outside its rules. No input of the searches
and puzzles built on the structures leads to a fault; they are what the operations on a table
or a graph answer when a caller names a node that is not there, or has broken a ring.
-/

namespace ExactCover

/-- Why a step on a linked structure could not be made. -/
inductive Fault where
  /-- The node, or a neighbour it remembers, is not in the table. -/
  | missingNode (node : Nat)
  /-- Walking forward from this node does not lead back to it. -/
  | openRing (start : Nat)
  /-- A column that counts no nodes was to lose one. -/
  | emptyColumn (header : Nat)
  /-- A column that is already covered was to be covered for a forced row. -/
  | coveredColumn (header : Nat)
  /-- A node that belongs to no row was to be chosen. -/
  | rowless (node : Nat)
  /-- A search made more steps than its graph allows for. -/
  | unfinished
  deriving DecidableEq

def Fault.message : Fault → String
  | .missingNode node => s!"node {node} is not in the table"
  | .openRing start => s!"the ring of node {start} does not close"
  | .emptyColumn header => s!"column header {header} counts no nodes"
  | .coveredColumn header => s!"column header {header} is covered twice"
  | .rowless node => s!"node {node} belongs to no row"
  | .unfinished => "the search exceeds its bound"

/-- Two steps in a row succeed when both do. -/
theorem exists_of_bind_eq_ok {ε α β : Type} {first : Except ε α} {next : α → Except ε β} {result : β}
    (run : first >>= next = .ok result) : ∃ middle, first = .ok middle ∧ next middle = .ok result := by
  cases first with
  | error e => cases run
  | ok middle => exact ⟨middle, rfl, run⟩

end ExactCover
