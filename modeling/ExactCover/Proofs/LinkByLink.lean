import ExactCover.Graph.Build
import ExactCover.Proofs.Ring

/-! # Acts on a graph link by link

The acts on a graph first collect the nodes of a ring and then go through them. Here they are
described by their links alone: a loop goes on to the node that the last one is linked to by then,
until it is back where it has started, and every turn of it may change the links. Such a loop need
not come to an end.

An act is only described where nothing goes wrong: the nodes whose links are read or changed are in
their tables, a count that is lowered is not zero, a header that is unlinked is not the root, and a
column that is covered is live. The building of a graph is described in the same way.
-/

namespace ExactCover.Graph

/-- The turns of a loop that goes from node to node until it comes to `stop`. The link that it
    follows from a node is read after the turn. -/
inductive Loop (links : Graph → RingTable) (turn : Node → Graph → Graph → Prop) (stop : Node) :
    Node → Graph → Graph → Prop where
  | stop (graph : Graph) : Loop links turn stop stop graph graph
  | turn {node : Node} {graph middle after : Graph} (differs : node ≠ stop)
      (acts : turn node graph middle) (inside : node < (links middle).size)
      (rest : Loop links turn stop ((links middle).nextOf node) middle after) :
      Loop links turn stop node graph after

/-- A loop from the node that follows another one, back to that one. -/
def Around (links : Graph → RingTable) (turn : Node → Graph → Graph → Prop) (start : Node)
    (graph after : Graph) : Prop :=
  start < (links graph).size ∧ Loop links turn start ((links graph).nextOf start) graph after

/-- Takes a node of a row out of its column. -/
def Detaches (node : Node) (graph after : Graph) : Prop :=
  node ≠ root ∧ graph.detach node = .ok after

def Attaches (node : Node) (graph after : Graph) : Prop := graph.attach node = .ok after

/-- Takes the other nodes of a node's row out of their columns, left to right. -/
def HidesRow (node : Node) : Graph → Graph → Prop := Around horizontal Detaches node

/-- Puts them back, right to left. -/
def ShowsRow (node : Node) : Graph → Graph → Prop :=
  Around (fun graph => graph.horizontal.backward) Attaches node

/-- Covers a live column, going down its nodes. -/
structure Covers (header : Node) (graph after : Graph) : Prop where
  live : ∃ live, graph.liveHeaders = .ok live ∧ header ∈ live
  apart : header ≠ root
  hides : ∃ unlinked, graph.unlinkHeader header = .ok unlinked ∧
    Around vertical HidesRow header unlinked after

/-- Undoes a cover, going up the nodes of the column. -/
def Uncovers (header : Node) (graph after : Graph) : Prop :=
  ∃ shown, Around (fun graph => graph.vertical.backward) ShowsRow header graph shown ∧
    shown.relinkHeader header = .ok after

/-- Covers the column of a node. -/
def CoversColumn (node : Node) (graph after : Graph) : Prop :=
  ∃ header, graph.headerOf node = .ok header ∧ Covers header graph after

def UncoversColumn (node : Node) (graph after : Graph) : Prop :=
  ∃ header, graph.headerOf node = .ok header ∧ Uncovers header graph after

/-- Covers the columns of the other nodes of a node's row, left to right. -/
def CoversRow (node : Node) : Graph → Graph → Prop := Around horizontal CoversColumn node

/-- Undoes these covers, right to left. -/
def UncoversRow (node : Node) : Graph → Graph → Prop :=
  Around (fun graph => graph.horizontal.backward) UncoversColumn node

/-- Covers columns one after the other, each of them live when its turn comes. -/
inductive CoversAll : List Node → Graph → Graph → Prop where
  | nil (graph : Graph) : CoversAll [] graph graph
  | cons {header : Node} {headers : List Node} {graph middle after : Graph}
      (first : Covers header graph middle) (rest : CoversAll headers middle after) :
      CoversAll (header :: headers) graph after

/-- Covers the columns of the forced rows in turn, up to the first row that sets a column covered
    before. The column of a header that is asked for or noted is one of the matrix. -/
inductive CommitsClues : List Node → List Node → Graph → Graph → Prop where
  | nil (covered : List Node) (graph : Graph) : CommitsClues [] covered graph graph
  | clash {clue : Node} {rest covered headers : List Node} {graph : Graph} {row : Nat}
      (met : graph.rowHeaders clue = .ok headers)
      (inside : ∀ header ∈ headers, header ≠ root ∧ columnOfHeader header < graph.columns)
      (known : ∃ header ∈ headers, header ∈ covered)
      (named : graph.rowOf clue = .ok (some row)) :
      CommitsClues (clue :: rest) covered graph { graph with clash := some row }
  | commit {clue : Node} {rest covered headers : List Node} {graph middle after : Graph}
      (met : graph.rowHeaders clue = .ok headers)
      (inside : ∀ header ∈ headers, header ≠ root ∧ columnOfHeader header < graph.columns)
      (fresh : ∀ header ∈ headers, header ∉ covered)
      (covers : CoversAll headers graph middle)
      (further : CommitsClues rest (headers ++ covered) middle after) :
      CommitsClues (clue :: rest) covered graph after

/-! ### One course only

Every act described here can only lead to one graph. -/

variable {links : Graph → RingTable} {turn : Node → Graph → Graph → Prop} {stop : Node}

theorem Loop.rightUnique (turns : ∀ node, Relator.RightUnique (turn node)) (node : Node) :
    Relator.RightUnique (Loop links turn stop node) := by
  intro graph one two first
  induction first generalizing two with
  | stop graph =>
      intro second
      cases second with
      | stop => rfl
      | turn differs => exact absurd rfl differs
  | turn differs acts inside rest ih =>
      intro second
      cases second with
      | stop => exact absurd rfl differs
      | turn _ acts' _ rest' =>
          obtain rfl := turns _ acts acts'
          exact ih rest'

theorem Around.rightUnique (turns : ∀ node, Relator.RightUnique (turn node)) (start : Node) :
    Relator.RightUnique (Around links turn start) :=
  fun _ _ _ one two => Loop.rightUnique turns _ one.2 two.2

theorem HidesRow.rightUnique (node : Node) : Relator.RightUnique (HidesRow node) :=
  Around.rightUnique (fun _ _ _ _ one two => Except.ok.inj (one.2.symm.trans two.2)) node

theorem ShowsRow.rightUnique (node : Node) : Relator.RightUnique (ShowsRow node) :=
  Around.rightUnique (fun _ _ _ _ one two => Except.ok.inj (one.symm.trans two)) node

theorem Covers.rightUnique (header : Node) : Relator.RightUnique (Covers header) := by
  intro graph one two first second
  obtain ⟨unlinked, run, hides⟩ := first.hides
  obtain ⟨unlinked', run', hides'⟩ := second.hides
  obtain rfl := Except.ok.inj (run.symm.trans run')
  exact Around.rightUnique HidesRow.rightUnique header hides hides'

theorem Uncovers.rightUnique (header : Node) : Relator.RightUnique (Uncovers header) := by
  rintro graph one two ⟨shown, shows, run⟩ ⟨shown', shows', run'⟩
  obtain rfl := Around.rightUnique ShowsRow.rightUnique header shows shows'
  exact Except.ok.inj (run.symm.trans run')

theorem CoversRow.rightUnique (node : Node) : Relator.RightUnique (CoversRow node) := by
  apply Around.rightUnique
  rintro mate graph one two ⟨header, named, covers⟩ ⟨header', named', covers'⟩
  obtain rfl := Except.ok.inj (named.symm.trans named')
  exact Covers.rightUnique header covers covers'

theorem UncoversRow.rightUnique (node : Node) : Relator.RightUnique (UncoversRow node) := by
  apply Around.rightUnique
  rintro mate graph one two ⟨header, named, uncovers⟩ ⟨header', named', uncovers'⟩
  obtain rfl := Except.ok.inj (named.symm.trans named')
  exact Uncovers.rightUnique header uncovers uncovers'

/-! ### Building link by link

Before a node is added, every table has a place for each of the nodes so far. -/

/-- Every table has a place for each node, and the root is one of the nodes. -/
structure Aligned (graph : Graph) : Prop where
  rooted : root < graph.size
  vertical : graph.vertical.size = graph.size
  headers : graph.headers.size = graph.size
  rowNumbers : graph.rowNumbers.size = graph.size
  counts : graph.counts.size ≤ graph.size

/-- Adds so many headers to the ring of the root. -/
inductive AddsHeaders : Nat → Graph → Graph → Prop where
  | nil (graph : Graph) : AddsHeaders 0 graph graph
  | cons {count : Nat} {graph middle after : Graph} (aligned : graph.Aligned)
      (first : graph.addHeader = .ok middle) (rest : AddsHeaders count middle after) :
      AddsHeaders (count + 1) graph after

/-- Adds the entries of a row to the right of a node. -/
inductive AddsEntries (row : Nat) : Node → List Nat → Graph → Graph → Prop where
  | nil (left : Node) (graph : Graph) : AddsEntries row left [] graph graph
  | cons {left : Node} {column : Nat} {columns : List Nat} {graph added middle after : Graph}
      (aligned : graph.Aligned) (inside : header column < graph.size)
      (first : graph.addEntry row column = .ok added)
      (links : added.linkRight left graph.size = .ok middle)
      (rest : AddsEntries row graph.size columns middle after) :
      AddsEntries row left (column :: columns) graph after

/-- Adds rows, and notes the forced ones among them. -/
inductive AddsRows (forced : List Nat) : List (List Nat × Nat) → Graph → Graph → Prop where
  | nil (graph : Graph) : AddsRows forced [] graph graph
  | blank {row : Nat} {rows : List (List Nat × Nat)} {graph after : Graph}
      (rest : AddsRows forced rows graph after) : AddsRows forced (([], row) :: rows) graph after
  | cons {column row : Nat} {columns : List Nat} {rows : List (List Nat × Nat)}
      {graph added noted middle after : Graph} (aligned : graph.Aligned)
      (inside : header column < graph.size) (first : graph.addEntry row column = .ok added)
      (notes : noted = if forced.contains row then
        { added with clueNodes := added.clueNodes ++ [graph.size] } else added)
      (others : AddsEntries row graph.size columns noted middle)
      (rest : AddsRows forced rows middle after) :
      AddsRows forced ((column :: columns, row) :: rows) graph after

/-- The nodes of a matrix are added to the root alone, first the headers and then the rows. -/
def Links (matrix : IncidenceMatrix) (forced : List Nat) (linked : Graph) : Prop :=
  ∃ heads, AddsHeaders matrix.columns (blank matrix.columns).addHead heads ∧
    AddsRows forced matrix.rows.toList.zipIdx heads linked

section Building

variable {graph after : Graph} {row column : Nat} {left node : Node} {forced : List Nat}

theorem aligned_root (columns : Nat) : (blank columns).addHead.Aligned :=
  ⟨Nat.zero_lt_one, rfl, rfl, rfl, Nat.le_refl 1⟩

theorem Aligned.addNode (aligned : graph.Aligned) (header : Node) (number : Option Nat) :
    (graph.addNode header number).Aligned := by
  have grown : (graph.addNode header number).size = graph.size + 1 := RingTable.size_alloc _
  constructor
  case rooted => exact grown ▸ Nat.lt_succ_of_lt aligned.rooted
  case vertical =>
    exact (RingTable.size_alloc _).trans ((congrArg (· + 1) aligned.vertical).trans grown.symm)
  case headers =>
    exact (Array.size_push _).trans ((congrArg (· + 1) aligned.headers).trans grown.symm)
  case rowNumbers =>
    exact (Array.size_push _).trans ((congrArg (· + 1) aligned.rowNumbers).trans grown.symm)
  case counts => exact grown ▸ Nat.le_succ_of_le aligned.counts

theorem Aligned.linkRight (aligned : graph.Aligned) (run : graph.linkRight left node = .ok after) :
    after.Aligned := by
  obtain ⟨_, _, run⟩ := exists_of_bind_eq_ok run
  obtain ⟨_, _, run⟩ := exists_of_bind_eq_ok run
  obtain rfl := Except.ok.inj run
  have same := RingTable.size_insertAfter graph.horizontal left node
  exact ⟨aligned.rooted.trans_eq same.symm, aligned.vertical.trans same.symm,
    aligned.headers.trans same.symm, aligned.rowNumbers.trans same.symm, aligned.counts.trans same.ge⟩

theorem Aligned.linkBelow (aligned : graph.Aligned) (run : graph.linkBelow left node = .ok after) :
    after.Aligned := by
  obtain ⟨_, _, run⟩ := exists_of_bind_eq_ok run
  obtain ⟨_, _, run⟩ := exists_of_bind_eq_ok run
  obtain rfl := Except.ok.inj run
  exact { aligned with vertical := (RingTable.size_insertAfter ..).trans aligned.vertical }

theorem Aligned.countUp (aligned : graph.Aligned) (run : graph.countUp node = .ok after) :
    node < graph.counts.size ∧ after.Aligned := by
  obtain ⟨count, counted, run⟩ := exists_of_bind_eq_ok run
  obtain rfl := Except.ok.inj run
  unfold countOf at counted
  split at counted
  · rename_i found
    refine ⟨(Array.getElem?_eq_some_iff.mp found).1, { aligned with counts := ?_ }⟩
    rw [Array.size_setIfInBounds]
    exact aligned.counts
  · cases counted

theorem Aligned.addHeader (aligned : graph.Aligned) (run : graph.addHeader = .ok after) :
    after.Aligned := by
  have added := aligned.addNode graph.size none
  refine linkRight ?_ run
  refine { added with counts := ?_ }
  simp only [addHead, Graph.addNode, size, RingTable.size_alloc, Array.size_push]
  exact Nat.succ_le_succ aligned.counts

/-- An entry can only be added in a column that there is. -/
theorem Aligned.addEntry (aligned : graph.Aligned) (run : graph.addEntry row column = .ok after) :
    header column < graph.size ∧ after.Aligned := by
  obtain ⟨counted, counts, run⟩ := exists_of_bind_eq_ok run
  obtain ⟨inside, aligned'⟩ := (aligned.addNode (header column) (some row)).countUp counts
  exact ⟨Nat.lt_of_lt_of_le inside aligned.counts, aligned'.linkBelow run⟩

theorem addsHeaders {columns : List Nat} (aligned : graph.Aligned)
    (run : columns.foldlM (fun graph _ => graph.addHeader) graph = .ok after) :
    AddsHeaders columns.length graph after ∧ after.Aligned := by
  induction columns generalizing graph with
  | nil =>
      obtain rfl := Except.ok.inj run
      exact ⟨.nil graph, aligned⟩
  | cons column columns ih =>
      obtain ⟨middle, first, rest⟩ := exists_of_bind_eq_ok run
      obtain ⟨adds, aligned'⟩ := ih (aligned.addHeader first) rest
      exact ⟨.cons aligned first adds, aligned'⟩

theorem addsEntries {columns : List Nat} (aligned : graph.Aligned)
    (run : addEntriesAfter row left columns graph = .ok after) :
    AddsEntries row left columns graph after ∧ after.Aligned := by
  induction columns generalizing left graph with
  | nil =>
      obtain rfl := Except.ok.inj run
      exact ⟨.nil left graph, aligned⟩
  | cons column columns ih =>
      obtain ⟨added, first, run⟩ := exists_of_bind_eq_ok run
      obtain ⟨middle, links, rest⟩ := exists_of_bind_eq_ok run
      obtain ⟨inside, aligned'⟩ := aligned.addEntry first
      obtain ⟨adds, aligned''⟩ := ih (aligned'.linkRight links) rest
      exact ⟨.cons aligned inside first links adds, aligned''⟩

theorem addsRows {rows : List (List Nat × Nat)} (aligned : graph.Aligned)
    (run : rows.foldlM (addRow forced) graph = .ok after) : AddsRows forced rows graph after := by
  induction rows generalizing graph with
  | nil =>
      obtain rfl := Except.ok.inj run
      exact .nil graph
  | cons entry rows ih =>
      obtain ⟨columns, row⟩ := entry
      obtain ⟨middle, one, rest⟩ := exists_of_bind_eq_ok run
      cases columns with
      | nil =>
          obtain rfl := Except.ok.inj one
          exact .blank (ih aligned rest)
      | cons column columns =>
          obtain ⟨added, first, others⟩ := exists_of_bind_eq_ok one
          obtain ⟨inside, aligned'⟩ := aligned.addEntry first
          have noted : (if forced.contains row then
              { added with clueNodes := added.clueNodes ++ [graph.size] } else added).Aligned := by
            split
            · exact { aligned' with }
            · exact aligned'
          obtain ⟨adds, aligned''⟩ := addsEntries noted others
          exact .cons aligned inside first rfl adds (ih aligned'' rest)

/-- The graph of a matrix is built link by link. -/
theorem links_of_link {matrix : IncidenceMatrix} (run : link matrix forced = .ok after) :
    Links matrix forced after := by
  obtain ⟨heads, columns, rows⟩ := exists_of_bind_eq_ok run
  obtain ⟨adds, aligned⟩ := addsHeaders (aligned_root matrix.columns) columns
  rw [List.length_range] at adds
  exact ⟨heads, adds, addsRows aligned rows⟩

end Building

end ExactCover.Graph
