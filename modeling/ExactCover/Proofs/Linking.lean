import ExactCover.Graph.Build
import ExactCover.Proofs.CoverState

/-! # Linking a matrix

While a graph is built it shows the entries linked so far: every column is live and has under its
header the rows that have an entry in it, in the order of the entries. Adding the entries of a
matrix row by row ends with the graph that represents the matrix with no column covered.
-/

namespace ExactCover.Graph

open RingTable

/-- The parts of a graph that linking nodes never touches. -/
def notes (graph : Graph) : Nat × List Node × Option Nat × Nat :=
  (graph.columns, graph.clueNodes, graph.clash, graph.updates)

/-- The graph has exactly the nodes of a layout, and no column is covered. -/
structure Linking (graph : Graph) (layout : Layout) : Prop where
  shows : graph.Shows layout (List.range layout.columns) layout.rowsOf
  headers_size : graph.headers.size = layout.size
  rowNumbers_size : graph.rowNumbers.size = layout.size
  counts_size : graph.counts.size = layout.columns + 1

/-- The layout of headers alone. -/
def heads (columns : Nat) : Layout := ⟨columns, [], List.nodup_nil, by simp⟩

theorem linking_blank (columns : Nat) : (blank columns).addHead.Linking (heads 0) where
  shows := {
    horizontal_size := rfl
    vertical_size := rfl
    headers := fun member => absurd member List.not_mem_nil
    rowNumbers := fun member => absurd member List.not_mem_nil
    live_inside := by simp [heads]
    rows_inside := fun member => absurd (Layout.mem_rowsOf.mp member) List.not_mem_nil
    root_ring := IsRing.alloc_size .empty
    row_ring := fun found => by simp [heads, Layout.columnsOf] at found
    column_ring := fun below => absurd below (Nat.not_lt_zero _)
    counts := fun below => absurd below (Nat.not_lt_zero _) }
  headers_size := rfl
  rowNumbers_size := rfl
  counts_size := rfl

theorem addHeader_linking {graph : Graph} {columns : Nat} (h : graph.Linking (heads columns)) :
    ∃ after, graph.addHeader = .ok after ∧ after.Linking (heads (columns + 1)) ∧
      after.notes = graph.notes := by
  have size : graph.size = columns + 1 := h.shows.horizontal_size
  have ring := h.shows.root_ring
  have grown := ring.alloc
  have alone := IsRing.alloc_size graph.horizontal
  have last := grown.held (previousOf_mem_of_path grown.path)
  have fresh : graph.size ∉ root :: (List.range columns).map header :=
    fun member => Nat.lt_irrefl _ (ring.inside _ member)
  have placed := grown.insertAfter_last alone.held_start.inside fresh
  rw [previousOf_alloc] at last placed
  refine ⟨{ graph.addHead with
    horizontal := graph.addHead.horizontal.insertAfter (graph.horizontal.previousOf root)
      graph.size }, ?_, ⟨?_, ?_, ?_, ?_⟩, rfl⟩
  · have ok : graph.addHead.horizontal.check graph.size = .ok () := alone.held_start.check_eq_ok
    have ok' : graph.addHead.horizontal.check (graph.horizontal.previousOf root) = .ok () :=
      last.check_eq_ok
    simp only [addHeader, linkRight, ok, ok', bind, Except.bind, pure, Except.pure]
  · refine {
      horizontal_size := ?_
      vertical_size := ?_
      headers := fun member => absurd member List.not_mem_nil
      rowNumbers := fun member => absurd member List.not_mem_nil
      live_inside := fun column member => List.mem_range.mp member
      rows_inside := fun member => absurd (Layout.mem_rowsOf.mp member) List.not_mem_nil
      root_ring := ?_
      row_ring := fun found => by simp [heads, Layout.columnsOf] at found
      column_ring := ?_
      counts := ?_ }
    · exact (size_insertAfter _ _ _).trans ((size_alloc _).trans (congrArg (· + 1) size))
    · exact (size_alloc _).trans (congrArg (· + 1) h.shows.vertical_size)
    · have order : (List.range (columns + 1)).map header =
          (List.range columns).map header ++ [graph.size] := by
        rw [List.range_succ, List.map_append, size]
        rfl
      exact order ▸ placed
    · intro column below
      rcases Nat.lt_succ_iff_lt_or_eq.mp below with below | rfl
      · exact (h.shows.column_ring below).alloc
      · have own := IsRing.alloc_size graph.vertical
        rw [h.shows.vertical_size] at own
        exact own
    · intro column below
      change (graph.counts.push 0)[header column]? = _
      rw [Array.getElem?_push, h.counts_size]
      rcases Nat.lt_succ_iff_lt_or_eq.mp below with below | rfl
      · have differs : header column ≠ columns + 1 := Nat.ne_of_lt (Nat.succ_lt_succ below)
        exact (if_neg differs).trans (h.shows.counts below)
      · exact if_pos rfl
  · exact (Array.size_push _).trans (congrArg (· + 1) h.headers_size)
  · exact (Array.size_push _).trans (congrArg (· + 1) h.rowNumbers_size)
  · exact (Array.size_push _).trans (congrArg (· + 1) h.counts_size)

/-! ### One entry -/

section Entry

variable {graph : Graph} {layout : Layout} {row column : Nat}

/-- The graph with a node for one more entry, put under its header, given the table of rows. -/
def withEntry (graph : Graph) (row column : Nat) (horizontal : RingTable) : Graph :=
  { graph with
    horizontal := horizontal
    vertical := graph.vertical.alloc.insertAfter (graph.vertical.previousOf (header column))
      graph.size
    headers := graph.headers.push (header column)
    rowNumbers := graph.rowNumbers.push (some row)
    counts := graph.counts.setIfInBounds (header column)
      (graph.counts.getD (header column) 0 + 1) }

theorem addEntry_eq (h : graph.Linking layout) (below : column < layout.columns) :
    graph.addEntry row column = .ok (graph.withEntry row column graph.horizontal.alloc) := by
  have ring := (h.shows.column_ring below).alloc
  have above := ring.held (previousOf_mem_of_path ring.path)
  rw [previousOf_alloc] at above
  have alone := (IsRing.alloc_size graph.vertical).held_start
  have size : graph.vertical.size = graph.size :=
    h.shows.vertical_size.trans h.shows.horizontal_size.symm
  rw [size] at alone
  have counted := h.shows.counts below
  simp only [addEntry, countUp, countOf, addNode, counted, linkBelow, above.check_eq_ok,
    alone.check_eq_ok, withEntry, Array.getD_eq_getD_getElem?, Option.getD_some, bind, Except.bind,
    pure, Except.pure]

theorem getElem?_push_node {α : Type} {values : Array α} (size : values.size = layout.size)
    {fresh : (row, column) ∉ layout.entries} {below : column < layout.columns} {f : Nat → Nat → α}
    (old : ∀ {i j}, (i, j) ∈ layout.entries → values[layout.node i j]? = some (f i j)) {i j : Nat}
    (member : (i, j) ∈ (layout.push row column fresh below).entries) :
    (values.push (f row column))[(layout.push row column fresh below).node i j]? =
      some (f i j) := by
  rw [Array.getElem?_push, size]
  rcases List.mem_append.mp member with member | member
  · rw [Layout.node_push_of_mem member, if_neg (Nat.ne_of_lt (Layout.node_lt_size member))]
    exact old member
  · obtain ⟨rfl, rfl⟩ := Prod.mk.inj (List.mem_singleton.mp member)
    exact if_pos Layout.node_push_self

/-- A table for the rows that puts the new node at the end of its row makes the graph show one
    entry more. -/
theorem linking_withEntry (h : graph.Linking layout) (fresh : (row, column) ∉ layout.entries)
    (below : column < layout.columns) {horizontal : RingTable}
    (size : horizontal.size = graph.size + 1)
    (root_ring : horizontal.IsRing root ((List.range layout.columns).map header))
    (row_ring : ∀ {i first rest},
      (layout.push row column fresh below).columnsOf i = first :: rest →
        horizontal.IsRing ((layout.push row column fresh below).node i first)
          (rest.map ((layout.push row column fresh below).node i))) :
    (graph.withEntry row column horizontal).Linking (layout.push row column fresh below) := by
  have vertical_size := h.shows.vertical_size
  have graph_size : graph.size = layout.size := h.shows.horizontal_size
  have own : (layout.push row column fresh below).node row column = graph.size :=
    Layout.node_push_self.trans graph_size.symm
  have alone := (IsRing.alloc_size graph.vertical).held_start.inside
  have home := (h.shows.column_ring below).alloc
  have absent : ∀ {j}, j < layout.columns →
      graph.size ∉ header j :: (layout.rowsOf j).map (layout.node · j) := by
    intro j hj member
    have inside := (h.shows.column_ring hj).inside _ member
    rw [vertical_size, graph_size] at inside
    exact Nat.lt_irrefl _ inside
  have same : ∀ j, (layout.rowsOf j).map ((layout.push row column fresh below).node · j) =
      (layout.rowsOf j).map (layout.node · j) := by
    intro j
    exact List.map_congr_left fun i hi => Layout.node_push_of_mem (Layout.mem_rowsOf.mp hi)
  rw [vertical_size, ← graph_size] at alone
  refine ⟨?_, ?_, ?_, ?_⟩
  · refine {
      horizontal_size := ?_
      vertical_size := ?_
      headers := ?_
      rowNumbers := ?_
      live_inside := fun j member => List.mem_range.mp member
      rows_inside := fun member => Layout.mem_rowsOf.mp member
      root_ring := root_ring
      row_ring := row_ring
      column_ring := ?_
      counts := ?_ }
    · exact size.trans ((congrArg (· + 1) graph_size).trans Layout.size_push.symm)
    · exact (size_insertAfter _ _ _).trans ((size_alloc _).trans
        ((congrArg (· + 1) vertical_size).trans Layout.size_push.symm))
    · exact getElem?_push_node (f := fun _ j => header j) h.headers_size h.shows.headers
    · exact getElem?_push_node (f := fun i _ => some i) h.rowNumbers_size h.shows.rowNumbers
    · intro j hj
      have hj : j < layout.columns := hj
      rw [Layout.rowsOf_push]
      by_cases here : column = j
      · subst here
        rw [if_pos rfl, List.map_append, same, List.map_singleton, own]
        have placed := home.insertAfter_last alone (absent below)
        rwa [previousOf_alloc] at placed
      · rw [if_neg here, List.append_nil, same]
        have placed := (h.shows.column_ring hj).alloc.insertAfter_last_other home alone
          (absent hj) (h.shows.apart_of_ne below hj here)
        rwa [previousOf_alloc] at placed
    · intro j hj
      have hj : j < layout.columns := hj
      have counted := h.shows.counts below
      rw [Layout.rowsOf_push]
      change (graph.counts.setIfInBounds _ _)[header j]? = _
      by_cases here : column = j
      · subst here
        have place := (Array.getElem?_eq_some_iff.mp counted).1
        rw [Array.getElem?_setIfInBounds_self_of_lt place, Array.getD_eq_getD_getElem?, counted]
        simp
      · have apart : header column ≠ header j := fun same => here (Nat.succ.inj same)
        rw [Array.getElem?_setIfInBounds_ne apart, if_neg here, List.append_nil]
        exact h.shows.counts hj
  · exact (Array.size_push _).trans
      ((congrArg (· + 1) h.headers_size).trans Layout.size_push.symm)
  · exact (Array.size_push _).trans
      ((congrArg (· + 1) h.rowNumbers_size).trans Layout.size_push.symm)
  · exact Array.size_setIfInBounds.trans h.counts_size

theorem node_push_map {i : Nat} {fresh : (row, column) ∉ layout.entries}
    {below : column < layout.columns} {columns : List Nat}
    (members : columns ⊆ layout.columnsOf i) :
    columns.map ((layout.push row column fresh below).node i) = columns.map (layout.node i) :=
  List.map_congr_left fun _ hj => Layout.node_push_of_mem (Layout.mem_columnsOf.mp (members hj))

theorem row_ring_push {fresh : (row, column) ∉ layout.entries}
    {below : column < layout.columns} {i first : Nat} {rest : List Nat} {table : RingTable}
    (found : layout.columnsOf i = first :: rest)
    (ring : table.IsRing (layout.node i first) (rest.map (layout.node i))) :
    table.IsRing ((layout.push row column fresh below).node i first)
      (rest.map ((layout.push row column fresh below).node i)) := by
  have member : first ∈ layout.columnsOf i := found ▸ List.mem_cons_self
  rw [Layout.node_push_of_mem (Layout.mem_columnsOf.mp member),
    node_push_map (found ▸ List.subset_cons_self first rest)]
  exact ring

/-- The first entry of a row. -/
theorem addEntry_linking (h : graph.Linking layout) (none : layout.columnsOf row = [])
    (fresh : (row, column) ∉ layout.entries) (below : column < layout.columns) :
    (graph.withEntry row column graph.horizontal.alloc).Linking
      (layout.push row column fresh below) := by
  refine linking_withEntry h fresh below (size_alloc _) h.shows.root_ring.alloc ?_
  intro i first rest found
  rw [Layout.columnsOf_push] at found
  by_cases here : row = i
  · subst here
    rw [none, if_pos rfl, List.nil_append, List.cons.injEq] at found
    obtain ⟨rfl, rfl⟩ := found
    rw [Layout.node_push_self, ← h.shows.horizontal_size]
    exact IsRing.alloc_size graph.horizontal
  · rw [if_neg here, List.append_nil] at found
    exact row_ring_push found (h.shows.row_ring found).alloc

/-- A further entry of a row, linked to the right of the last one. -/
theorem addEntry_linkRight (h : graph.Linking layout) {first : Nat} {rest : List Nat}
    (found : layout.columnsOf row = first :: rest)
    (fresh : (row, column) ∉ layout.entries) (below : column < layout.columns) :
    (graph.withEntry row column (graph.horizontal.alloc.insertAfter
      (graph.horizontal.previousOf (layout.node row first)) graph.size)).Linking
      (layout.push row column fresh below) := by
  have home := (h.shows.row_ring found).alloc
  have alone := (IsRing.alloc_size graph.horizontal).held_start.inside
  have away : ∀ {start nodes}, graph.horizontal.IsRing start nodes → graph.size ∉ start :: nodes :=
    fun ring member => Nat.lt_irrefl _ (ring.inside _ member)
  refine linking_withEntry h fresh below ?_ ?_ ?_
  · exact (size_insertAfter _ _ _).trans (size_alloc _)
  · have kept := h.shows.root_ring.alloc.insertAfter_last_other home alone
      (away h.shows.root_ring) h.shows.apart_of_root.symm
    rwa [previousOf_alloc] at kept
  · intro i start others split
    rw [Layout.columnsOf_push] at split
    by_cases here : row = i
    · subst here
      rw [found, if_pos rfl, List.cons_append, List.cons.injEq] at split
      obtain ⟨rfl, rfl⟩ := split
      have grown := home.insertAfter_last alone (away (h.shows.row_ring found))
      have member : first ∈ layout.columnsOf row := found ▸ List.mem_cons_self
      rw [List.map_append, Layout.node_push_of_mem (Layout.mem_columnsOf.mp member),
        node_push_map (found ▸ List.subset_cons_self first rest), List.map_singleton,
        Layout.node_push_self, ← h.shows.horizontal_size]
      rwa [previousOf_alloc] at grown
    · rw [if_neg here, List.append_nil] at split
      have ring := h.shows.row_ring split
      have apart : List.Disjoint ((first :: rest).map (layout.node row))
          ((start :: others).map (layout.node i)) :=
        Layout.disjoint_rows here (found ▸ List.Subset.refl _)
      have kept := ring.alloc.insertAfter_last_other home alone (away ring) apart
      rw [previousOf_alloc] at kept
      exact row_ring_push split kept

theorem linkRight_eq (h : graph.Linking layout) {first : Nat} {rest : List Nat}
    (found : layout.columnsOf row = first :: rest) :
    (graph.withEntry row column graph.horizontal.alloc).linkRight
      (graph.horizontal.previousOf (layout.node row first)) graph.size =
      .ok (graph.withEntry row column (graph.horizontal.alloc.insertAfter
        (graph.horizontal.previousOf (layout.node row first)) graph.size)) := by
  have ring := (h.shows.row_ring found).alloc
  have last := ring.held (previousOf_mem_of_path ring.path)
  rw [previousOf_alloc] at last
  have alone : graph.horizontal.alloc.check graph.size = .ok () :=
    (IsRing.alloc_size graph.horizontal).held_start.check_eq_ok
  simp only [linkRight, withEntry, last.check_eq_ok, alone, bind, Except.bind, pure, Except.pure]

end Entry

theorem Linking.withClues {graph : Graph} {layout : Layout} (h : graph.Linking layout)
    (clues : List Node) : { graph with clueNodes := clues }.Linking layout :=
  ⟨⟨h.shows.horizontal_size, h.shows.vertical_size, h.shows.headers, h.shows.rowNumbers,
    h.shows.live_inside, h.shows.rows_inside, h.shows.root_ring, h.shows.row_ring,
    h.shows.column_ring, h.shows.counts⟩, h.headers_size, h.rowNumbers_size, h.counts_size⟩

/-! ### One row -/

theorem addEntriesAfter_linking {graph : Graph} {layout : Layout} {row first : Nat}
    {rest columns : List Nat} (h : graph.Linking layout)
    (found : layout.columnsOf row = first :: rest) (distinct : (first :: rest ++ columns).Nodup)
    (below : ∀ j ∈ columns, j < layout.columns) :
    ∃ after next, addEntriesAfter row (graph.horizontal.previousOf (layout.node row first)) columns
        graph = .ok after ∧ after.Linking next ∧ next.columns = layout.columns ∧
      next.entries = layout.entries ++ columns.map (row, ·) ∧ after.notes = graph.notes := by
  induction columns generalizing graph layout rest with
  | nil => exact ⟨graph, layout, rfl, h, rfl, by simp, rfl⟩
  | cons column columns ih =>
      have fresh : (row, column) ∉ layout.entries := by
        intro member
        have met := Layout.mem_columnsOf.mpr member
        rw [found] at met
        exact List.disjoint_of_nodup_append distinct met List.mem_cons_self
      have inside := below column List.mem_cons_self
      have grown := addEntry_linkRight h found fresh inside
      have found' : (layout.push row column fresh inside).columnsOf row =
          first :: (rest ++ [column]) := by
        rw [Layout.columnsOf_push, found, if_pos rfl, List.cons_append]
      have distinct' : (first :: (rest ++ [column]) ++ columns).Nodup := by simpa using distinct
      obtain ⟨after, next, run, linking, heads, entries, notes⟩ := ih grown found' distinct'
        fun j hj => below j (List.mem_cons_of_mem column hj)
      -- The node just added is the last of its row, where the next one goes.
      have last : (graph.withEntry row column (graph.horizontal.alloc.insertAfter
          (graph.horizontal.previousOf (layout.node row first)) graph.size)).horizontal.previousOf
          ((layout.push row column fresh inside).node row first) = graph.size := by
        have ring := grown.shows.row_ring found'
        rw [List.map_append, List.map_singleton] at ring
        exact ((path_append.mp ring.path).2.2).trans
          (Layout.node_push_self.trans h.shows.horizontal_size.symm)
      rw [last] at run
      refine ⟨after, next, ?_, linking, heads, ?_, notes⟩
      · simp only [addEntriesAfter, addEntry_eq h inside, linkRight_eq h found, bind, Except.bind]
        exact run
      · simpa [Layout.push] using entries

end ExactCover.Graph

namespace ExactCover

variable {matrix : IncidenceMatrix} {row : Nat}

namespace IncidenceMatrix

/-- The forced rows that count: those that exist and set a column, in ascending order. -/
def forcedRows (matrix : IncidenceMatrix) (forced : List Nat) : List Nat :=
  (List.range matrix.size).filter fun row => forced.contains row && !(matrix.rowAt row).isEmpty

/-- The first node of a row. -/
def firstNode (matrix : IncidenceMatrix) (row : Nat) : Node :=
  matrix.layout.node row ((matrix.rowAt row).headD 0)

theorem entriesBelow_split {count : Nat} (h : row < count) : ∃ more,
    matrix.entriesBelow count = matrix.entriesBelow row ++ (matrix.rowAt row).map (row, ·) ++ more := by
  induction count with
  | zero => exact absurd h (Nat.not_lt_zero row)
  | succ count ih =>
      rw [entriesBelow_succ]
      rcases Nat.lt_succ_iff_lt_or_eq.mp h with h | rfl
      · obtain ⟨more, split⟩ := ih h
        exact ⟨more ++ (matrix.rowAt count).map (count, ·), by rw [split, List.append_assoc]⟩
      · exact ⟨[], (List.append_nil _).symm⟩

theorem firstNode_eq (h : row < matrix.size) {first : Nat} {rest : List Nat}
    (found : matrix.rowAt row = first :: rest) :
    matrix.firstNode row = (matrix.layoutBelow row).size := by
  obtain ⟨more, split⟩ := matrix.entriesBelow_split h
  have fresh : (row, first) ∉ matrix.entriesBelow row :=
    fun member => Nat.lt_irrefl row (mem_entriesBelow.mp member).1
  have place : (matrix.entriesBelow matrix.size).idxOf (row, first) =
      (matrix.entriesBelow row).length := by
    rw [split, found, List.append_assoc, List.idxOf_append, if_neg fresh]
    simp
  rw [firstNode, found, List.headD_cons]
  exact congrArg (matrix.columns + 1 + ·) place

theorem zipIdx_rows : matrix.rows.toList.zipIdx =
    (List.range matrix.size).map fun row => (matrix.rowAt row, row) := by
  apply List.ext_getElem
  · simp [size]
  · intro i hi _
    have inside : i < matrix.rows.size := by simpa using hi
    simp [rowAt, row?, inside]

end IncidenceMatrix

namespace Graph

open IncidenceMatrix

theorem addHeaders_linking (columns : Nat) (count : Nat) : ∃ after,
    (List.range count).foldlM (fun graph _ => addHeader graph) (blank columns).addHead = .ok after ∧
      after.Linking (heads count) ∧ after.notes = (columns, [], none, 0) := by
  induction count with
  | zero => exact ⟨_, rfl, linking_blank columns, rfl⟩
  | succ count ih =>
      obtain ⟨graph, run, linking, notes⟩ := ih
      obtain ⟨after, next, linking, kept⟩ := addHeader_linking linking
      refine ⟨after, ?_, linking, kept.trans notes⟩
      simp only [List.range_succ, List.foldlM_append, run, List.foldlM_cons, List.foldlM_nil, next,
        bind, Except.bind, pure, Except.pure]

theorem addRow_linking {graph : Graph} (forced : List Nat)
    (h : graph.Linking (matrix.layoutBelow row)) (inside : row < matrix.size) :
    ∃ after, addRow forced graph (matrix.rowAt row, row) = .ok after ∧
      after.Linking (matrix.layoutBelow (row + 1)) ∧
      after.notes = (graph.columns, graph.clueNodes ++
        (if forced.contains row && !(matrix.rowAt row).isEmpty then [matrix.firstNode row] else []),
        graph.clash, graph.updates) := by
  have entries := matrix.entriesBelow_succ row
  cases found : matrix.rowAt row with
  | nil =>
      rw [found, List.map_nil, List.append_nil] at entries
      have same : matrix.layoutBelow (row + 1) = matrix.layoutBelow row :=
        Layout.ext rfl entries
      exact ⟨graph, rfl, same ▸ h, by simp [notes]⟩
  | cons first rest =>
      have absent : ∀ column, (row, column) ∉ (matrix.layoutBelow row).entries :=
        fun column member => Nat.lt_irrefl row (mem_entriesBelow.mp member).1
      have below : ∀ j ∈ first :: rest, j < matrix.columns :=
        fun j hj => (get_inside (mem_rowAt.mp (found ▸ hj))).2
      have none : (matrix.layoutBelow row).columnsOf row = [] :=
        List.eq_nil_iff_forall_not_mem.mpr fun column member =>
          absent column (Layout.mem_columnsOf.mp member)
      have inside' : first < (matrix.layoutBelow row).columns := below first List.mem_cons_self
      have one := (addEntry_linking h none (absent first) inside').withClues
        (graph.clueNodes ++ if forced.contains row then [graph.size] else [])
      have found' : ((matrix.layoutBelow row).push row first (absent first) inside').columnsOf row =
          [first] := by
        rw [Layout.columnsOf_push, none, if_pos rfl, List.nil_append]
      have distinct : (first :: rest).Nodup := found ▸ matrix.nodup_rowAt row
      obtain ⟨after, next, run, linking, columns, pushed, notes⟩ := addEntriesAfter_linking one found'
        distinct fun j hj => below j (List.mem_cons_of_mem first hj)
      have start := (one.shows.row_ring found').path.2
      rw [Layout.node_push_self, ← h.shows.horizontal_size] at start
      rw [Layout.node_push_self, ← h.shows.horizontal_size, start] at run
      have same : next = matrix.layoutBelow (row + 1) := by
        refine Layout.ext columns (pushed.trans ?_)
        change (matrix.entriesBelow row ++ [(row, first)]) ++ rest.map (row, ·) = _
        rw [List.append_assoc]
        exact (found ▸ entries).symm
      have clue : matrix.firstNode row = graph.size :=
        (firstNode_eq inside found).trans h.shows.horizontal_size.symm
      refine ⟨after, ?_, same ▸ linking, ?_⟩
      · simp only [addRow, addEntry_eq h inside', bind, Except.bind]
        rw [← run]
        congr 1
        cases forced.contains row <;> simp [withEntry]
      · rw [notes, clue]
        cases forced.contains row <;> rfl

/-- Every row up to a number, with the forced ones among them noted. -/
theorem addRows_linking (forced : List Nat) {graph : Graph} (h : graph.Linking (heads matrix.columns))
    (notes : graph.notes = (matrix.columns, [], none, 0)) {count : Nat} (inside : count ≤ matrix.size) :
    ∃ after, ((List.range count).map fun row => (matrix.rowAt row, row)).foldlM (addRow forced)
        graph = .ok after ∧ after.Linking (matrix.layoutBelow count) ∧
      after.notes = (matrix.columns, (((List.range count).filter fun row =>
        forced.contains row && !(matrix.rowAt row).isEmpty).map matrix.firstNode), none, 0) := by
  induction count with
  | zero => exact ⟨graph, rfl, h, notes⟩
  | succ count ih =>
      obtain ⟨middle, run, linking, noted⟩ := ih (Nat.le_of_succ_le inside)
      obtain ⟨after, next, linking, kept⟩ := addRow_linking forced linking inside
      simp only [Graph.notes, Prod.mk.injEq] at noted
      refine ⟨after, ?_, linking, ?_⟩
      · simp only [List.range_succ, List.map_append, List.map_singleton, List.foldlM_append, run,
          List.foldlM_cons, List.foldlM_nil, next, bind, Except.bind, pure, Except.pure]
      · rw [kept, noted.1, noted.2.1, noted.2.2.1, noted.2.2.2, List.range_succ, List.filter_append,
          List.map_append, List.filter_singleton]
        cases forced.contains count && !(matrix.rowAt count).isEmpty <;> rfl

/-- Linking a matrix never fails. It gives the graph of the matrix with no column covered and the
    forced rows noted. -/
theorem link_represents (matrix : IncidenceMatrix) (forced : List Nat) : ∃ graph,
    link matrix forced = .ok graph ∧ graph.Represents matrix [] ∧
      graph.clueNodes = (matrix.forcedRows forced).map matrix.firstNode ∧ graph.clash = none ∧
      graph.updates = 0 := by
  obtain ⟨start, run, linking, notes⟩ := addHeaders_linking matrix.columns matrix.columns
  obtain ⟨graph, rows, linking, noted⟩ := addRows_linking forced linking notes (Nat.le_refl _)
  simp only [Graph.notes, Prod.mk.injEq] at noted
  refine ⟨graph, ?_, ⟨?_, noted.1⟩, noted.2.1, noted.2.2.1, noted.2.2.2⟩
  · simp only [link, run, zipIdx_rows, rows, bind, Except.bind]
  · have live : matrix.liveColumns [] = List.range matrix.columns := by simp [liveColumns]
    have under : matrix.rowsUnder [] = matrix.layout.rowsOf := by
      funext column
      simp [rowsUnder, layout, rowsOf_layoutBelow]
    rw [live, under]
    exact linking.shows

end Graph

end ExactCover
