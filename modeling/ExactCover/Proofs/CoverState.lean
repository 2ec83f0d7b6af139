import ExactCover.Proofs.Covering

/-! # The graph of a matrix after covers

The columns covered so far, the oldest first, determine everything that a graph shows of its
matrix. A column that is live has under its header the rows that set it and no covered column; a
covered column keeps the rows that it had when it was covered.
-/

namespace ExactCover

namespace IncidenceMatrix

variable {matrix : IncidenceMatrix} {covered : List Nat} {row column : Nat}

/-- The columns that are not covered, in ascending order. -/
def liveColumns (matrix : IncidenceMatrix) (covered : List Nat) : List Nat :=
  (List.range matrix.columns).filter (· ∉ covered)

/-- The rows under the header of a column: those that set it and no column covered before it. -/
def rowsUnder (matrix : IncidenceMatrix) (covered : List Nat) (column : Nat) : List Nat :=
  (List.range matrix.size).filter fun row =>
    matrix.get row column && (covered.takeWhile (· ≠ column)).all (!matrix.get row ·)

/-- The other columns of a row, in the order in which they are met from one of its columns. -/
def mates (matrix : IncidenceMatrix) (row column : Nat) : List Nat :=
  ((matrix.rowAt row).dropWhile (· ≠ column)).tail ++ (matrix.rowAt row).takeWhile (· ≠ column)

/-- The updates that covering a column makes. -/
def coverCost (matrix : IncidenceMatrix) (covered : List Nat) (column : Nat) : Nat :=
  ((matrix.rowsUnder covered column).map fun row => (matrix.rowAt row).length - 1).sum

/-- The updates that covering several columns makes. -/
def coverCosts (matrix : IncidenceMatrix) : List Nat → List Nat → Nat
  | _, [] => 0
  | covered, column :: rest =>
      matrix.coverCost covered column + matrix.coverCosts (covered ++ [column]) rest

theorem mem_liveColumns :
    column ∈ matrix.liveColumns covered ↔ column < matrix.columns ∧ column ∉ covered := by
  simp [liveColumns]

theorem mem_rowsUnder : row ∈ matrix.rowsUnder covered column ↔
    matrix.get row column = true ∧
      ∀ j ∈ covered.takeWhile (· ≠ column), matrix.get row j = false := by
  simp only [rowsUnder, List.mem_filter, List.mem_range, Bool.and_eq_true, List.all_eq_true,
    Bool.not_eq_true']
  exact ⟨And.right, fun h => ⟨(get_inside h.1).1, h⟩⟩

theorem all_ne {numbers : List Nat} (h : column ∉ numbers) :
    ∀ j ∈ numbers, decide (j ≠ column) = true := by
  intro j hj
  exact decide_eq_true fun same => h (same ▸ hj)

theorem takeWhile_of_notMem (h : column ∉ covered) : covered.takeWhile (· ≠ column) = covered :=
  List.takeWhile_eq_self_iff.mpr (all_ne h)

theorem takeWhile_split {left : List Nat} (absent : column ∉ left) (right : List Nat) :
    (left ++ column :: right).takeWhile (· ≠ column) = left := by
  rw [List.takeWhile_append_of_pos (all_ne absent)]
  simp

theorem takeWhile_append_of_mem (h : column ∈ covered) (more : List Nat) :
    (covered ++ more).takeWhile (· ≠ column) = covered.takeWhile (· ≠ column) := by
  obtain ⟨left, right, rfl, absent⟩ := List.eq_append_cons_of_mem h
  rw [List.append_assoc, List.cons_append, takeWhile_split absent, takeWhile_split absent]

theorem rowsUnder_of_live (alive : column ∉ covered) : matrix.rowsUnder covered column =
    (List.range matrix.size).filter fun row =>
      matrix.get row column && covered.all (!matrix.get row ·) := by
  simp only [rowsUnder, takeWhile_of_notMem alive]

theorem mem_rowsUnder_of_live (alive : column ∉ covered) :
    row ∈ matrix.rowsUnder covered column ↔
      matrix.get row column = true ∧ ∀ j ∈ covered, matrix.get row j = false := by
  rw [mem_rowsUnder, takeWhile_of_notMem alive]

theorem liveColumns_congr {more : List Nat} (same : covered.Perm more) :
    matrix.liveColumns covered = matrix.liveColumns more := by
  simp only [liveColumns, same.mem_iff]

theorem liveColumns_append (column : Nat) : matrix.liveColumns (covered ++ [column]) =
    (matrix.liveColumns covered).filter (· ≠ column) := by
  simp only [liveColumns, List.filter_filter]
  refine List.filter_congr fun j _ => ?_
  simp [and_comm]

/-- Columns that are live stay so when another one is covered. -/
theorem subset_liveColumns_append {columns : List Nat}
    (alive : column :: columns ⊆ matrix.liveColumns covered) (absent : column ∉ columns) :
    columns ⊆ matrix.liveColumns (covered ++ [column]) := by
  intro j member
  have differs : j ≠ column := fun same => absent (same ▸ member)
  rw [liveColumns_append]
  exact List.mem_filter.mpr ⟨alive (List.mem_cons_of_mem column member), decide_eq_true differs⟩

theorem rowsUnder_append (alive : column ∉ covered) : matrix.rowsUnder (covered ++ [column]) =
    Graph.hideRows (matrix.rowsUnder covered) column (matrix.rowsUnder covered column) := by
  funext j
  simp only [Graph.hideRows]
  split
  · subst j
    simp only [rowsUnder, takeWhile_split alive, takeWhile_of_notMem alive]
  · rename_i differs
    by_cases done : j ∈ covered
    · -- A row under the new column sets no covered column, so a covered one does not lose it.
      have kept : matrix.rowsUnder (covered ++ [column]) j = matrix.rowsUnder covered j := by
        simp only [rowsUnder, takeWhile_append_of_mem done]
      rw [kept]
      refine (List.filter_eq_self.mpr fun i hi => ?_).symm
      have sets := (mem_rowsUnder.mp hi).1
      refine decide_eq_true fun other => ?_
      have clear := ((mem_rowsUnder_of_live alive).mp other).2 j done
      exact Bool.noConfusion (sets.symm.trans clear)
    · have apart : j ∉ covered ++ [column] := by simp [done, differs]
      rw [rowsUnder_of_live apart, rowsUnder_of_live done, List.filter_filter]
      refine List.filter_congr fun i _ => ?_
      have under : i ∈ matrix.rowsUnder covered column ↔ _ := mem_rowsUnder_of_live alive
      cases sets : matrix.get i column with
      | true => cases clear : covered.all (!matrix.get i ·) <;> simp_all
      | false => simp [under, sets]

theorem whole_rowsUnder (alive : column ∉ covered) : Graph.Whole matrix.layout
    (matrix.rowsUnder covered) column (matrix.rowsUnder covered column) := by
  intro row member j sets _
  rw [columnsOf_layout, mem_rowAt] at sets
  obtain ⟨_, clear⟩ := (mem_rowsUnder_of_live alive).mp member
  exact mem_rowsUnder.mpr ⟨sets, fun i hi => clear i (List.takeWhile_subset _ hi)⟩

theorem mates_of_split {left right : List Nat}
    (split : matrix.rowAt row = left ++ column :: right) :
    matrix.mates row column = right ++ left := by
  have distinct := List.nodup_middle.mp (split ▸ matrix.nodup_rowAt row)
  have absent : column ∉ left := fun member =>
    (List.nodup_cons.mp distinct).1 (List.mem_append_left right member)
  have rest : (left ++ column :: right).dropWhile (· ≠ column) = column :: right := by
    rw [List.dropWhile_append_of_pos (all_ne absent)]
    simp
  rw [mates, split, takeWhile_split absent, rest, List.tail_cons]

theorem perm_mates (sets : matrix.get row column = true) :
    (column :: matrix.mates row column).Perm (matrix.rowAt row) := by
  obtain ⟨left, right, split⟩ := List.append_of_mem (mem_rowAt.mpr sets)
  rw [mates_of_split split, split]
  exact (List.perm_append_comm.cons column).trans List.perm_middle.symm

theorem nodup_mates (sets : matrix.get row column = true) : (matrix.mates row column).Nodup :=
  (List.nodup_cons.mp ((perm_mates sets).nodup_iff.mpr (matrix.nodup_rowAt row))).2

theorem mem_mates (sets : matrix.get row column = true) {j : Nat} :
    j ∈ matrix.mates row column ↔ matrix.get row j = true ∧ j ≠ column := by
  have distinct := (perm_mates sets).nodup_iff.mpr (matrix.nodup_rowAt row)
  have member := (perm_mates sets).mem_iff (a := j)
  rw [mem_rowAt, List.mem_cons] at member
  have absent : j ∈ matrix.mates row column → j ≠ column :=
    fun hj same => (List.nodup_cons.mp distinct).1 (same ▸ hj)
  tauto

end IncidenceMatrix

namespace Graph

/-- The graph is what covering these columns, the first one first, makes of the matrix. -/
structure Represents (graph : Graph) (matrix : IncidenceMatrix) (covered : List Nat) : Prop where
  shows : graph.Shows matrix.layout (matrix.liveColumns covered) (matrix.rowsUnder covered)
  columns : graph.columns = matrix.columns

namespace Represents

variable {graph : Graph} {matrix : IncidenceMatrix} {covered : List Nat} {row column : Nat}

theorem withUpdates (h : graph.Represents matrix covered) (n : Nat) :
    (graph.withUpdates n).Represents matrix covered :=
  ⟨h.shows.withUpdates n, h.columns⟩

theorem cover_undoable (h : graph.Represents matrix covered)
    (alive : column ∈ matrix.liveColumns covered) :
    ∃ after, Reversible (cover · (header column)) (uncover · (header column))
        (matrix.coverCost covered column) graph after ∧
      Undoable (Covers (header column)) (Uncovers (header column)) (matrix.coverCost covered column)
        graph after ∧
      after.Represents matrix (covered ++ [column]) := by
  have fresh := (IncidenceMatrix.mem_liveColumns.mp alive).2
  obtain ⟨after, turned, linked, shows⟩ :=
    Graph.cover_reversible h.shows alive (IncidenceMatrix.whole_rowsUnder fresh)
  rw [← IncidenceMatrix.liveColumns_append, ← IncidenceMatrix.rowsUnder_append fresh] at shows
  simp only [IncidenceMatrix.columnsOf_layout] at turned linked
  exact ⟨after, turned, linked, shows, (congrArg (·.2.2.1) turned.labels).trans h.columns⟩

theorem cover_reversible (h : graph.Represents matrix covered)
    (alive : column ∈ matrix.liveColumns covered) :
    ∃ after, Reversible (cover · (header column)) (uncover · (header column))
      (matrix.coverCost covered column) graph after ∧
      after.Represents matrix (covered ++ [column]) := by
  obtain ⟨after, turned, _, represents⟩ := h.cover_undoable alive
  exact ⟨after, turned, represents⟩

/-- Covering several live columns, and undoing it from the last one on. -/
theorem coverAll_reversible (h : graph.Represents matrix covered) {columns : List Nat}
    (alive : columns ⊆ matrix.liveColumns covered) (distinct : columns.Nodup) :
    ∃ after, Reversible (coverAll · (columns.map header)) (uncoverAll · (columns.map header).reverse)
        (matrix.coverCosts covered columns) graph after ∧
      (∀ n, CoversAll (columns.map header) (graph.withUpdates n)
        (after.withUpdates (n + matrix.coverCosts covered columns))) ∧
      after.Represents matrix (covered ++ columns) := by
  induction columns generalizing graph covered with
  | nil => exact ⟨graph, .nothing graph, fun _ => .nil _, by simpa using h⟩
  | cons column columns ih =>
      obtain ⟨absent, distinct⟩ := List.nodup_cons.mp distinct
      obtain ⟨middle, one, linked, represents⟩ := h.cover_undoable (alive List.mem_cons_self)
      obtain ⟨after, more, others, represents'⟩ :=
        ih represents (IncidenceMatrix.subset_liveColumns_append alive absent) distinct
      rw [List.append_assoc] at represents'
      refine ⟨after, one.cons more, fun n => .cons (linked.forward n) ?_, represents'⟩
      rw [IncidenceMatrix.coverCosts, ← Nat.add_assoc]
      exact others _

theorem headerOf_node (h : graph.Represents matrix covered) (sets : matrix.get row column = true) :
    graph.headerOf (matrix.layout.node row column) = .ok (header column) := by
  simp only [headerOf, h.shows.headers (IncidenceMatrix.mem_entries.mpr sets)]

theorem mapM_headerOf (h : graph.Represents matrix covered) {columns : List Nat}
    (sets : ∀ j ∈ columns, matrix.get row j = true) :
    (columns.map (matrix.layout.node row)).mapM graph.headerOf = .ok (columns.map header) := by
  induction columns with
  | nil => rfl
  | cons column columns ih =>
      have own := h.headerOf_node (sets column List.mem_cons_self)
      have rest := ih fun j hj => sets j (List.mem_cons_of_mem column hj)
      simp only [List.map_cons, List.mapM_cons, own, rest, bind, Except.bind, pure, Except.pure]

/-- The ring of a row, from a node of it on. -/
theorem mates_ring (h : graph.Represents matrix covered) (sets : matrix.get row column = true) :
    graph.horizontal.IsRing (matrix.layout.node row column)
      ((matrix.mates row column).map (matrix.layout.node row)) := by
  obtain ⟨left, right, split⟩ := List.append_of_mem (IncidenceMatrix.mem_rowAt.mpr sets)
  rw [IncidenceMatrix.mates_of_split split]
  exact h.shows.row_ring_from ((IncidenceMatrix.columnsOf_layout row).trans split)

theorem rowMates_eq (h : graph.Represents matrix covered)
    (sets : matrix.get row column = true) :
    graph.rowMates (matrix.layout.node row column) =
        .ok ((matrix.mates row column).map (matrix.layout.node row)) ∧
      graph.rowMatesBack (matrix.layout.node row column) =
        .ok ((matrix.mates row column).map (matrix.layout.node row)).reverse :=
  ⟨(h.mates_ring sets).ring_eq, (h.mates_ring sets).backward.ring_eq⟩

theorem otherHeaders_eq (h : graph.Represents matrix covered)
    (sets : matrix.get row column = true) :
    graph.otherHeaders (matrix.layout.node row column) =
      .ok ((matrix.mates row column).map header) := by
  have members := fun j hj => ((IncidenceMatrix.mem_mates sets (j := j)).mp hj).1
  simp only [otherHeaders, (h.rowMates_eq sets).1, bind, Except.bind, h.mapM_headerOf members]

theorem otherHeadersBack_eq (h : graph.Represents matrix covered)
    (sets : matrix.get row column = true) :
    graph.otherHeadersBack (matrix.layout.node row column) =
      .ok ((matrix.mates row column).map header).reverse := by
  have members : ∀ j ∈ (matrix.mates row column).reverse, matrix.get row j = true :=
    fun j hj => ((IncidenceMatrix.mem_mates sets).mp (List.mem_reverse.mp hj)).1
  simp only [otherHeadersBack, (h.rowMates_eq sets).2, ← List.map_reverse, bind, Except.bind,
    h.mapM_headerOf members]

/-- Covering the columns of the nodes that follow in the ring of a row. -/
theorem coverMates_reversible (h : graph.Represents matrix covered)
    (sets : matrix.get row column = true) {done columns : List Nat}
    (ring : matrix.mates row column = done ++ columns)
    (alive : columns ⊆ matrix.liveColumns covered) :
    ∃ after, Reversible (coverAll · (columns.map header)) (uncoverAll · (columns.map header).reverse)
        (matrix.coverCosts covered columns) graph after ∧
      Rounds horizontal CoversColumn UncoversColumn (matrix.layout.node row column)
        (done.map (matrix.layout.node row)) (columns.map (matrix.layout.node row))
        (matrix.coverCosts covered columns) graph after ∧
      after.Represents matrix (covered ++ columns) := by
  induction columns generalizing graph covered done with
  | nil => exact ⟨graph, .nothing graph, .nil _ graph, by simpa using h⟩
  | cons next columns ih =>
      have absent : next ∉ columns := (List.nodup_cons.mp (List.nodup_append.mp
        (ring ▸ IncidenceMatrix.nodup_mates sets)).2.1).1
      have also : matrix.get row next = true :=
        ((IncidenceMatrix.mem_mates sets).mp (by simp [ring])).1
      obtain ⟨middle, one, linked, represents⟩ := h.cover_undoable (alive List.mem_cons_self)
      have further : matrix.mates row column = (done ++ [next]) ++ columns := by simpa using ring
      obtain ⟨after, more, rounds, represents'⟩ :=
        ih represents further (IncidenceMatrix.subset_liveColumns_append alive absent)
      have turned : Undoable (CoversColumn (matrix.layout.node row next))
          (UncoversColumn (matrix.layout.node row next)) (matrix.coverCost covered next) graph
          middle :=
        ⟨fun n => ⟨_, (h.withUpdates n).headerOf_node also, linked.forward n⟩,
          fun n => ⟨_, (represents.withUpdates n).headerOf_node also, linked.back n⟩⟩
      have rounds := rounds.cons turned (fun _ _ => rfl) (ring ▸ h.mates_ring sets)
        (ring ▸ represents.mates_ring sets)
      rw [List.append_assoc] at represents'
      exact ⟨after, one.cons more, rounds, represents'⟩

/-- Covering the other columns of a row, and undoing it. -/
theorem coverRow_undoable (h : graph.Represents matrix covered)
    (sets : matrix.get row column = true)
    (alive : matrix.mates row column ⊆ matrix.liveColumns covered) :
    ∃ after, Reversible (coverRow · (matrix.layout.node row column))
        (uncoverRow · (matrix.layout.node row column))
        (matrix.coverCosts covered (matrix.mates row column)) graph after ∧
      Undoable (CoversRow (matrix.layout.node row column))
        (UncoversRow (matrix.layout.node row column))
        (matrix.coverCosts covered (matrix.mates row column)) graph after ∧
      after.Represents matrix (covered ++ matrix.mates row column) := by
  obtain ⟨after, turned, rounds, represents⟩ :=
    h.coverMates_reversible sets (List.nil_append _).symm alive
  refine ⟨after, turned.congr (fun n => ?_) fun n => ?_, rounds.around (fun _ _ => rfl)
    (h.mates_ring sets) (represents.mates_ring sets), represents⟩
  · simp only [coverRow, (h.withUpdates n).otherHeaders_eq sets, bind, Except.bind]
  · simp only [uncoverRow, (represents.withUpdates n).otherHeadersBack_eq sets, bind, Except.bind]

theorem coverRow_reversible (h : graph.Represents matrix covered)
    (sets : matrix.get row column = true)
    (alive : matrix.mates row column ⊆ matrix.liveColumns covered) :
    ∃ after, Reversible (coverRow · (matrix.layout.node row column))
      (uncoverRow · (matrix.layout.node row column))
      (matrix.coverCosts covered (matrix.mates row column)) graph after ∧
      after.Represents matrix (covered ++ matrix.mates row column) := by
  obtain ⟨after, turned, _, represents⟩ := h.coverRow_undoable sets alive
  exact ⟨after, turned, represents⟩

end Represents

end Graph

end ExactCover
