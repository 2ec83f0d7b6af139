import ExactCover.Proofs.Linking

/-! # Committing forced rows

The forced rows that count are committed in ascending order, up to the first one that shares a
column with an earlier one. Without such a clash the graph of a matrix is the one with the columns
of all forced rows covered.
-/

namespace ExactCover

namespace IncidenceMatrix

variable {matrix : IncidenceMatrix} {rows covered : List Nat} {row : Nat}

/-- No two of the rows set a column in common. -/
def Compatible (matrix : IncidenceMatrix) (rows : List Nat) : Prop :=
  rows.Pairwise fun a b => ∀ column ∈ matrix.rowAt a, column ∉ matrix.rowAt b

instance (matrix : IncidenceMatrix) (rows : List Nat) : Decidable (matrix.Compatible rows) :=
  inferInstanceAs (Decidable (rows.Pairwise _))

/-- The columns covered by committing rows in turn, and the row that stops it, if any. -/
def commitRows (matrix : IncidenceMatrix) : List Nat → List Nat → List Nat × Option Nat
  | [], covered => (covered, none)
  | row :: rest, covered =>
      if (matrix.rowAt row).any covered.contains then (covered, some row)
      else matrix.commitRows rest (covered ++ matrix.rowAt row)

theorem commitRows_eq_none_iff : (matrix.commitRows rows covered).2 = none ↔
    matrix.Compatible rows ∧ ∀ row ∈ rows, ∀ column ∈ matrix.rowAt row, column ∉ covered := by
  induction rows generalizing covered with
  | nil => simp [commitRows, Compatible]
  | cons row rows ih =>
      simp only [commitRows, Compatible, List.pairwise_cons, List.mem_cons, forall_eq_or_imp]
      split
      · rename_i clash
        simp only [List.any_eq_true, List.contains_iff_mem] at clash
        obtain ⟨column, member, met⟩ := clash
        simp only [reduceCtorEq, false_iff]
        exact fun h => h.2.1 column member met
      · rename_i clear
        simp only [List.any_eq_true, List.contains_iff_mem, not_exists, not_and] at clear
        rw [ih]
        simp only [Compatible, List.mem_append, not_or]
        constructor
        · rintro ⟨compatible, apart⟩
          exact ⟨⟨fun b hb column here later => (apart b hb column later).2 here, compatible⟩,
            clear, fun b hb column later => (apart b hb column later).1⟩
        · rintro ⟨⟨first, compatible⟩, _, apart⟩
          exact ⟨compatible, fun b hb column later =>
            ⟨apart b hb column later, fun here => first b hb column here later⟩⟩

/-- Committing rows is not stopped by a clash when no two of them share a column. -/
theorem commitRows_nil_iff : (matrix.commitRows rows []).2 = none ↔ matrix.Compatible rows := by
  simp [commitRows_eq_none_iff]

theorem commitRows_fst (h : (matrix.commitRows rows covered).2 = none) :
    (matrix.commitRows rows covered).1 = covered ++ rows.flatMap matrix.rowAt := by
  induction rows generalizing covered with
  | nil => simp [commitRows]
  | cons row rows ih =>
      simp only [commitRows] at h ⊢
      split at h
      · simp at h
      · rename_i clear
        rw [if_neg clear, ih h, List.flatMap_cons, List.append_assoc]

theorem mem_forcedRows {forced : List Nat} : row ∈ matrix.forcedRows forced ↔
    row ∈ forced ∧ matrix.rowAt row ≠ [] := by
  simp only [forcedRows, List.mem_filter, List.mem_range, Bool.and_eq_true, List.contains_iff_mem,
    Bool.not_eq_true', List.isEmpty_eq_false_iff]
  refine ⟨And.right, fun h => ⟨?_, h⟩⟩
  obtain ⟨column, member⟩ := List.exists_mem_of_ne_nil _ h.2
  exact (get_inside (mem_rowAt.mp member)).1

end IncidenceMatrix

namespace Graph

open IncidenceMatrix RingTable

variable {matrix : IncidenceMatrix} {graph : Graph} {covered rows : List Nat} {row : Nat}

theorem Reversible.run {act undo : Graph → Except Fault Graph} {cost : Nat} {before after : Graph}
    (h : Reversible act undo cost before after) :
    act before = .ok (after.withUpdates (before.updates + cost)) :=
  h.forward before.updates

namespace Represents

theorem withClash (h : graph.Represents matrix covered) (clash : Option Nat) :
    { graph with clash := clash }.Represents matrix covered :=
  ⟨⟨h.shows.horizontal_size, h.shows.vertical_size, h.shows.headers, h.shows.rowNumbers,
    h.shows.live_inside, h.shows.rows_inside, h.shows.root_ring, h.shows.row_ring,
    h.shows.column_ring, h.shows.counts⟩, h.columns⟩

theorem isLive_header {column : Nat} (h : graph.Represents matrix covered)
    (alive : column ∈ matrix.liveColumns covered) : graph.isLive (header column) = true := by
  have member : header column ∈ root :: (matrix.liveColumns covered).map header :=
    List.mem_cons_of_mem root (List.mem_map.mpr ⟨column, alive, rfl⟩)
  have linked := (h.shows.root_ring.held member).next_previous
  have inside : header column ≤ matrix.columns := (mem_liveColumns.mp alive).1
  simp only [isLive, isLinked, h.columns, linked, Bool.and_eq_true, decide_eq_true_eq, beq_self_eq_true,
    and_true]
  exact ⟨Nat.succ_pos column, inside⟩

theorem commit_eq (h : graph.Represents matrix covered) {columns : List Nat}
    (alive : columns ⊆ matrix.liveColumns covered) :
    graph.commit (columns.map header) = graph.coverAll (columns.map header) := by
  have all : (columns.map header).find? (!graph.isLive ·) = none := by
    refine List.find?_eq_none.mpr fun x hx => ?_
    obtain ⟨column, member, rfl⟩ := List.mem_map.mp hx
    simp [h.isLive_header (alive member)]
  simp only [commit, all]

theorem rowNumbers_firstNode (h : graph.Represents matrix covered)
    (proper : matrix.rowAt row ≠ []) :
    graph.rowNumbers[matrix.firstNode row]? = some (some row) := by
  obtain ⟨first, rest, found⟩ := List.exists_cons_of_ne_nil proper
  have sets := mem_rowAt.mp (found ▸ List.mem_cons_self : first ∈ matrix.rowAt row)
  rw [firstNode, found, List.headD_cons]
  exact h.shows.rowNumbers (mem_entries.mpr sets)

theorem rowOf_firstNode (h : graph.Represents matrix covered) (proper : matrix.rowAt row ≠ []) :
    graph.rowOf (matrix.firstNode row) = .ok (some row) := by
  simp only [rowOf, h.rowNumbers_firstNode proper]

theorem clueRows_eq (h : graph.Represents matrix covered)
    (clues : graph.clueNodes = rows.map matrix.firstNode)
    (proper : ∀ row ∈ rows, matrix.rowAt row ≠ []) : graph.clueRows = rows := by
  rw [clueRows, clues, List.filterMap_map]
  refine (List.filterMap_congr fun row member => ?_).trans List.filterMap_some
  simp only [Function.comp_apply, h.rowNumbers_firstNode (proper row member), Option.join_some]

theorem rowHeaders_firstNode (h : graph.Represents matrix covered)
    (proper : matrix.rowAt row ≠ []) :
    graph.rowHeaders (matrix.firstNode row) = .ok ((matrix.rowAt row).map header) := by
  obtain ⟨first, rest, found⟩ := List.exists_cons_of_ne_nil proper
  have sets : ∀ j ∈ first :: rest, matrix.get row j = true :=
    fun j hj => mem_rowAt.mp (found ▸ hj)
  have others : matrix.mates row first = rest :=
    (mates_of_split (found.trans (List.nil_append _).symm)).trans (List.append_nil rest)
  have mates := (h.rowMates_eq (sets first List.mem_cons_self)).1
  have headers := h.mapM_headerOf sets
  rw [others] at mates
  simp only [rowHeaders, firstNode, found, List.headD_cons, mates, bind, Except.bind]
  exact headers

end Represents

/-- Committing the forced rows covers the columns of those before the first clash, and nothing
    else changes but the note of the clash. -/
theorem commitClues_eq (h : graph.Represents matrix covered) (clear : graph.clash = none)
    {headers : List Node} (same : ∀ column, header column ∈ headers ↔ column ∈ covered)
    (proper : ∀ row ∈ rows, matrix.rowAt row ≠ []) :
    ∃ after added, graph.coverAll (added.map header) = .ok after ∧
      (matrix.commitRows rows covered).1 = covered ++ added ∧
      after.Represents matrix (covered ++ added) ∧ after.labels = graph.labels ∧
      commitClues (rows.map matrix.firstNode) headers graph =
        .ok { after with clash := (matrix.commitRows rows covered).2 } ∧
      CommitsClues (rows.map matrix.firstNode) headers graph
        { after with clash := (matrix.commitRows rows covered).2 } := by
  induction rows generalizing graph covered headers with
  | nil =>
      refine ⟨graph, [], rfl, (List.append_nil _).symm, (List.append_nil covered).symm ▸ h, rfl, ?_⟩
      have still : { graph with clash := (matrix.commitRows [] covered).2 } = graph := by
        rw [IncidenceMatrix.commitRows, ← clear]
      rw [still]
      exact ⟨rfl, .nil headers graph⟩
  | cons row rows ih =>
      have sets := proper row List.mem_cons_self
      have met : ((matrix.rowAt row).map header).any headers.contains =
          (matrix.rowAt row).any covered.contains := by
        rw [List.any_map, Bool.eq_iff_iff, List.any_eq_true, List.any_eq_true]
        simp [same]
      have inside : ∀ x ∈ (matrix.rowAt row).map header,
          x ≠ root ∧ columnOfHeader x < graph.columns := by
        intro x listed
        obtain ⟨column, member, rfl⟩ := List.mem_map.mp listed
        exact ⟨Nat.succ_ne_zero column, h.columns ▸ (get_inside (mem_rowAt.mp member)).2⟩
      by_cases clash : (matrix.rowAt row).any covered.contains = true
      · refine ⟨graph, [], rfl, ?_, (List.append_nil covered).symm ▸ h, rfl, ?_, ?_⟩
        · rw [IncidenceMatrix.commitRows, if_pos clash, List.append_nil]
        · simp only [List.map_cons, commitClues, h.rowHeaders_firstNode sets, met, clash, if_true,
            h.rowOf_firstNode sets, IncidenceMatrix.commitRows, bind, Except.bind, pure, Except.pure,
            Option.getD_some]
        · rw [IncidenceMatrix.commitRows, if_pos clash, List.map_cons]
          refine .clash (h.rowHeaders_firstNode sets) inside ?_ (h.rowOf_firstNode sets)
          simpa [same] using clash
      · have apart : ∀ column ∈ matrix.rowAt row, column ∉ covered := by
          intro column member known
          exact clash (List.any_eq_true.mpr ⟨column, member, List.contains_iff_mem.mpr known⟩)
        have alive : matrix.rowAt row ⊆ matrix.liveColumns covered := fun column member =>
          mem_liveColumns.mpr ⟨(get_inside (mem_rowAt.mp member)).2, apart column member⟩
        obtain ⟨middle, turned, covers, represents⟩ :=
          h.coverAll_reversible alive (matrix.nodup_rowAt row)
        have same' : ∀ column, header column ∈ (matrix.rowAt row).map header ++ headers ↔
            column ∈ covered ++ matrix.rowAt row := by
          intro column
          have one : header column ∈ (matrix.rowAt row).map header ↔ column ∈ matrix.rowAt row :=
            List.mem_map_of_injective Nat.succ_injective
          rw [List.mem_append, List.mem_append, one, same, or_comm]
        obtain ⟨after, added, run, columns, represents, labels, commits, linked⟩ :=
          ih (represents.withUpdates (graph.updates + _))
            ((congrArg (·.2.2.2.2) turned.labels).trans clear) same'
            fun r hr => proper r (List.mem_cons_of_mem row hr)
        refine ⟨after, matrix.rowAt row ++ added, ?_, ?_, ?_, labels.trans turned.labels, ?_, ?_⟩
        · rw [List.map_append, coverAll, List.foldlM_append]
          exact (congrArg (· >>= _) turned.run).trans run
        · rw [IncidenceMatrix.commitRows, if_neg clash, columns, List.append_assoc]
        · rwa [List.append_assoc] at represents
        · simp only [List.map_cons, commitClues, h.rowHeaders_firstNode sets, met, clash, if_false,
            h.commit_eq alive, turned.run, IncidenceMatrix.commitRows, bind, Except.bind,
            Bool.false_eq_true]
          exact commits
        · rw [IncidenceMatrix.commitRows, if_neg clash, List.map_cons]
          refine .commit (h.rowHeaders_firstNode sets) inside ?_ (covers graph.updates) linked
          intro x listed
          obtain ⟨column, member, rfl⟩ := List.mem_map.mp listed
          exact fun known => apart column member ((same column).mp known)

/-- The graph of a matrix always comes about. Its clues are the forced rows that count, it is
    consistent exactly when these are compatible, and their columns are then covered. -/
theorem ofMatrix_represents (matrix : IncidenceMatrix) (forced : List Nat) : ∃ graph,
    ofMatrix matrix forced = .ok graph ∧
      graph.Represents matrix (matrix.commitRows (matrix.forcedRows forced) []).1 ∧
      graph.clueRows = matrix.forcedRows forced ∧
      graph.clash = (matrix.commitRows (matrix.forcedRows forced) []).2 := by
  obtain ⟨start, linked, represents, clues, clash, _⟩ := link_represents matrix forced
  have proper : ∀ row ∈ matrix.forcedRows forced, matrix.rowAt row ≠ [] :=
    fun row member => (mem_forcedRows.mp member).2
  obtain ⟨after, added, _, columns, represents, labels, run, _⟩ :=
    commitClues_eq represents clash
      (by simp : ∀ column, header column ∈ ([] : List Node) ↔ column ∈ ([] : List Nat)) proper
  refine ⟨_, ?_, columns ▸ represents.withClash _, ?_, rfl⟩
  · simp only [ofMatrix, linked, clues, bind, Except.bind]
    exact run
  · have kept : after.clueNodes = (matrix.forcedRows forced).map matrix.firstNode :=
      (congrArg (·.2.2.2.1) labels).trans clues
    exact represents.clueRows_eq kept proper

end Graph

end ExactCover
