import ExactCover.Proofs.CommittedRows

/-! # A graph after any history of covers

The columns of a graph may be covered and uncovered in any order as long as the covers nest: a
column is live when it is covered, and what is undone are the newest covers. The columns whose
covers are then outstanding, the oldest first, say everything that the graph shows, those covered
for forced rows among them.
-/

namespace ExactCover

namespace IncidenceMatrix

variable {matrix : IncidenceMatrix} {covered rows : List Nat} {column : Nat}

/-- The rows that set a column and none of some other columns, in ascending order. -/
def rowsAvoiding (matrix : IncidenceMatrix) (others : List Nat) (column : Nat) : List Nat :=
  (List.range matrix.size).filter fun row =>
    matrix.get row column && others.all (!matrix.get row ·)

theorem rowsUnder_of_split {earlier later : List Nat} (absent : column ∉ earlier) :
    matrix.rowsUnder (earlier ++ column :: later) column = matrix.rowsAvoiding earlier column := by
  simp only [rowsUnder, takeWhile_split absent, rowsAvoiding]

/-- Committing rows covers live columns, each of them once. -/
theorem commitRows_live (matrix : IncidenceMatrix) (rows covered : List Nat) :
    ∃ added, (matrix.commitRows rows covered).1 = covered ++ added ∧ added.Nodup ∧
      added ⊆ matrix.liveColumns covered := by
  induction rows generalizing covered with
  | nil => exact ⟨[], (List.append_nil covered).symm, List.nodup_nil, List.nil_subset _⟩
  | cons row rows ih =>
      simp only [commitRows]
      split
      · exact ⟨[], (List.append_nil covered).symm, List.nodup_nil, List.nil_subset _⟩
      · rename_i clear
        simp only [List.any_eq_true, List.contains_iff_mem, not_exists, not_and] at clear
        obtain ⟨added, same, distinct, alive⟩ := ih (covered ++ matrix.rowAt row)
        refine ⟨matrix.rowAt row ++ added, by rw [same, List.append_assoc], ?_, ?_⟩
        · refine List.nodup_append.mpr ⟨matrix.nodup_rowAt row, distinct, ?_⟩
          intro j own other member equal
          have fresh := (mem_liveColumns.mp (alive member)).2
          exact fresh (List.mem_append_right covered (equal ▸ own))
        · intro j member
          rcases List.mem_append.mp member with own | member
          · exact mem_liveColumns.mpr ⟨(get_inside (mem_rowAt.mp own)).2, clear j own⟩
          · obtain ⟨inside, fresh⟩ := mem_liveColumns.mp (alive member)
            exact mem_liveColumns.mpr ⟨inside, fun old => fresh (List.mem_append_left _ old)⟩

end IncidenceMatrix

namespace Graph

open IncidenceMatrix RingTable

variable {matrix : IncidenceMatrix} {start graph : Graph} {covered columns : List Nat}
  {row column : Nat}

/-! ### Nested covers -/

def withClash (graph : Graph) (clash : Option Nat) : Graph := { graph with clash := clash }

/-- The graph comes from the starting one, where no column is covered, by covering columns, the
    first one first, so that each cover can be undone once the later ones are. -/
inductive Nested (matrix : IncidenceMatrix) (start : Graph) : List Nat → Graph → Prop where
  | bottom (represents : start.Represents matrix []) : Nested matrix start [] start
  | cover {covered : List Nat} {under graph : Graph} {column : Nat}
      (below : Nested matrix start covered under)
      (alive : column ∈ matrix.liveColumns covered)
      (turned : Reversible (Graph.cover · (header column)) (uncover · (header column))
        (matrix.coverCost covered column) under graph)
      (represents : graph.Represents matrix (covered ++ [column])) :
      Nested matrix start (covered ++ [column]) graph

namespace Nested

theorem represents (h : Nested matrix start covered graph) : graph.Represents matrix covered := by
  cases h with
  | bottom represents => exact represents
  | cover _ _ _ represents => exact represents

theorem nodup (h : Nested matrix start covered graph) : covered.Nodup := by
  induction h with
  | bottom => exact List.nodup_nil
  | cover _ alive _ _ ih =>
      rw [← List.concat_eq_append]
      exact ih.concat (mem_liveColumns.mp alive).2

theorem column_lt (h : Nested matrix start covered graph) (member : column ∈ covered) :
    column < matrix.columns := by
  induction h with
  | bottom => exact absurd member List.not_mem_nil
  | cover _ alive _ _ ih =>
      rcases List.mem_append.mp member with old | new
      · exact ih old
      · exact List.mem_singleton.mp new ▸ (mem_liveColumns.mp alive).1

/-- Below the newest cover is the graph that it was made on. -/
theorem top (h : Nested matrix start (covered ++ [column]) graph) : ∃ under,
    Nested matrix start covered under ∧
      Reversible (Graph.cover · (header column)) (uncover · (header column))
        (matrix.coverCost covered column) under graph := by
  generalize whole : covered ++ [column] = outstanding at h
  cases h with
  | bottom => simp at whole
  | cover below _ turned _ =>
      obtain ⟨rfl, same⟩ := List.append_inj' whole rfl
      obtain rfl := List.singleton_injective same
      exact ⟨_, below, turned⟩

/-- Undoing the newest cover gives back the graph below it. -/
theorem pop (h : Nested matrix start (covered ++ [column]) graph) : ∃ under,
    Nested matrix start covered under ∧
      ∀ n, (graph.withUpdates n).uncover (header column) = .ok (under.withUpdates n) := by
  obtain ⟨under, below, turned⟩ := h.top
  exact ⟨under, below, turned.back⟩

theorem coverAll (h : Nested matrix start covered graph) (alive : columns ⊆ matrix.liveColumns covered)
    (distinct : columns.Nodup) : ∃ after, Nested matrix start (covered ++ columns) after ∧
      ∀ n, (graph.withUpdates n).coverAll (columns.map header) =
        .ok (after.withUpdates (n + matrix.coverCosts covered columns)) := by
  induction columns generalizing covered graph with
  | nil => exact ⟨graph, (List.append_nil covered).symm ▸ h, fun n => rfl⟩
  | cons column columns ih =>
      obtain ⟨absent, distinct⟩ := List.nodup_cons.mp distinct
      have first := alive List.mem_cons_self
      obtain ⟨middle, turned, represents⟩ := h.represents.cover_reversible first
      obtain ⟨after, nested, run⟩ := ih (h.cover first turned represents)
        (subset_liveColumns_append alive absent) distinct
      refine ⟨after, by simpa using nested, fun n => ?_⟩
      rw [List.map_cons, Graph.coverAll, List.foldlM_cons, turned.forward, coverCosts, ← Nat.add_assoc]
      exact run _

theorem uncoverAll (h : Nested matrix start (covered ++ columns) graph) : ∃ under,
    Nested matrix start covered under ∧ ∀ n,
      (graph.withUpdates n).uncoverAll (columns.map header).reverse = .ok (under.withUpdates n) := by
  induction columns using List.reverseRecOn generalizing graph with
  | nil => exact ⟨graph, by simpa using h, fun n => rfl⟩
  | append_singleton columns column ih =>
      rw [← List.append_assoc] at h
      obtain ⟨middle, nested, one⟩ := h.pop
      obtain ⟨under, below, more⟩ := ih nested
      refine ⟨under, below, fun n => ?_⟩
      rw [List.map_append, List.map_singleton, List.reverse_append, List.reverse_singleton,
        List.singleton_append, Graph.uncoverAll, List.foldlM_cons, one]
      exact more n

end Nested

/-- The graph of a matrix comes about by nested covers of the columns committed for forced rows,
    also when these clash. -/
theorem ofMatrix_nested (matrix : IncidenceMatrix) (forced : List Nat) :
    let covered := (matrix.commitRows (matrix.forcedRows forced) []).1
    ∃ start graph, ofMatrix matrix forced = .ok (graph.withUpdates (matrix.coverCosts [] covered)) ∧
      Nested matrix start covered graph := by
  obtain ⟨linked, built, represents, clues, clear, unchanged⟩ := link_represents matrix forced
  have proper : ∀ row ∈ matrix.forcedRows forced, matrix.rowAt row ≠ [] :=
    fun row member => (mem_forcedRows.mp member).2
  obtain ⟨after, added, run, same, _, _, commits, _⟩ := commitClues_eq represents clear
    (by simp : ∀ column, header column ∈ ([] : List Node) ↔ column ∈ ([] : List Nat)) proper
  obtain ⟨added', same', distinct, alive⟩ :=
    matrix.commitRows_live (matrix.forcedRows forced) []
  obtain rfl : added = added' := by simpa using same.symm.trans same'
  -- A clash is noted after the last cover, but the covers are the same when it is noted before.
  generalize clash : (matrix.commitRows (matrix.forcedRows forced) []).2 = noted at commits
  obtain ⟨graph, nested, covers⟩ :=
    (Nested.bottom (represents.withClash noted)).coverAll alive distinct
  have all : (linked.withClash noted).coverAll (added.map header) = .ok (after.withClash noted) :=
    (coverAll_changeNotes id (fun _ => noted) linked _).trans (congrArg _ run)
  have final : after.withClash noted =
      graph.withUpdates (linked.updates + matrix.coverCosts [] added) :=
    Except.ok.inj (all.symm.trans (covers linked.updates))
  rw [unchanged, Nat.zero_add] at final
  refine ⟨linked.withClash noted, graph, ?_, same ▸ nested⟩
  rw [same, List.nil_append, ← final]
  simp only [ofMatrix, built, clues, bind, Except.bind]
  exact commits

/-! ### Histories -/

/-- A call that covers columns or undoes covers. -/
inductive Call where
  | cover (header : Node)
  | uncover (header : Node)
  | coverRow (node : Node)
  | uncoverRow (node : Node)

def call (graph : Graph) : Call → Except Fault Graph
  | .cover header => graph.cover header
  | .uncover header => graph.uncover header
  | .coverRow node => graph.coverRow node
  | .uncoverRow node => graph.uncoverRow node

/-- The graph after calls that are made one after the other. -/
def callAll (graph : Graph) (calls : List Call) : Except Fault Graph :=
  calls.foldlM call graph

/-- What a call that is in order does to the columns whose covers are outstanding, the oldest
    first. Columns that are covered are live, and covers that are undone are the newest. -/
inductive InOrder (matrix : IncidenceMatrix) : List Nat → Call → List Nat → Prop where
  | cover {covered : List Nat} {column : Nat} (alive : column ∈ matrix.liveColumns covered) :
      InOrder matrix covered (.cover (header column)) (covered ++ [column])
  | uncover {covered : List Nat} {column : Nat} :
      InOrder matrix (covered ++ [column]) (.uncover (header column)) covered
  | coverRow {covered : List Nat} {row column : Nat} (sets : matrix.get row column = true)
      (alive : matrix.mates row column ⊆ matrix.liveColumns covered) :
      InOrder matrix covered (.coverRow (matrix.layout.node row column))
        (covered ++ matrix.mates row column)
  | uncoverRow {covered : List Nat} {row column : Nat} (sets : matrix.get row column = true) :
      InOrder matrix (covered ++ matrix.mates row column)
        (.uncoverRow (matrix.layout.node row column)) covered

/-- Calls that are in order, each from where the one before it has led. -/
inductive History (matrix : IncidenceMatrix) : List Nat → List Call → List Nat → Prop where
  | nil {covered : List Nat} : History matrix covered [] covered
  | cons {covered middle last : List Nat} {call : Call} {calls : List Call}
      (first : InOrder matrix covered call middle) (rest : History matrix middle calls last) :
      History matrix covered (call :: calls) last

theorem Nested.call {call : Call} {next : List Nat} (h : Nested matrix start covered graph)
    (order : InOrder matrix covered call next) : ∃ after cost, Nested matrix start next after ∧
      ∀ n, (graph.withUpdates n).call call = .ok (after.withUpdates (n + cost)) := by
  cases order with
  | cover alive =>
      obtain ⟨after, turned, represents⟩ := h.represents.cover_reversible alive
      exact ⟨after, _, h.cover alive turned represents, turned.forward⟩
  | uncover =>
      obtain ⟨under, below, back⟩ := h.pop
      exact ⟨under, 0, below, back⟩
  | @coverRow _ row column sets alive =>
      obtain ⟨after, nested, run⟩ := h.coverAll alive (nodup_mates sets)
      refine ⟨after, matrix.coverCosts covered (matrix.mates row column), nested, fun n => ?_⟩
      simp only [Graph.call, Graph.coverRow, (h.represents.withUpdates n).otherHeaders_eq sets, bind,
        Except.bind]
      exact run n
  | uncoverRow sets =>
      obtain ⟨under, nested, run⟩ := h.uncoverAll
      refine ⟨under, 0, nested, fun n => ?_⟩
      simp only [Graph.call, Graph.uncoverRow, (h.represents.withUpdates n).otherHeadersBack_eq sets,
        bind, Except.bind]
      exact run n

/-- Calls that are in order never fail, and the updates only grow. -/
theorem Nested.callAll {calls : List Call} {last : List Nat}
    (h : Nested matrix start covered graph) (history : History matrix covered calls last) :
    ∃ after cost, Nested matrix start last after ∧
      ∀ n, (graph.withUpdates n).callAll calls = .ok (after.withUpdates (n + cost)) := by
  induction history generalizing graph with
  | nil => exact ⟨graph, 0, h, fun n => rfl⟩
  | cons order _ ih =>
      obtain ⟨middle, one, nested, step⟩ := h.call order
      obtain ⟨after, more, nested, run⟩ := ih nested
      refine ⟨after, one + more, nested, fun n => ?_⟩
      rw [Graph.callAll, List.foldlM_cons, step, ← Nat.add_assoc]
      exact run (n + one)

/-! ### What a graph shows -/

/-- What a graph shows when the covers of these columns are outstanding, the oldest first. -/
structure ShowsCovers (graph : Graph) (matrix : IncidenceMatrix) (covered : List Nat) : Prop where
  /-- No cover is outstanding twice. -/
  distinct : covered.Nodup
  /-- The live columns are the others, in ascending order. -/
  live : graph.liveHeaders =
    .ok (((List.range matrix.columns).filter (· ∉ covered)).map header)
  /-- Under a live column stand the rows that set it and no covered column. -/
  live_nodes : ∀ column < matrix.columns, column ∉ covered →
    graph.columnNodes (header column) =
      .ok ((matrix.rowsAvoiding covered column).map (matrix.layout.node · column))
  /-- Under a covered column stand the rows that set it and no column covered before it. -/
  covered_nodes : ∀ earlier column later, covered = earlier ++ column :: later →
    graph.columnNodes (header column) =
      .ok ((matrix.rowsAvoiding earlier column).map (matrix.layout.node · column))
  /-- The node of an entry knows its row and its column. -/
  named : ∀ row column, matrix.get row column = true →
    graph.rowOf (matrix.layout.node row column) = .ok (some row) ∧
      graph.headerOf (matrix.layout.node row column) = .ok (header column)
  /-- The count of a column, live or covered, is the number of nodes in its ring. -/
  count : ∀ column < matrix.columns, ∃ nodes, graph.columnNodes (header column) = .ok nodes ∧
    graph.countOf (header column) = .ok nodes.length
  solved : graph.isSolved = true ↔ ∀ column < matrix.columns, column ∈ covered

theorem Represents.isSolved_iff (h : graph.Represents matrix covered) :
    graph.isSolved = true ↔ ∀ column < matrix.columns, column ∈ covered := by
  have path := h.shows.root_ring.path
  have none : (∀ column < matrix.columns, column ∈ covered) ↔ matrix.liveColumns covered = [] := by
    simp [liveColumns]
  rw [none, isSolved, isAlone, beq_iff_eq]
  cases live : matrix.liveColumns covered with
  | nil =>
      rw [live] at path
      simpa using path.1
  | cons column rest =>
      rw [live] at path
      have ahead : graph.horizontal.nextOf root = header column := path.1.1
      rw [ahead]
      exact iff_of_false (Nat.succ_ne_zero column) (List.cons_ne_nil column rest)

theorem Nested.showsCovers (h : Nested matrix start covered graph) (n : Nat) :
    (graph.withUpdates n).ShowsCovers matrix covered := by
  have represents := h.represents.withUpdates n
  have shows := represents.shows
  have nodes : ∀ {column}, column < matrix.columns →
      (graph.withUpdates n).columnNodes (header column) =
        .ok ((matrix.rowsUnder covered column).map (matrix.layout.node · column)) :=
    fun below => columnNodes_eq shows below
  refine {
    distinct := h.nodup
    live := shows.root_ring.ring_eq
    live_nodes := ?_
    covered_nodes := ?_
    named := ?_
    count := ?_
    solved := represents.isSolved_iff }
  · intro column below fresh
    rw [nodes below, rowsUnder_of_live fresh, rowsAvoiding]
  · rintro earlier column later rfl
    have absent : column ∉ earlier := fun member =>
      List.disjoint_of_nodup_append h.nodup member List.mem_cons_self
    have below : column < matrix.columns := h.column_lt (by simp)
    rw [nodes below, rowsUnder_of_split absent]
  · intro row column sets
    have entry := mem_entries.mpr sets
    simp only [rowOf, headerOf, shows.rowNumbers entry, shows.headers entry, and_self]
  · intro column below
    refine ⟨_, nodes below, ?_⟩
    have counted := shows.counts below
    simp only [countOf, counted, List.length_map]

/-- After any calls that are in order, made on the graph of a matrix with forced rows that may
    clash, the graph shows what the outstanding covers call for. -/
theorem shows_outstanding_covers (matrix : IncidenceMatrix) (forced : List Nat) : ∃ start,
    ofMatrix matrix forced = .ok start ∧ ∀ calls covered,
      History matrix (matrix.commitRows (matrix.forcedRows forced) []).1 calls covered →
        ∃ graph, start.callAll calls = .ok graph ∧ graph.ShowsCovers matrix covered := by
  obtain ⟨_, graph, built, nested⟩ := ofMatrix_nested matrix forced
  refine ⟨_, built, fun calls covered history => ?_⟩
  obtain ⟨after, cost, nested, run⟩ := nested.callAll history
  exact ⟨_, run _, nested.showsCovers (_ + cost)⟩

/-- Each row sets two neighbouring columns of four that stand in a circle. -/
def circle : IncidenceMatrix := ⟨4, #[[0, 1], [1, 2], [2, 3], [0, 3]], by decide, by decide⟩

/-- Calls that end with undoing the cover of column 1, which was made for forced row 0. -/
def circleCalls : List Call :=
  [.coverRow (circle.layout.node 2 2), .cover (header 2), .uncover (header 2),
    .uncoverRow (circle.layout.node 2 2), .uncover (header 1)]

/-- Of the forced rows 0 and 1, which clash, the first one is committed, and column 0 is left
    covered in the end. -/
theorem circle_shows_column_zero : ∃ start graph, ofMatrix circle [0, 1] = .ok start ∧
    History circle (circle.commitRows (circle.forcedRows [0, 1]) []).1 circleCalls [0] ∧
    start.callAll circleCalls = .ok graph ∧ graph.ShowsCovers circle [0] := by
  obtain ⟨start, built, shows⟩ := shows_outstanding_covers circle [0, 1]
  have history : History circle ([0] ++ [1]) circleCalls [0] :=
    .cons (.coverRow (by decide) (by decide)) (.cons (.cover (by decide)) (.cons .uncover
      (.cons (.uncoverRow (by decide)) (.cons .uncover .nil))))
  have base : (circle.commitRows (circle.forcedRows [0, 1]) []).1 = [0] ++ [1] := by decide
  rw [base] at shows ⊢
  obtain ⟨graph, run, pictured⟩ := shows circleCalls [0] history
  exact ⟨start, graph, built, history, run, pictured⟩

end Graph

end ExactCover
