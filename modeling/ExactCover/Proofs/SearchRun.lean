import ExactCover.Proofs.ColumnChoice

/-! # A search and its stack

The frames of a search are the levels of a stack. Its graph is the one it started from with the
columns of the levels and of the rows being tried covered, each cover inside the one before, so that
undoing the covers of a level gives back the graph of the levels below it. One step of a search is
one step of its stack.
-/

namespace ExactCover

open IncidenceMatrix AlgorithmX

/-- Down from a node of a ring stands the node that follows it there. -/
theorem Graph.down_of_ring {graph : Graph} {first : Node} {nodes : List Node}
    (ring : graph.vertical.IsRing first nodes) : graph.down first = .ok (nodes.headD first) := by
  have next : graph.vertical.nextOf first = nodes.headD first := by
    cases nodes with
    | nil => exact ring.path.1
    | cons node nodes => exact ring.path.1.1
  simp only [Graph.down, ring.held_start.check_eq_ok, next, bind, Except.bind, pure, Except.pure]

/-- The frame of a search for a level of its stack. -/
def Level.frame (matrix : IncidenceMatrix) (level : Level) : Frame :=
  ⟨Graph.header level.column, level.trying.map (matrix.layout.node · level.column)⟩

namespace SearchStack

/-- The columns covered for a stack, the oldest first, when some have been covered before. -/
def coveredBy (matrix : IncidenceMatrix) (base : List Nat) : List Level → List Nat
  | [] => base
  | ⟨column, _, none, _⟩ :: below => coveredBy matrix base below ++ [column]
  | ⟨column, _, some row, _⟩ :: below =>
      coveredBy matrix base below ++ [column] ++ matrix.mates row column

/-- The updates that opening the chosen column makes. -/
def openCost (matrix : IncidenceMatrix) (covered : List Nat) : Nat :=
  ((pick matrix (matrix.liveColumns covered) (matrix.liveColumns covered)).map
    (matrix.coverCost covered)).getD 0

/-- The updates that a step makes. -/
def stepCost (matrix : IncidenceMatrix) (base : List Nat) : List Level → Nat
  | ⟨column, _, _, row :: _⟩ :: below =>
      let under := coveredBy matrix base below ++ [column]
      let mates := matrix.mates row column
      matrix.coverCosts under mates + openCost matrix (under ++ mates)
  | _ => 0

/-- The search that stands at a stack. -/
def state (matrix : IncidenceMatrix) (levels : List Level) (graph : Graph) (tally : Tally)
    (phase : Phase) : Search :=
  ⟨graph, tally, levels.map (Level.frame matrix), chosen levels, phase⟩

/-- What a step leads to that has visited a place of the tree, or has closed a column. -/
def eventAfter (rows : List Nat) : Option SearchTree.Visit → Event
  | none => .busy
  | some visit => visit.event rows

/-- The tally after such a step. -/
def tallyAfter (tally : Tally) : Option SearchTree.Visit → Tally
  | none => tally
  | some visit => Tally.visit { tally with rowsTried := tally.rowsTried + 1 } visit

/-- The graph comes from the starting one by the covers of the levels, which can be undone from the
    newest on. Below an open column every level is trying a row. -/
inductive Stands (matrix : IncidenceMatrix) (base : List Nat) (start : Graph) :
    List Level → Graph → Prop where
  | bottom (represents : start.Represents matrix base) : Stands matrix base start [] start
  | opened {levels : List Level} {under graph : Graph} {column : Nat} {live pending : List Nat}
      (below : Stands matrix base start levels under)
      (settled : ∀ level ∈ levels, level.trying ≠ none)
      (alive : column ∈ live)
      (lives : live = matrix.liveColumns (coveredBy matrix base levels))
      (rows : pending = openRows matrix live column)
      (turned : Graph.Reversible (Graph.cover · (Graph.header column))
        (Graph.uncover · (Graph.header column))
        (matrix.coverCost (coveredBy matrix base levels) column) under graph)
      (represents : graph.Represents matrix (coveredBy matrix base levels ++ [column])) :
      Stands matrix base start (⟨column, live, none, pending⟩ :: levels) graph
  | tried {levels : List Level} {under graph : Graph} {column row : Nat}
      {live done pending : List Nat}
      (below : Stands matrix base start (⟨column, live, none, done ++ row :: pending⟩ :: levels) under)
      (turned : Graph.Reversible (Graph.coverRow · (matrix.layout.node row column))
        (Graph.uncoverRow · (matrix.layout.node row column))
        (matrix.coverCosts (coveredBy matrix base levels ++ [column]) (matrix.mates row column))
        under graph)
      (represents : graph.Represents matrix
        (coveredBy matrix base levels ++ [column] ++ matrix.mates row column)) :
      Stands matrix base start (⟨column, live, some row, pending⟩ :: levels) graph

variable {matrix : IncidenceMatrix} {base covered live : List Nat} {start graph : Graph}
  {levels : List Level} {tally : Tally} {phase : Phase} {n : Nat}

namespace Stands

theorem represents (h : Stands matrix base start levels graph) :
    graph.Represents matrix (coveredBy matrix base levels) := by
  cases h with
  | bottom represents => exact represents
  | opened _ _ _ _ _ _ represents => exact represents
  | tried _ _ represents => exact represents

theorem labels (h : Stands matrix base start levels graph) : graph.labels = start.labels := by
  induction h with
  | bottom => rfl
  | opened _ _ _ _ _ turned _ ih => exact turned.labels.trans ih
  | tried _ turned _ ih => exact turned.labels.trans ih

theorem clueRows (h : Stands matrix base start levels graph) : graph.clueRows = start.clueRows :=
  Graph.clueRows_congr h.labels

/-- Undoing the covers of all levels gives the starting graph back. -/
theorem unwind (h : Stands matrix base start levels graph) (n : Nat) :
    Search.unwind (levels.map (Level.frame matrix)) (graph.withUpdates n) =
      .ok (start.withUpdates n) := by
  induction h with
  | bottom => rfl
  | opened _ _ _ _ _ turned _ ih =>
      simp only [List.map_cons, Level.frame, Option.map_none, Search.unwind, Search.leaveRow, bind,
        Except.bind, turned.back, ih]
  | tried _ turned _ ih =>
      simp only [List.map_cons, Level.frame, Option.map_none, Search.unwind, Search.leaveRow, bind,
        Except.bind] at ih
      simp only [List.map_cons, Level.frame, Option.map_some, Search.unwind, Search.leaveRow, bind,
        Except.bind, pure, Except.pure, turned.back, ih]

/-- Going down in a search goes down in its stack. -/
theorem descend (h : Stands matrix base start levels graph)
    (settled : ∀ level ∈ levels, level.trying ≠ none)
    (lives : live = matrix.liveColumns (coveredBy matrix base levels)) :
    let after := SearchStack.descend matrix live levels
    ∃ below, Stands matrix base start after.2 below ∧ ∀ n tally phase,
      (state matrix levels (graph.withUpdates n) tally phase).descend =
        .ok (after.1.event (start.clueRows ++ (chosen levels).reverse),
          state matrix after.2
            (below.withUpdates (n + openCost matrix (coveredBy matrix base levels)))
            (tally.visit after.1) phase) := by
  have column (n : Nat) := (h.represents.withUpdates n).chooseColumn_eq
  have clues (n : Nat) : (graph.withUpdates n).clueRows = start.clueRows := h.clueRows
  subst lives
  cases picked : pick matrix (matrix.liveColumns (coveredBy matrix base levels))
      (matrix.liveColumns (coveredBy matrix base levels)) with
  | none =>
      rw [descend_solved picked]
      refine ⟨graph, h, fun n tally phase => ?_⟩
      simp only [state, Search.descend, column, picked, clues, openCost, Option.map_none, bind,
        Except.bind, pure, Except.pure, SearchTree.Visit.event, Tally.visit, Option.getD_none,
        Nat.add_zero]
  | some chosenColumn =>
      have alive := pick_mem picked
      obtain ⟨inside, fresh⟩ := mem_liveColumns.mp alive
      have counted := h.represents.shows.counts inside
      rw [rowsUnder_eq_openRows fresh] at counted
      cases opened : openRows matrix (matrix.liveColumns (coveredBy matrix base levels))
          chosenColumn with
      | nil =>
          rw [descend_deadEnd picked opened]
          have free := coverCost_eq_zero fresh opened
          refine ⟨graph, h, fun n tally phase => ?_⟩
          rw [opened] at counted
          have none : (graph.withUpdates n).countOf (Graph.header chosenColumn) = .ok 0 := by
            simp only [Graph.countOf, Graph.withUpdates, counted, List.length_nil]
          simp only [state, Search.descend, column, picked, none, openCost, free, Option.map_some,
            bind, Except.bind, pure, Except.pure, SearchTree.Visit.event, Tally.visit,
            Option.getD_some, if_true, Nat.add_zero]
      | cons row rest =>
          rw [descend_opened picked opened]
          obtain ⟨after, turned, represents⟩ := h.represents.cover_reversible alive
          refine ⟨after, .opened h settled alive rfl opened.symm turned represents, ?_⟩
          intro n tally phase
          rw [opened] at counted
          have some : (graph.withUpdates n).countOf (Graph.header chosenColumn) =
              .ok (rest.length + 1) := by
            simp only [Graph.countOf, Graph.withUpdates, counted, List.length_cons]
          simp only [state, Search.descend, column, picked, some, openCost, turned.forward,
            Option.map_some, Option.map_none, bind, Except.bind, pure, Except.pure,
            SearchTree.Visit.event, Tally.visit, Option.getD_some, Nat.succ_ne_zero, if_false,
            List.map_cons, Level.frame, List.length_cons, List.length_map]
          rfl

/-- Of an open column without a row being tried the ring holds the rows to be tried. -/
theorem column_ring {column : Nat} {pending : List Nat}
    (h : Stands matrix base start (⟨column, live, none, pending⟩ :: levels) graph) :
    graph.vertical.IsRing (Graph.header column) (pending.map (matrix.layout.node · column)) := by
  cases h with
  | opened _ _ alive lives rows _ represents =>
      subst lives
      obtain ⟨inside, fresh⟩ := mem_liveColumns.mp alive
      have ring := represents.shows.column_ring inside
      rw [rowsUnder_append fresh, Graph.hideRows, if_pos rfl, rowsUnder_eq_openRows fresh] at ring
      rwa [rows]

/-- Leaving the row being tried gives the graph of the open column back, and there the node to be
    tried next stands below. -/
theorem leave {column : Nat} {trying : Option Nat} {pending : List Nat}
    (h : Stands matrix base start (⟨column, live, trying, pending⟩ :: levels) graph) :
    ∃ under done, Stands matrix base start (⟨column, live, none, done ++ pending⟩ :: levels) under ∧
      ∀ n, Search.leaveRow (graph.withUpdates n) (chosen (⟨column, live, trying, pending⟩ :: levels))
          (Level.frame matrix ⟨column, live, trying, pending⟩) =
            .ok (under.withUpdates n, chosen levels) ∧
        (under.withUpdates n).down
            ((trying.map (matrix.layout.node · column)).getD (Graph.header column)) =
          .ok ((pending.map (matrix.layout.node · column)).headD (Graph.header column)) := by
  cases trying with
  | none =>
      exact ⟨graph, [], h, fun n => ⟨rfl, Graph.down_of_ring h.column_ring⟩⟩
  | some row =>
      cases h with
      | @tried _ under _ _ _ _ done _ below turned represents =>
          refine ⟨under, done ++ [row], by simpa using below, fun n => ⟨?_, ?_⟩⟩
          · simp only [Search.leaveRow, Level.frame, Option.map_some, turned.back, bind,
              Except.bind, pure, Except.pure]
            rfl
          · have ring := below.column_ring
            rw [List.map_append, List.map_cons] at ring
            cases pending with
            | nil => exact Graph.down_of_ring ring.rotate
            | cons other rest => exact Graph.down_of_ring ring.rotate

/-- The row of an open column sets it and otherwise columns that are live below it. -/
theorem mates_live {column row : Nat} {pending : List Nat}
    (h : Stands matrix base start (⟨column, live, none, pending⟩ :: levels) graph)
    (member : row ∈ pending) : matrix.get row column = true ∧
      matrix.mates row column ⊆ matrix.liveColumns (coveredBy matrix base levels ++ [column]) := by
  cases h with
  | opened _ _ alive lives rows _ _ =>
      obtain ⟨sets, within⟩ := mem_openRows.mp (rows ▸ member)
      refine ⟨sets, fun j mate => ?_⟩
      obtain ⟨also, differs⟩ := (mem_mates sets).mp mate
      rw [liveColumns_append]
      exact List.mem_filter.mpr ⟨lives ▸ within (mem_rowAt.mpr also), decide_eq_true differs⟩

/-- When a row is tried, the columns that stay live are those of the search without links. -/
theorem lives_below {column row : Nat} {pending rest : List Nat}
    (h : Stands matrix base start (⟨column, live, none, pending⟩ :: levels) graph)
    (member : row ∈ pending) : without matrix live row =
      matrix.liveColumns (coveredBy matrix base (⟨column, live, some row, rest⟩ :: levels)) := by
  have sets := (h.mates_live member).1
  cases h with
  | opened _ _ _ lives _ _ _ =>
      subst lives
      rw [without_liveColumns, coveredBy, List.append_assoc, List.singleton_append]
      exact liveColumns_congr ((perm_mates sets).symm.append_left _)

theorem settled_below {column : Nat} {pending : List Nat}
    (h : Stands matrix base start (⟨column, live, none, pending⟩ :: levels) graph) :
    ∀ level ∈ levels, level.trying ≠ none := by
  cases h with
  | opened _ settled _ _ _ _ _ => exact settled

/-- Trying a row of an open column goes down in the stack with the row on it. -/
theorem tryRow {column row : Nat} {done rest : List Nat}
    (h : Stands matrix base start (⟨column, live, none, done ++ row :: rest⟩ :: levels) graph) :
    let after := SearchStack.descend matrix (without matrix live row)
      (⟨column, live, some row, rest⟩ :: levels)
    ∃ below, Stands matrix base start after.2 below ∧ ∀ n tally,
      Search.tryRow (graph.withUpdates n) tally (levels.map (Level.frame matrix)) (chosen levels)
          (Graph.header column) (matrix.layout.node row column) =
        .ok (after.1.event (start.clueRows ++
            (chosen (⟨column, live, some row, rest⟩ :: levels)).reverse),
          state matrix after.2 (below.withUpdates (n +
            stepCost matrix base (⟨column, live, none, row :: rest⟩ :: levels)))
            (Tally.visit { tally with rowsTried := tally.rowsTried + 1 } after.1) .running) := by
  have member : row ∈ done ++ row :: rest := List.mem_append_right done List.mem_cons_self
  obtain ⟨sets, within⟩ := h.mates_live member
  obtain ⟨middle, turned, represents⟩ := h.represents.coverRow_reversible sets within
  have placed := tried h turned represents
  have settled : ∀ level ∈ (⟨column, live, some row, rest⟩ :: levels : List Level),
      level.trying ≠ none := by
    intro level listed
    rcases List.mem_cons.mp listed with rfl | listed
    · exact Option.some_ne_none row
    · exact h.settled_below level listed
  obtain ⟨below, stands, run⟩ := placed.descend settled (h.lives_below member)
  refine ⟨below, stands, fun n tally => ?_⟩
  have number : (graph.withUpdates n).rowOf (matrix.layout.node row column) = .ok (some row) := by
    have listed := h.represents.shows.rowNumbers (mem_entries.mpr sets)
    simp only [Graph.rowOf, Graph.withUpdates, listed]
  have down := run (n + matrix.coverCosts (coveredBy matrix base levels ++ [column])
    (matrix.mates row column)) { tally with rowsTried := tally.rowsTried + 1 } .running
  simp only [Search.tryRow, number, turned.forward, bind, Except.bind]
  simpa [state, Level.frame, chosen, stepCost, coveredBy, Nat.add_assoc] using down

/-- A step of a search is a step of its stack. -/
theorem step {next : List Level} {visit : Option SearchTree.Visit}
    (h : Stands matrix base start levels graph)
    (made : SearchStack.step matrix levels = some (visit, next)) :
    ∃ after, Stands matrix base start next after ∧ ∀ n tally phase,
      (state matrix levels (graph.withUpdates n) tally phase).step =
        .ok (eventAfter (start.clueRows ++ (chosen next).reverse) visit,
          state matrix next (after.withUpdates (n + stepCost matrix base levels))
            (tallyAfter tally visit) .running) := by
  cases levels with
  | nil => simp [SearchStack.step] at made
  | cons level below =>
      obtain ⟨column, live, trying, pending⟩ := level
      obtain ⟨under, done, stands, left⟩ := h.leave
      cases pending with
      | nil =>
          obtain ⟨rfl, rfl⟩ : none = visit ∧ below = next := by
            simpa [SearchStack.step] using made
          cases stands with
          | @opened _ bottom _ _ _ _ lower _ _ _ _ turned _ =>
              refine ⟨bottom, lower, fun n tally phase => ?_⟩
              obtain ⟨leaves, nothing⟩ := left n
              simp only [List.map_nil, List.headD_nil] at nothing
              simp only [state, List.map_cons, Search.step, leaves, bind, Except.bind]
              simp only [Level.frame, nothing, turned.back, if_true, pure, Except.pure]
              rfl
      | cons row rest =>
          obtain ⟨after, lower, run⟩ := stands.tryRow
          obtain ⟨rfl, rfl⟩ : some (SearchStack.descend matrix (without matrix live row)
              (⟨column, live, some row, rest⟩ :: below)).1 = visit ∧
              (SearchStack.descend matrix (without matrix live row)
                (⟨column, live, some row, rest⟩ :: below)).2 = next := by
            simpa [SearchStack.step] using made
          refine ⟨after, lower, fun n tally phase => ?_⟩
          obtain ⟨leaves, node⟩ := left n
          have sets := (stands.mates_live (List.mem_append_right done List.mem_cons_self)).1
          have apart : matrix.layout.node row column ≠ Graph.header column :=
            Nat.ne_of_gt (matrix.layout.header_lt_node (get_inside sets).2)
          simp only [List.map_cons, List.headD_cons] at node
          simp only [state, List.map_cons, Search.step, leaves, bind, Except.bind]
          simp only [Level.frame, node, if_neg apart, run, state, chosen_descend]
          rfl

end Stands

end SearchStack

end ExactCover
