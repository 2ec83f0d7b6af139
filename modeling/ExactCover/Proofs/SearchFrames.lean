import ExactCover.Proofs.LinkedCalls

/-! # What the open columns of a search account for

The open columns of a search, with the rows being tried in them, account for the rest of it. The
graph is the one that the search has started from after covering the open columns from the oldest on,
each with the other columns of its row. That is so between the calls of the search, and wherever the
loop of a call comes to its head.

A cover that is found and a dead end leave the open columns as they are. What was covered on the way
there is undone at the next turn, from what the newest open column says.
-/

namespace ExactCover

open IncidenceMatrix AlgorithmX

/-- Where a frame has come to in the ring of its column: the node of the row being tried, or the
    header when no row has been tried yet. -/
def Frame.row (frame : Frame) : Node := frame.trying.getD frame.column

namespace Graph

/-- Covers the column of a frame, and the other columns of the row being tried in it, if any. -/
def openFrame (graph : Graph) (frame : Frame) : Except Fault Graph := do
  let graph ← graph.cover frame.column
  if frame.row = frame.column then return graph else graph.coverRow frame.row

/-- Opens frames one after the other. -/
def openFrames (graph : Graph) (frames : List Frame) : Except Fault Graph :=
  frames.foldlM openFrame graph

end Graph

/-- What holds of a search that has started from a graph. -/
structure Search.Invariant (search : Search) (matrix : IncidenceMatrix) (start : Graph) : Prop where
  /-- A row is being tried in every open column but the newest. -/
  settled : ∀ frame ∈ search.frames.tail, frame.row ≠ frame.column
  /-- The rows being tried are those of the frames that have left the header. -/
  chosen : (search.frames.filter fun frame => frame.row ≠ frame.column).mapM
    (fun frame => search.graph.rowOf frame.row) = .ok (search.chosen.map some)
  /-- Every frame stands at a node in the ring of its column. -/
  in_ring : ∀ frame ∈ search.frames, ∃ nodes,
    search.graph.columnNodes frame.column = .ok nodes ∧ frame.row ∈ frame.column :: nodes
  /-- No two of the forced rows and the rows being tried share a column. -/
  compatible : matrix.Compatible (search.graph.clueRows ++ search.chosen.reverse)
  /-- Opening the frames again, the oldest first, leads to the graph. -/
  opened : ∃ graph, start.openFrames search.frames.reverse = .ok graph ∧
    search.graph = graph.withUpdates search.graph.updates
  /-- There are no more open columns than were live at the start. -/
  few : ∃ live, start.liveHeaders = .ok live ∧ search.frames.length ≤ live.length

variable {matrix : IncidenceMatrix} {base covered : List Nat} {start under graph : Graph}
  {level : Level} {levels next : List Level}

namespace Level

theorem frame_row_of_none (idle : level.trying = none) :
    (level.frame matrix).row = Graph.header level.column := by
  rw [frame, idle]
  rfl

theorem frame_row_of_some {row : Nat} (trying : level.trying = some row) :
    (level.frame matrix).row = matrix.layout.node row level.column := by
  rw [frame, trying]
  rfl

end Level

namespace SearchStack

theorem chosen_cons (level : Level) (levels : List Level) :
    chosen (level :: levels) = level.trying.toList ++ chosen levels := by
  cases trying : level.trying <;> simp [chosen, trying]

theorem coveredBy_cons (matrix : IncidenceMatrix) (base : List Nat) (level : Level)
    (levels : List Level) : coveredBy matrix base (level :: levels) =
      coveredBy matrix base levels ++
        level.column :: level.trying.elim [] (matrix.mates · level.column) := by
  obtain ⟨column, live, trying, pending⟩ := level
  cases trying <;> simp [coveredBy]

theorem subset_coveredBy_cons (matrix : IncidenceMatrix) (base : List Nat) (level : Level)
    (levels : List Level) :
    coveredBy matrix base levels ⊆ coveredBy matrix base (level :: levels) := by
  rw [coveredBy_cons]
  exact List.subset_append_left _ _

/-- What a level adds to the graph below it, in which these columns are covered. -/
structure Opens (matrix : IncidenceMatrix) (covered : List Nat) (level : Level)
    (under graph : Graph) : Prop where
  alive : level.column ∈ matrix.liveColumns covered
  row_live : ∀ row, level.trying = some row →
    matrix.get row level.column = true ∧ matrix.rowAt row ⊆ matrix.liveColumns covered
  run : ∀ n, ∃ m, (under.withUpdates n).openFrame (level.frame matrix) = .ok (graph.withUpdates m)

/-- Below the newest level is a stack in which every level is trying a row. -/
theorem Stands.newest (h : Stands matrix base start (level :: levels) graph) : ∃ under,
    Stands matrix base start levels under ∧ (∀ level ∈ levels, level.trying ≠ none) ∧
      Opens matrix (coveredBy matrix base levels) level under graph := by
  cases h with
  | @opened _ under _ column _ _ below settled alive lives rows turned represents =>
      refine ⟨under, below, settled, lives ▸ alive, nofun, fun n => ?_⟩
      simp only [Graph.openFrame, Level.frame, turned.forward, bind, Except.bind]
      exact ⟨_, if_pos rfl⟩
  | @tried _ middle _ column row _ _ _ below turned represents =>
      cases below with
      | @opened _ under _ _ _ _ lower settled alive lives rows first _ =>
          have member : row ∈ openRows matrix _ column :=
            rows ▸ List.mem_append_right _ List.mem_cons_self
          obtain ⟨sets, within⟩ := mem_openRows.mp member
          refine ⟨under, lower, settled, lives ▸ alive, ?_, fun n => ?_⟩
          · rintro _ ⟨⟩
            exact ⟨sets, lives ▸ within⟩
          · have apart : matrix.layout.node row column ≠ Graph.header column :=
              Nat.ne_of_gt (matrix.layout.header_lt_node (get_inside sets).2)
            simp only [Graph.openFrame, Level.frame, first.forward, bind, Except.bind]
            exact ⟨_, (if_neg apart).trans (turned.forward _)⟩

namespace Opens

/-- A level covers its column and, when it is trying a row, all the columns of the row. -/
theorem rowAt_subset (h : Opens matrix (coveredBy matrix base levels) level under graph) {row : Nat}
    (trying : level.trying = some row) :
    matrix.rowAt row ⊆ coveredBy matrix base (level :: levels) := by
  have sets := (h.row_live row trying).1
  intro column own
  rw [coveredBy_cons, trying]
  exact List.mem_append_right _ ((perm_mates sets).mem_iff.mpr own)

theorem length_liveColumns_lt (h : Opens matrix (coveredBy matrix base levels) level under graph) :
    (matrix.liveColumns (coveredBy matrix base (level :: levels))).length <
      (matrix.liveColumns (coveredBy matrix base levels)).length := by
  have own : level.column ∈ coveredBy matrix base (level :: levels) := by
    rw [coveredBy_cons]
    exact List.mem_append_right _ List.mem_cons_self
  have fewer : matrix.liveColumns (coveredBy matrix base (level :: levels)) =
      (matrix.liveColumns (coveredBy matrix base levels)).filter
        (· ∉ coveredBy matrix base (level :: levels)) := by
    simp only [liveColumns, List.filter_filter]
    refine List.filter_congr fun column _ => ?_
    have kept := @subset_coveredBy_cons matrix base level levels column
    simp only [← Bool.decide_and, decide_eq_decide]
    tauto
  rw [fewer]
  exact List.length_filter_lt_length_iff_exists.mpr ⟨_, h.alive, by simpa using own⟩

end Opens

namespace Stands

/-- Opening the frames of a stack, the oldest first, leads to its graph. -/
theorem openFrames (h : Stands matrix base start levels graph) (n : Nat) : ∃ m,
    (start.withUpdates n).openFrames (levels.map (Level.frame matrix)).reverse =
      .ok (graph.withUpdates m) := by
  induction levels generalizing graph with
  | nil =>
      cases h
      exact ⟨n, rfl⟩
  | cons level levels ih =>
      obtain ⟨under, below, _, opens⟩ := h.newest
      obtain ⟨m, run⟩ := ih below
      obtain ⟨m', last⟩ := opens.run m
      refine ⟨m', ?_⟩
      simp only [Graph.openFrames] at run
      rw [List.map_cons, List.reverse_cons, Graph.openFrames, List.foldlM_append, run]
      simp only [bind, Except.bind, List.foldlM_cons, List.foldlM_nil, last]
      rfl

/-- Every level takes a column that was live. -/
theorem length_add_liveColumns_le (h : Stands matrix base start levels graph) :
    levels.length + (matrix.liveColumns (coveredBy matrix base levels)).length ≤
      (matrix.liveColumns base).length := by
  induction levels generalizing graph with
  | nil => exact (Nat.zero_add _).le
  | cons level levels ih =>
      obtain ⟨under, below, _, opens⟩ := h.newest
      have taken := opens.length_liveColumns_lt
      have others := ih below
      rw [List.length_cons]
      omega

/-- The rows being tried share no column with each other, nor with rows covered before. -/
theorem compatible (h : Stands matrix base start levels graph) {rows : List Nat}
    (compatible : matrix.Compatible rows) (within : ∀ row ∈ rows, matrix.rowAt row ⊆ base) :
    matrix.Compatible (rows ++ (chosen levels).reverse) ∧
      ∀ row ∈ rows ++ (chosen levels).reverse,
        matrix.rowAt row ⊆ coveredBy matrix base levels := by
  induction levels generalizing graph with
  | nil => simpa [chosen, coveredBy] using ⟨compatible, within⟩
  | cons level levels ih =>
      obtain ⟨under, below, _, opens⟩ := h.newest
      obtain ⟨apart, inside⟩ := ih below
      have kept : ∀ row ∈ rows ++ (chosen levels).reverse,
          matrix.rowAt row ⊆ coveredBy matrix base (level :: levels) :=
        fun row member =>
          List.Subset.trans (inside row member) (subset_coveredBy_cons matrix base level levels)
      cases trying : level.trying with
      | none =>
          rw [chosen_cons, trying]
          exact ⟨apart, kept⟩
      | some row =>
          rw [chosen_cons, trying, Option.toList_some, List.singleton_append, List.reverse_cons,
            ← List.append_assoc]
          constructor
          · refine List.pairwise_append.mpr ⟨apart, List.pairwise_singleton _ row, ?_⟩
            intro other member _ last column own also
            obtain rfl := List.mem_singleton.mp last
            have fresh := (opens.row_live _ trying).2 also
            exact (mem_liveColumns.mp fresh).2 (inside other member own)
          · intro other member
            rcases List.mem_append.mp member with old | last
            · exact kept other old
            · obtain rfl := List.mem_singleton.mp last
              exact opens.rowAt_subset trying

/-- A row being tried stands under the header of its level, where no later cover has changed it. -/
theorem row_mem_rowsUnder (h : Stands matrix base start levels graph) (member : level ∈ levels) :
    level.column < matrix.columns ∧ level.column ∈ coveredBy matrix base levels ∧
      ∀ row, level.trying = some row →
        row ∈ matrix.rowsUnder (coveredBy matrix base levels) level.column := by
  induction levels generalizing graph with
  | nil => exact absurd member List.not_mem_nil
  | cons newest levels ih =>
      obtain ⟨under, below, _, opens⟩ := h.newest
      rw [coveredBy_cons]
      rcases List.mem_cons.mp member with rfl | older
      · obtain ⟨inside, fresh⟩ := mem_liveColumns.mp opens.alive
        refine ⟨inside, List.mem_append_right _ List.mem_cons_self, fun row trying => ?_⟩
        obtain ⟨sets, within⟩ := opens.row_live row trying
        rw [mem_rowsUnder, takeWhile_split fresh]
        refine ⟨sets, fun j known => Bool.eq_false_iff.mpr fun also => ?_⟩
        exact (mem_liveColumns.mp (within (mem_rowAt.mpr also))).2 known
      · obtain ⟨inside, known, rows⟩ := ih below older
        refine ⟨inside, List.mem_append_left _ known, fun row trying => ?_⟩
        have listed := rows row trying
        rwa [mem_rowsUnder, takeWhile_append_of_mem known, ← mem_rowsUnder]

theorem frame_row_eq_iff (h : Stands matrix base start levels graph) (member : level ∈ levels) :
    (level.frame matrix).row = (level.frame matrix).column ↔ level.trying = none := by
  obtain ⟨inside, _, _⟩ := h.row_mem_rowsUnder member
  cases trying : level.trying with
  | none => exact iff_of_true (Level.frame_row_of_none trying) rfl
  | some row =>
      rw [Level.frame_row_of_some trying]
      exact iff_of_false (Nat.ne_of_gt (matrix.layout.header_lt_node inside))
        (Option.some_ne_none row)

theorem frames_settled (h : Stands matrix base start levels graph)
    (settled : ∀ level ∈ levels, level.trying ≠ none) :
    ∀ frame ∈ levels.map (Level.frame matrix), frame.row ≠ frame.column := by
  intro frame listed
  obtain ⟨level, member, rfl⟩ := List.mem_map.mp listed
  exact mt (h.frame_row_eq_iff member).mp (settled level member)

theorem in_ring (h : Stands matrix base start levels graph) (n : Nat) :
    ∀ frame ∈ levels.map (Level.frame matrix), ∃ nodes,
      (graph.withUpdates n).columnNodes frame.column = .ok nodes ∧
        frame.row ∈ frame.column :: nodes := by
  intro frame listed
  obtain ⟨level, member, rfl⟩ := List.mem_map.mp listed
  obtain ⟨inside, _, rows⟩ := h.row_mem_rowsUnder member
  refine ⟨_, Graph.columnNodes_eq (h.represents.withUpdates n).shows inside, ?_⟩
  cases trying : level.trying with
  | none =>
      rw [Level.frame_row_of_none trying]
      exact List.mem_cons_self
  | some row =>
      rw [Level.frame_row_of_some trying]
      exact List.mem_cons_of_mem _ (List.mem_map.mpr ⟨row, rows row trying, rfl⟩)

/-- The rows being tried are read off the frames. -/
theorem mapM_rowOf (h : Stands matrix base start levels graph)
    (represents : under.Represents matrix covered) :
    ((levels.map (Level.frame matrix)).filter fun frame => frame.row ≠ frame.column).mapM
      (fun frame => under.rowOf frame.row) = .ok ((chosen levels).map some) := by
  -- The rows of the nodes are the same in all graphs, so that `under` need not be the graph of the
  -- stack, which changes along the induction.
  induction levels generalizing graph with
  | nil => rfl
  | cons level levels ih =>
      obtain ⟨_, below, _, opens⟩ := h.newest
      have others := ih below
      have header := h.frame_row_eq_iff List.mem_cons_self
      rw [List.map_cons, chosen_cons]
      cases trying : level.trying with
      | none =>
          rw [List.filter_cons_of_neg (by simpa using header.mpr trying)]
          exact others
      | some row =>
          have left : (level.frame matrix).row ≠ (level.frame matrix).column :=
            mt header.mp (trying ▸ Option.some_ne_none row)
          have entry := mem_entries.mpr (opens.row_live row trying).1
          have named : under.rowOf (level.frame matrix).row = .ok (some row) := by
            rw [Level.frame_row_of_some trying, Graph.rowOf, represents.shows.rowNumbers entry]
          rw [List.filter_cons_of_pos (by simpa using left), List.mapM_cons, named, others]
          rfl

theorem invariant (h : Stands matrix base start levels graph)
    (compatible : matrix.Compatible start.clueRows)
    (within : ∀ row ∈ start.clueRows, matrix.rowAt row ⊆ base) (n : Nat) (tally : Tally)
    (phase : Phase) :
    (state matrix levels (graph.withUpdates n) tally phase).Invariant matrix start where
  settled := by
    cases levels with
    | nil => simp [state]
    | cons level levels =>
        obtain ⟨_, below, settled, _⟩ := h.newest
        exact below.frames_settled settled
  chosen := h.mapM_rowOf (h.represents.withUpdates n)
  in_ring := h.in_ring n
  compatible := by
    have clues : (graph.withUpdates n).clueRows = start.clueRows := h.clueRows
    simp only [state, clues]
    exact (h.compatible compatible within).1
  opened := by
    obtain ⟨m, run⟩ := h.openFrames start.updates
    exact ⟨_, run, rfl⟩
  few := by
    refine ⟨_, h.start_represents.shows.root_ring.ring_eq, ?_⟩
    have most := h.length_add_liveColumns_le
    simp only [state, List.length_map]
    omega

end Stands

/-! ### Where a call comes to -/

/-- A search that stands at some stack. -/
def At (matrix : IncidenceMatrix) (base : List Nat) (start : Graph) (search : Search) : Prop :=
  ∃ levels graph n tally phase, Stands matrix base start levels graph ∧
    search = state matrix levels (graph.withUpdates n) tally phase

variable {search after : Search} {rest : List (List Nat)} {rows : List Nat} {tally : Tally}
  {phase : Phase} {n limit : Nat}

theorem Finds.at (h : Finds matrix base start search rest) : At matrix base start search := by
  cases h with
  | fresh represents n tally => exact ⟨_, _, n, tally, _, .bottom represents, rfl⟩
  | running stands bounded n tally => exact ⟨_, _, n, tally, _, stands, rfl⟩
  | done stands n tally => exact ⟨_, _, n, tally, _, stands, rfl⟩

theorem At.step {event : Event} (h : At matrix base start search)
    (run : search.step = .ok (event, after)) : At matrix base start after := by
  obtain ⟨levels, graph, n, tally, phase, stands, rfl⟩ := h
  cases levels with
  | nil =>
      obtain ⟨_, rfl⟩ := Prod.mk.inj (Except.ok.inj run)
      exact ⟨[], graph, n, tally, .done, stands, rfl⟩
  | cons level below =>
      obtain ⟨visit, next, made⟩ := step_cons matrix level below
      obtain ⟨final, lower, runs⟩ := stands.step made
      obtain ⟨_, rfl⟩ := Prod.mk.inj (Except.ok.inj ((runs n tally phase).symm.trans run))
      exact ⟨next, final, _, _, _, lower, rfl⟩

theorem descend_of_solved {live : List Nat} {depth : Nat}
    (solved : (SearchStack.descend matrix live levels).1 = .solved depth) :
    (SearchStack.descend matrix live levels).2 = levels := by
  cases picked : pick matrix live live with
  | none => rw [descend_solved picked]
  | some column =>
      cases opened : openRows matrix live column with
      | nil => rw [descend_deadEnd picked opened]
      | cons row rest =>
          rw [descend_opened picked opened] at solved
          cases solved

/-- A step that finds a cover leaves no column open without a row. -/
theorem Stands.step_settled (h : Stands matrix base start levels graph) {depth : Nat}
    (made : SearchStack.step matrix levels = some (some (.solved depth), next)) :
    ∀ level ∈ next, level.trying ≠ none := by
  rcases step_cases made with ⟨_, _, _, _, none⟩ |
    ⟨column, live, trying, row, rest, below, rfl, solved, rfl⟩
  · cases none
  · rw [descend_of_solved (Option.some.inj solved).symm]
    obtain ⟨_, _, settled, _⟩ := h.newest
    intro level listed
    rcases List.mem_cons.mp listed with rfl | older
    · exact Option.some_ne_none row
    · exact settled level older

theorem Stands.found (h : Stands matrix base start levels graph)
    (run : Search.stepsWithin limit (state matrix levels (graph.withUpdates n) tally phase) =
      .ok (some rows, after)) : ∀ frame ∈ after.frames, frame.row ≠ frame.column := by
  induction limit generalizing levels graph n tally phase with
  | zero => cases run
  | succ limit ih =>
      cases levels with
      | nil => cases run
      | cons level below =>
          obtain ⟨visit, next, made⟩ := step_cons matrix level below
          obtain ⟨final, stands, step⟩ := h.step made
          simp only [Search.stepsWithin, step] at run
          cases visit with
          | none => exact ih stands run
          | some visit =>
              cases visit with
              | solved depth =>
                  cases run
                  exact stands.frames_settled (h.step_settled made)
              | deadEnd depth | opened depth => exact ih stands run

/-- The start of a search comes to a stack, to the empty one when it finds a cover. -/
theorem start_at {event : Event} (represents : start.Represents matrix base)
    (run : (state matrix [] (start.withUpdates n) tally .fresh).start = .ok (event, after)) :
    ∃ levels graph m tally' phase, Stands matrix base start levels graph ∧
      after = state matrix levels (graph.withUpdates m) tally' phase ∧
      ∀ rows, event = .found rows → levels = [] := by
  have bottom := Stands.bottom represents
  cases consistent : start.isConsistent with
  | false =>
      have clash : (start.withUpdates n).isConsistent = false := consistent
      simp only [Search.start, state, clash, Bool.false_eq_true, if_false, Except.ok.injEq,
        Prod.mk.injEq] at run
      obtain ⟨rfl, rfl⟩ := run
      exact ⟨[], start, n, tally, .done, bottom, rfl, fun _ _ => rfl⟩
  | true =>
      have begins : (state matrix [] (start.withUpdates n) tally .fresh).start =
          (state matrix [] (start.withUpdates n) tally .running).descend := if_pos consistent
      obtain ⟨graph, stands, down⟩ := bottom.descend (by simp) rfl
      rw [begins, down] at run
      obtain ⟨rfl, rfl⟩ := Prod.mk.inj (Except.ok.inj run)
      refine ⟨_, graph, _, _, _, stands, rfl, fun rows found => ?_⟩
      cases visit : (SearchStack.descend matrix (matrix.liveColumns base) []).1 with
      | solved depth => exact descend_of_solved visit
      | deadEnd depth | opened depth =>
          rw [coveredBy, visit] at found
          cases found

theorem Finds.start_at {event : Event} (h : Finds matrix base start search rest)
    (fresh : search.phase = .fresh) (run : search.start = .ok (event, after)) :
    At matrix base start after := by
  cases h with
  | fresh represents n tally =>
      obtain ⟨levels, graph, m, tally', phase, stands, same, _⟩ := SearchStack.start_at represents run
      exact ⟨levels, graph, m, tally', phase, stands, same⟩
  | running | done => cases fresh

/-- After a cover has been found a row is being tried in every open column. -/
theorem Finds.found (h : Finds matrix base start search rest)
    (run : search.next = .ok (some rows, after)) :
    ∀ frame ∈ after.frames, frame.row ≠ frame.column := by
  cases h with
  | done => cases run
  | running stands bounded n tally => exact stands.found run
  | fresh represents n tally =>
      have phase : (state matrix [] (start.withUpdates n) tally .fresh).phase = .fresh := rfl
      cases begun : (state matrix [] (start.withUpdates n) tally .fresh).start with
      | error fault => simp only [Search.next, phase, begun, reduceCtorEq] at run
      | ok result =>
          obtain ⟨event, middle⟩ := result
          obtain ⟨levels, graph, m, tally', phase', stands, rfl, bare⟩ :=
            SearchStack.start_at represents begun
          simp only [Search.next, phase, begun] at run
          cases event with
          | busy => exact stands.found run
          | found others =>
              obtain rfl := bare others rfl
              cases run
              exact fun _ listed => absurd listed List.not_mem_nil
          | spent => cases run

end SearchStack

namespace Solver

/-- The searches with which the loop of a call comes to its head. -/
inductive Turns (solver : Solver) : Search → Prop where
  | begins {search after : Search} (before : solver.Reaches search)
      (fresh : search.phase = .fresh) (down : search.start = .ok (.busy, after)) :
      Turns solver after
  | resumes {search : Search} (before : solver.Reaches search)
      (running : search.phase = .running) : Turns solver search
  | goesOn {search after : Search} (before : Turns solver search)
      (step : search.step = .ok (.busy, after)) : Turns solver after

theorem Turns.at {solver : Solver} {search : Search} (h : solver.Turns search)
    (rests : solver.Rests start) (represents : start.Represents matrix base) :
    SearchStack.At matrix base start search := by
  induction h with
  | begins before fresh down =>
      obtain ⟨rest, finds, _⟩ := before.finds rests represents
      exact finds.start_at fresh down
  | resumes before running =>
      obtain ⟨rest, finds, _⟩ := before.finds rests represents
      exact finds.at
  | goesOn before step ih => exact ih.step step

/-- Between the calls of a search with compatible forced rows, and wherever the loop of a call comes to
    its head, the open columns account for the rows being tried and for the graph. After a cover has
    been found a row is being tried in every open column. -/
theorem frames_account_for_search (matrix : IncidenceMatrix) (forced : List Nat)
    (compatible : matrix.Compatible (matrix.forcedRows forced)) :
    ∃ solver, ofMatrix matrix forced = .ok solver ∧
      (∀ search, solver.Reaches search ∨ solver.Turns search →
        search.Invariant matrix solver.graph) ∧
      ∀ search rows after, solver.Reaches search → search.next = .ok (some rows, after) →
        ∀ frame ∈ after.frames, frame.row ≠ frame.column := by
  obtain ⟨start, built, _, clues, represents⟩ := Graph.ofMatrix_compatible compatible
  have rests : (ofGraph start).Rests start := rfl
  have within : ∀ row ∈ start.clueRows,
      matrix.rowAt row ⊆ (matrix.forcedRows forced).flatMap matrix.rowAt :=
    fun row member _ own => List.mem_flatMap.mpr ⟨row, clues ▸ member, own⟩
  refine ⟨ofGraph start, ofMatrix_eq_ok built, fun search stop => ?_, ?_⟩
  · have stands : SearchStack.At matrix ((matrix.forcedRows forced).flatMap matrix.rowAt) start
        search := by
      rcases stop with reached | turns
      · obtain ⟨rest, finds, _⟩ := reached.finds rests represents
        exact finds.at
      · exact turns.at rests represents
    obtain ⟨levels, graph, n, tally, phase, stands, rfl⟩ := stands
    exact stands.invariant (clues ▸ compatible) within n tally phase
  · intro search rows after reached run
    obtain ⟨rest, finds, _⟩ := reached.finds rests represents
    exact finds.found run

/-- The loop begins with column 1 open and none of its rows tried. The first call ends with row 2 being
    tried in it and row 1 in column 0. -/
theorem branching_frames : branching.Compatible (branching.forcedRows [4]) ∧
    ∃ solver turn search, ofMatrix branching [4] = .ok solver ∧ solver.Turns turn ∧
      turn.frames = [⟨Graph.header 1, none⟩] ∧ turn.Invariant branching solver.graph ∧
      solver.search.next = .ok (some [4, 2, 1], search) ∧
      search.frames = [⟨Graph.header 0, some (branching.layout.node 1 0)⟩,
        ⟨Graph.header 1, some (branching.layout.node 2 1)⟩] ∧
      search.Invariant branching solver.graph ∧
      ∀ frame ∈ search.frames, frame.row ≠ frame.column := by
  have compatible : branching.Compatible (branching.forcedRows [4]) := by decide
  obtain ⟨solver, built, accounts, settled⟩ := frames_account_for_search branching [4] compatible
  have begins : (ofMatrix branching [4] >>= fun solver => solver.search.start >>= fun result =>
      .ok (result.1, result.2.frames)) = .ok (.busy, [⟨Graph.header 1, none⟩]) := by
    decide +kernel
  have finds : (ofMatrix branching [4] >>= fun solver => solver.search.next >>= fun result =>
      .ok (result.1, result.2.frames)) = .ok (some [4, 2, 1],
        [⟨Graph.header 0, some (branching.layout.node 1 0)⟩,
          ⟨Graph.header 1, some (branching.layout.node 2 1)⟩]) := by
    decide +kernel
  rw [built] at begins finds
  change solver.search.start >>= _ = _ at begins
  change solver.search.next >>= _ = _ at finds
  obtain ⟨⟨event, turn⟩, down, opened⟩ := exists_of_bind_eq_ok begins
  obtain ⟨rfl, opened⟩ := Prod.mk.inj (Except.ok.inj opened)
  obtain ⟨⟨item, search⟩, call, ends⟩ := exists_of_bind_eq_ok finds
  obtain ⟨rfl, ends⟩ := Prod.mk.inj (Except.ok.inj ends)
  have turns : solver.Turns turn := .begins .opened rfl down
  exact ⟨compatible, solver, turn, search, built, turns, opened, accounts turn (.inr turns), call,
    ends, accounts search (.inl (.called .opened call)), settled _ _ _ .opened call⟩

end Solver

end ExactCover
