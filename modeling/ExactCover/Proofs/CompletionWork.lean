import ExactCover.Proofs.Generation
import ExactCover.Proofs.GivenDigits
import ExactCover.Proofs.SearchDepth
import ExactCover.Proofs.SolverCounters

/-! # The work of completing a board

Each row that is tried fills one blank cell. A search for completions is therefore never deeper
than there are blank cells, and exactly as deep once it has found a completion. On a grid, and on a
board that repeats a digit, nothing is tried.
-/

namespace ExactCover

open IncidenceMatrix AlgorithmX SearchStack SearchTree

/-- A search whose forced rows clash finds nothing and counts nothing. -/
theorem Search.take_of_clash {search : Search} (fresh : search.phase = .fresh)
    (clash : search.graph.isConsistent = false) (n : Nat) :
    ∃ after, search.take n = .ok ([], after) ∧ after.tally = search.tally := by
  cases n with
  | zero => exact ⟨search, rfl, rfl⟩
  | succ n =>
      have stops : search.next = .ok (none, { search with phase := .done }) := by
        rw [next, fresh]
        simp only [start, clash, Bool.false_eq_true, if_false]
      refine ⟨{ search with phase := .done }, ?_, rfl⟩
      simp only [take, stops, bind, Except.bind, pure, Except.pure]

/-- The first covers of compatible forced rows count the places up to where the search has come. -/
theorem Solver.take_stats {matrix : IncidenceMatrix} {forced : List Nat}
    (compatible : matrix.Compatible (matrix.forcedRows forced)) (n : Nat) :
    let covered := (matrix.forcedRows forced).flatMap matrix.rowAt
    let visits := (tree matrix (matrix.liveColumns covered)).visits 0
    let covers := (matrix.coversWith forced).take n
    ∃ solver search count costs, ofMatrix matrix forced = .ok solver ∧
      solver.search.take n = .ok (covers, search) ∧
      search.stats = solver.stats.add (.fromRoot (visits.take count) costs) ∧
      search.stats.solutions = covers.length := by
  intro covered visits covers
  obtain ⟨start, built, consistent, clues, represents⟩ := Graph.ofMatrix_compatible compatible
  have rests : (ofGraph start).Rests start := rfl
  have found : emitted matrix covered start = matrix.coversWith forced := by
    rw [emitted, coversWith, if_pos consistent, if_pos compatible, clues]
  have many : (matrix.coversWith forced).length = visits.countP Visit.isSolved := by
    rw [← found, emitted, if_pos consistent, List.length_map, countP_visits]
  have finds := rests.finds represents
  rw [found] at finds
  obtain ⟨items, search, _, calls, taken, _⟩ := finds.take_eq_pull n
  have stats := Comes.pull_fresh represents consistent _ calls
  obtain ⟨_, first, _⟩ := finds.take n
  obtain ⟨same, rfl⟩ := Prod.mk.inj (Except.ok.inj (taken.symm.trans first))
  refine ⟨ofGraph start, search, _, _, ofMatrix_eq_ok built, first, stats, ?_⟩
  rw [stats, List.length_take]
  calc 0 + (visits.take (reach (min n ((matrix.coversWith forced).length + 1)) visits)).countP
          Visit.isSolved
      = min (min n ((matrix.coversWith forced).length + 1)) (matrix.coversWith forced).length := by
        rw [Nat.zero_add, countP_take_reach, many]
    _ = min n (matrix.coversWith forced).length := by omega

/-- Work that is added to none. -/
theorem Statistics.toTally_zero_add (updates : Nat) (more : Statistics) :
    (add ⟨.zero, updates⟩ more).toTally = more.toTally := by
  simp [add, Tally.zero]

/-- The columns that say which cell a placement fills come first. -/
theorem Placement.markedOnce : Placement.matrix.MarkedOnce (· < 81) := by
  intro n sets
  obtain ⟨column, member⟩ := List.exists_mem_of_ne_nil _ sets
  obtain ⟨_, found, _⟩ := Option.any_eq_true _ _ |>.mp (mem_rowAt.mp member)
  obtain ⟨placement, rfl⟩ := exists_number found
  have cell : placement.row.val * 9 + placement.column.val < 81 := placement.cell.isLt
  rw [rowAt_number]
  simp only [constraints, List.countP_cons, List.countP_nil, cell, decide_true, decide_eq_true_eq]
  rw [if_neg (by omega), if_neg (by omega), if_neg (by omega)]
  rfl

namespace Board

variable {board : Board}

theorem cell_mem_givenColumns {cell : CellIndex} :
    cell.val ∈ board.givenColumns ↔ board.get cell ≠ 0 := by
  have place : cellAt (CellIndex.row cell) (CellIndex.column cell) = cell := cellAt_row_column cell
  have index : (Placement.Rule.filled (CellIndex.row cell) (CellIndex.column cell)).index =
      cell.val := congrArg Fin.val place
  rw [← index, filled_mem_givenColumns, digitAt, place]

/-- The live columns of cells are those of the blank cells. -/
theorem countP_live_add_clueCount (board : Board) :
    (Placement.matrix.liveColumns board.givenColumns).countP (· < 81) + board.clueCount = 81 := by
  have distinct := nodup_liveColumns Placement.matrix board.givenColumns
  have blanks : ((Placement.matrix.liveColumns board.givenColumns).filter (· < 81)).Perm
      (((List.finRange 81).filter (board.get · = 0)).map Fin.val) := by
    apply (List.perm_ext_iff_of_nodup (distinct.filter _)
      (((List.nodup_finRange 81).filter _).map Fin.val_injective)).mpr
    intro j
    rw [List.mem_filter, mem_liveColumns]
    simp only [List.mem_map, List.mem_filter, List.mem_finRange, true_and, decide_eq_true_eq]
    constructor
    · rintro ⟨⟨_, live⟩, below⟩
      refine ⟨⟨j, below⟩, ?_, rfl⟩
      by_contra real
      have given : (⟨j, below⟩ : CellIndex).val ∈ board.givenColumns :=
        cell_mem_givenColumns.mpr real
      exact live given
    · rintro ⟨cell, blank, rfl⟩
      have below : cell.val < Placement.matrix.columns := Nat.lt_trans cell.isLt (by decide)
      exact ⟨⟨below, fun given => cell_mem_givenColumns.mp given blank⟩, cell.isLt⟩
  rw [List.countP_eq_length_filter, blanks.length_eq, List.length_map, clueCount_eq]
  have split := List.length_eq_length_filter_add (l := List.finRange 81) (board.get · = 0)
  rw [List.length_finRange] at split
  simp only [ne_eq, decide_not]
  exact split.symm

/-- On a grid no column stays live. -/
theorem IsGrid.liveColumns_eq_nil (h : board.IsGrid) :
    Placement.matrix.liveColumns board.givenColumns = [] := by
  apply List.eq_nil_iff_forall_not_mem.mpr
  intro j member
  obtain ⟨below, live⟩ := mem_liveColumns.mp member
  obtain ⟨rule, rfl⟩ := Placement.Rule.exists_index below
  obtain ⟨given, has, meets, _⟩ := h.complete rule
  exact live (index_mem_givenColumns.mpr ⟨given, has, meets⟩)

/-- The places that a search for completions comes to when it is never stopped. -/
def searchPlaces (board : Board) : List Visit :=
  (tree Placement.matrix (Placement.matrix.liveColumns board.givenColumns)).visits 0

theorem IsGrid.searchPlaces_eq (h : board.IsGrid) : board.searchPlaces = [.solved 0] := by
  rw [searchPlaces, h.liveColumns_eq_nil, tree_of_none rfl]
  rfl

/-- Completing a board that repeats a digit counts nothing. -/
theorem completions_of_clash (clash : ¬ board.NoRepeats) (n : Nat) : ∃ found,
    board.completions n = .ok found ∧ found.boards = [] ∧ found.stats.toTally = .zero := by
  obtain ⟨start, built, _, _, found⟩ := Graph.ofMatrix_represents Placement.matrix board.clueRows
  have clashes : start.isConsistent = false := by
    rw [← Bool.not_eq_true, Graph.isConsistent_iff, found, commitRows_nil_iff, forcedRows_clueRows,
      compatible_clueRows]
    exact clash
  have fresh : (Solver.ofGraph start).search.phase = .fresh := rfl
  obtain ⟨search, taken, tally⟩ := Search.take_of_clash fresh clashes n
  exact ⟨_, completions_eq (Solver.ofMatrix_eq_ok built) taken rfl, rfl, tally⟩

/-- Completing any other board counts the first of its places. -/
theorem completions_of_noRepeats (rules : board.NoRepeats) (n : Nat) :
    ∃ found count costs, board.completions n = .ok found ∧
      found.stats.toTally =
        (Statistics.fromRoot (board.searchPlaces.take count) costs).toTally ∧
      found.stats.solutions = found.boards.length := by
  have compatible := compatible_clueRows.mpr rules
  rw [← forcedRows_clueRows] at compatible
  obtain ⟨solver, search, count, costs, built, taken, stats, solutions⟩ :=
    Solver.take_stats compatible n
  rw [forcedRows_clueRows] at stats
  have read : ((Placement.matrix.coversWith board.clueRows).take n).mapM ofCover = .ok _ :=
    mapM_ofCover fun rows member => isExactCover_of_found (List.mem_of_mem_take member)
  obtain ⟨start, same, _⟩ := Graph.ofMatrix_represents Placement.matrix board.clueRows
  obtain rfl := Except.ok.inj (built.symm.trans (Solver.ofMatrix_eq_ok same))
  refine ⟨_, count, costs, completions_eq built taken read, ?_,
    solutions.trans (List.length_map _).symm⟩
  rw [stats]
  exact Statistics.toTally_zero_add _ _

/-- The search goes no deeper than there are blank cells. -/
theorem deepest_searchPlaces_le (board : Board) (count : Nat) :
    deepest (board.searchPlaces.take count) ≤ 81 - board.clueCount := by
  have blanks := board.countP_live_add_clueCount
  have bound := deepest_take_le Placement.markedOnce
    (nodup_liveColumns Placement.matrix board.givenColumns) count
  rw [searchPlaces]
  omega

/-- Once it has come to a completion, the search has been as deep as there are blank cells. -/
theorem deepest_searchPlaces_eq {count : Nat}
    (solved : 0 < (board.searchPlaces.take count).countP Visit.isSolved) :
    deepest (board.searchPlaces.take count) = 81 - board.clueCount := by
  have blanks := board.countP_live_add_clueCount
  have bound := deepest_take_eq Placement.markedOnce
    (nodup_liveColumns Placement.matrix board.givenColumns) solved
  rw [searchPlaces]
  omega

/-- No search for completions is deeper than there are blank cells, and one that finds any is as
    deep. Each dead end and each completion takes a row, but for the first place that is come to. -/
theorem completions_work (board : Board) (n : Nat) : ∃ found, board.completions n = .ok found ∧
    found.stats.maxDepth ≤ 81 - board.clueCount ∧
    (found.boards ≠ [] → found.stats.maxDepth = 81 - board.clueCount) ∧
    found.stats.solutions = found.boards.length ∧
    found.stats.deadEnds + found.stats.solutions ≤ found.stats.rowsTried + 1 ∧
    (board.IsGrid ∨ ¬ board.NoRepeats → found.stats.rowsTried = 0) := by
  by_cases rules : board.NoRepeats
  · obtain ⟨found, count, costs, run, tally, solutions⟩ := completions_of_noRepeats rules n
    have places := countP_deadEnd_add_solved_le (board.searchPlaces.take count)
    have solved : found.boards.length = (board.searchPlaces.take count).countP Visit.isSolved :=
      solutions.symm.trans (congrArg Tally.solutions tally)
    refine ⟨found, run, ?_⟩
    rw [solutions, tally, solved]
    refine ⟨board.deepest_searchPlaces_le count, fun some => ?_, rfl, ?_, fun still => ?_⟩
    · exact deepest_searchPlaces_eq (solved ▸ List.length_pos_of_ne_nil some)
    · exact places.trans (Nat.le_add_of_sub_le (Nat.le_refl _))
    · have one := List.length_take_le' count board.searchPlaces
      rw [(still.resolve_right (not_not_intro rules)).searchPlaces_eq] at one ⊢
      exact Nat.sub_eq_zero_of_le one
  · obtain ⟨found, run, none, zero⟩ := completions_of_clash rules n
    refine ⟨found, run, ?_⟩
    rw [zero, none]
    exact ⟨Nat.zero_le _, fun some => absurd rfl some, rfl, Nat.zero_le _, fun _ => rfl⟩

/-- Diagonal boxes leave 54 cells, which are all filled on the way down. A grid is come to at
    once. -/
theorem diagonal_work :
    (∃ found, (ofDiagonal (Generator.shuffledBoxes RandomSource.below (.ofSeed 7)).1).completions 1 =
      .ok found ∧ found.stats.maxDepth = 54) ∧
    ∃ found, shiftedRows.completions 2 = .ok found ∧ found.stats.rowsTried = 0 := by
  constructor
  · obtain ⟨found, run, _, deep, _⟩ := completions_work
      (ofDiagonal (Generator.shuffledBoxes RandomSource.below (.ofSeed 7)).1) 1
    obtain ⟨_, again, first⟩ := exists_completions
      (ofDiagonal (Generator.shuffledBoxes RandomSource.below (.ofSeed 7)).1) 1
    obtain rfl := Except.ok.inj (run.symm.trans again)
    have clues : (ofDiagonal (Generator.shuffledBoxes RandomSource.below (.ofSeed 7)).1).clueCount =
        27 := by decide +kernel
    have listed := mem_grids.mpr Generator.gridOfSeven_completes
    have some : found.boards ≠ [] := by
      rw [first]
      intro none
      cases (List.take_eq_nil_iff.mp none).resolve_left Nat.one_ne_zero ▸ listed
    refine ⟨found, run, ?_⟩
    rw [deep some, clues]
  · obtain ⟨found, run, _, _, _, _, nothing⟩ := completions_work shiftedRows 2
    exact ⟨found, run, nothing (.inl (isGrid_iff.mp (by decide +kernel)))⟩

end Board

end ExactCover
