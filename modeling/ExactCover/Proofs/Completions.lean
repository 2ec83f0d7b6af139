import ExactCover.Sudoku.Completion
import ExactCover.Proofs.Decoding
import ExactCover.Proofs.Solutions

/-! # Completing boards finds every completion

The exact covers that have the placements of a board are the completions of the board, each of them
once. Reading them off never fails.
-/

namespace ExactCover.Board

open IncidenceMatrix

variable {board grid : Board} {rows : List Nat}

/-- The board read off a cover, blank when none can be. -/
def decoded (rows : List Nat) : Board := (ofCover rows).toOption.getD blank

/-- The completions of a board in the order in which they are found. -/
def grids (board : Board) : List Board :=
  (Placement.matrix.coversWith board.clueRows).map decoded

theorem decoded_spec (h : Placement.matrix.IsExactCover rows) :
    ofCover rows = .ok (decoded rows) ∧ rows.Perm (decoded rows).clueRows := by
  obtain ⟨board, read, same⟩ := ofRows_of_isExactCover h
  have equal : decoded rows = board := by
    rw [decoded, ofCover, read]
    rfl
  exact ⟨equal ▸ read, equal ▸ same⟩

theorem forcedRows_clueRows_subset :
    Placement.matrix.forcedRows board.clueRows ⊆ rows ↔ board.clueRows ⊆ rows := by
  constructor
  · intro h n member
    obtain ⟨placement, _, rfl⟩ := mem_clueRows.mp member
    refine h (mem_forcedRows.mpr ⟨member, ?_⟩)
    rw [Placement.rowAt_number]
    exact List.cons_ne_nil _ _
  · exact fun h n member => h (mem_forcedRows.mp member).1

/-- A board has the placements of another one exactly when it keeps its cells that are not blank. -/
theorem clueRows_subset_iff : board.clueRows ⊆ grid.clueRows ↔
    ∀ cell, board.get cell ≠ 0 → grid.get cell = board.get cell := by
  constructor
  · intro h cell real
    refine keeps_of_has (fun placement has => ?_) real
    exact number_mem_clueRows.mp (h (number_mem_clueRows.mpr has))
  · intro keeps n member
    obtain ⟨placement, has, rfl⟩ := mem_clueRows.mp member
    refine number_mem_clueRows.mpr ((keeps placement.cell ?_).trans has)
    rw [has]
    exact placement.digit_ne_zero

theorem mem_grids : grid ∈ board.grids ↔ board.IsCompletion grid := by
  constructor
  · intro member
    obtain ⟨rows, found, rfl⟩ := List.mem_map.mp member
    obtain ⟨exact, has⟩ := isExactCover_of_mem found
    obtain ⟨_, same⟩ := decoded_spec exact
    refine ⟨isExactCover_clueRows.mp (exact.perm same), clueRows_subset_iff.mp ?_⟩
    exact fun n clue => same.mem_iff.mp (forcedRows_clueRows_subset.mp has clue)
  · rintro ⟨isGrid, keeps⟩
    obtain ⟨rows, found, same⟩ := exists_mem_coversWith (isExactCover_clueRows.mpr isGrid)
      (forcedRows_clueRows_subset.mpr (clueRows_subset_iff.mpr keeps))
    obtain ⟨_, order⟩ := decoded_spec (isExactCover_of_mem found).1
    refine List.mem_map.mpr ⟨rows, found, ext_has fun placement => ?_⟩
    rw [← number_mem_clueRows, ← number_mem_clueRows, ← order.mem_iff, same.mem_iff]

theorem nodup_grids (board : Board) : board.grids.Nodup := by
  refine List.pairwise_map.mpr ?_
  refine (pairwise_coversWith _ _).imp_of_mem fun first second apart same => ?_
  obtain ⟨_, one⟩ := decoded_spec (isExactCover_of_mem first).1
  obtain ⟨_, two⟩ := decoded_spec (isExactCover_of_mem second).1
  exact apart (one.trans (same ▸ two.symm))

theorem mapM_ofCover {covers : List (List Nat)}
    (h : ∀ rows ∈ covers, Placement.matrix.IsExactCover rows) :
    covers.mapM ofCover = .ok (covers.map decoded) :=
  mapM_eq_ok fun rows member => (decoded_spec (h rows member)).1

theorem map_ofCover {covers : List (List Nat)}
    (h : ∀ rows ∈ covers, Placement.matrix.IsExactCover rows) (n : Nat) :
    ((List.range n).map (covers[·]?)).map (Option.map ofCover) =
      (List.range n).map fun i => (covers.map decoded)[i]?.map .ok := by
  rw [List.map_map]
  refine List.map_congr_left fun i _ => ?_
  rw [Function.comp_apply, List.getElem?_map]
  cases found : covers[i]? with
  | none => rfl
  | some rows =>
      have read := (decoded_spec (h rows (List.mem_of_getElem? found))).1
      simp only [Option.map_some, read]

theorem completions_eq {solver : Solver} {search : Search} {covers : List (List Nat)}
    {boards : List Board} {n : Nat} (built : board.solver = .ok solver)
    (taken : solver.search.take n = .ok (covers, search))
    (read : covers.mapM ofCover = .ok boards) :
    board.completions n = .ok ⟨boards, search.stats, solver.graph.clash⟩ := by
  rw [completions, built]
  simp only [Except.mapError, taken, read, bind, Except.bind, pure, Except.pure]

theorem completionItems_eq {solver : Solver} {search : Search} {items : List (Option (List Nat))}
    {n : Nat} (built : board.solver = .ok solver)
    (calls : solver.search.pull n = .ok (items, search)) :
    board.completionItems n = .ok (items.map (Option.map ofCover)) := by
  rw [completionItems, built]
  simp only [Except.mapError, calls, bind, Except.bind, pure, Except.pure]

theorem isExactCover_of_found (found : rows ∈ Placement.matrix.coversWith board.clueRows) :
    Placement.matrix.IsExactCover rows :=
  (isExactCover_of_mem found).1

theorem exists_completions (board : Board) (n : Nat) :
    ∃ found, board.completions n = .ok found ∧ found.boards = board.grids.take n := by
  obtain ⟨solver, base, built, finds⟩ := Solver.ofMatrix_finds Placement.matrix board.clueRows
  obtain ⟨search, taken, _⟩ := finds.take n
  have read : ((Placement.matrix.coversWith board.clueRows).take n).mapM ofCover =
      .ok (board.grids.take n) := by
    rw [grids, ← List.map_take]
    exact mapM_ofCover fun rows member => isExactCover_of_found (List.mem_of_mem_take member)
  exact ⟨_, completions_eq built taken read, rfl⟩

theorem completionsUpTo_eq (board : Board) (n : Nat) :
    board.completionsUpTo n = .ok (board.grids.take n) := by
  obtain ⟨found, run, boards⟩ := board.exists_completions n
  rw [completionsUpTo, run, ← boards]
  rfl

/-- Completing a board never fails and finds its completions, each exactly once: one after the
    other, or as many of the first of them as are asked for. -/
theorem completions_exhaustive (board : Board) : ∃ grids : List Board, grids.Nodup ∧
    (∀ grid, grid ∈ grids ↔ board.IsCompletion grid) ∧ ∀ n,
      board.completionItems n = .ok ((List.range n).map fun i => grids[i]?.map .ok) ∧
      board.completionsUpTo n = .ok (grids.take n) ∧
      ∃ found, board.completions n = .ok found ∧ found.boards = grids.take n := by
  obtain ⟨solver, base, built, finds⟩ := Solver.ofMatrix_finds Placement.matrix board.clueRows
  refine ⟨board.grids, board.nodup_grids, fun grid => mem_grids, fun n => ?_⟩
  obtain ⟨_, calls, _⟩ := finds.pull n
  refine ⟨?_, board.completionsUpTo_eq n, board.exists_completions n⟩
  exact (completionItems_eq built calls).trans
    (congrArg Except.ok (map_ofCover (fun _ => isExactCover_of_found) n))

end ExactCover.Board
