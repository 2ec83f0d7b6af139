import ExactCover.Proofs.ClueRemoval
import ExactCover.Proofs.ExactSearch
import ExactCover.Proofs.Masks

/-! # Three descriptions of a grid

A board is checked by collecting the digits of every row, column and box as bits. The check accepts
just the boards that hold every digit once in each of them, and these are the boards whose
placements are an exact cover. Every exact cover of the placement matrix comes from one such board.
-/

namespace ExactCover

namespace Board

/-! ### Digits as bits -/

variable {board other : Board} {cells : Fin 9 → CellIndex} {rows : List Nat}

theorem testBit_digitMask {i : Nat} :
    (board.digitMask cells).testBit i = true ↔ ∃ k, (board.get (cells k)).val = i := by
  rw [digitMask, testBit_foldl_or]
  simp

theorem testBit_realMask {i : Nat} : realMask.testBit i = true ↔ 0 < i ∧ i < 10 := by
  by_cases below : i < 10
  · interval_cases i <;> decide
  · have small : realMask < 2 ^ i :=
      calc realMask < 2 ^ 10 := by decide
        _ ≤ 2 ^ i := Nat.pow_le_pow_right Nat.two_pos (Nat.le_of_not_lt below)
    rw [Nat.testBit_lt_two_pow small]
    simp [below]

/-- The check of some cells succeeds when they hold the digits one to nine and no blank. -/
theorem showsAll_iff :
    board.showsAll cells = true ↔ ∀ digit, (∃ k, board.get (cells k) = digit) ↔ digit ≠ 0 := by
  have bit : ∀ digit : Digit, (board.digitMask cells).testBit digit = true ↔
      ∃ k, board.get (cells k) = digit := by
    intro digit
    simp only [testBit_digitMask, Fin.ext_iff]
  have real : ∀ digit : Digit, realMask.testBit digit = true ↔ digit ≠ 0 := by
    intro digit
    have := digit.isLt
    rw [testBit_realMask, ne_eq, Fin.ext_iff, Fin.val_zero]
    omega
  rw [showsAll, beq_iff_eq]
  constructor
  · intro same digit
    rw [← bit, same, real]
  · intro shown
    apply Nat.eq_of_testBit_eq
    intro i
    rw [Bool.eq_iff_iff]
    by_cases below : i < 10
    · exact (bit ⟨i, below⟩).trans ((shown ⟨i, below⟩).trans (real ⟨i, below⟩).symm)
    · rw [testBit_digitMask, testBit_realMask]
      constructor
      · rintro ⟨k, rfl⟩
        exact absurd (board.get (cells k)).isLt below
      · intro inside
        exact absurd inside.2 below

/-- Nine places that show nine digits show each of them once and nothing else. -/
theorem holds_each_iff {held : Fin 9 → Digit} :
    (∀ digit, (∃ k, held k = digit) ↔ digit ≠ 0) ↔
      ∀ digit ≠ 0, ∃ k, held k = digit ∧ ∀ other, held other = digit → other = k := by
  constructor
  · intro shown digit real
    choose place holds using fun rank : Fin 9 => (shown rank.succ).mpr (Fin.succ_ne_zero rank)
    obtain ⟨rank, rfl⟩ := Fin.exists_succ_eq.mpr real
    refine ⟨place rank, holds rank, fun other found => ?_⟩
    obtain ⟨there, rfl⟩ := surjective_of_holds holds other
    rw [holds] at found
    rw [Fin.succ_inj.mp found]
  · intro each digit
    constructor
    · rintro ⟨k, rfl⟩ blank
      choose place holds _ using fun rank : Fin 9 => each rank.succ (Fin.succ_ne_zero rank)
      obtain ⟨rank, rfl⟩ := surjective_of_holds holds k
      exact Fin.succ_ne_zero rank ((holds rank).symm.trans blank)
    · intro real
      obtain ⟨k, found, _⟩ := each digit real
      exact ⟨k, found⟩

/-- The check by bits accepts the boards that are grids. -/
theorem isGrid_iff : board.isGrid = true ↔ board.IsGrid := by
  have parts : board.isGrid = true ↔ board.isFilled = true ∧ ∀ i : Fin 9,
      (board.showsAll (fun column => cellAt i column) = true ∧
        board.showsAll (fun row => cellAt row i) = true) ∧ board.showsAll (boxCell i) = true := by
    simp only [isGrid, Bool.and_eq_true, List.all_eq_true, List.mem_finRange, true_imp_iff]
  simp only [parts, showsAll_iff, holds_each_iff]
  constructor
  · rintro ⟨_, shown⟩
    exact ⟨fun r => (shown r).1.1, fun c => (shown c).1.2, fun b => (shown b).2⟩
  · intro grid
    exact ⟨isFilled_of_get grid.get_ne_zero,
      fun i => ⟨⟨grid.row i, grid.column i⟩, grid.box i⟩⟩

/-! ### Exact covers as grids -/

/-- A board has as many placements as clues. -/
theorem length_clueRows (board : Board) : board.clueRows.length = board.clueCount := by
  have shown : ∀ cell, ((board.placementAt? cell).map Placement.number).isSome =
      decide (board.get cell ≠ 0) := by
    intro cell
    rw [Option.isSome_map, Bool.eq_iff_iff, decide_eq_true_iff, Option.isSome_iff_exists]
    simp only [placementAt?_eq_some]
    constructor
    · rintro ⟨placement, rfl, has⟩
      exact has.symm ▸ placement.digit_ne_zero
    · exact exists_has
  rw [clueRows, clueCount_eq, List.length_filterMap_eq_countP, List.countP_eq_length_filter]
  simp only [shown]

theorem clueRows_inj (same : ∀ n, n ∈ board.clueRows ↔ n ∈ other.clueRows) : board = other := by
  apply ext_has
  intro placement
  rw [← number_mem_clueRows, ← number_mem_clueRows, same]

/-- An exact cover of the placement matrix is the placements of a grid. -/
theorem exists_grid (h : Placement.matrix.IsExactCover rows) :
    ∃ board : Board, board.IsGrid ∧ rows.Perm board.clueRows := by
  obtain ⟨board, _, same⟩ := ofRows_of_isExactCover h
  exact ⟨board, isExactCover_clueRows.mp (h.perm same), same⟩

theorem IsGrid.length_clueRows (h : board.IsGrid) : board.clueRows.length = 81 := by
  have all : (List.finRange 81).filter (board.get · ≠ 0) = List.finRange 81 := by
    apply List.filter_eq_self.mpr
    intro cell _
    exact decide_eq_true (h.get_ne_zero cell)
  rw [Board.length_clueRows, clueCount_eq, all, List.length_finRange]

theorem isGrid_iff_isExactCover :
    board.isGrid = true ↔ Placement.matrix.IsExactCover board.clueRows :=
  isGrid_iff.trans isExactCover_clueRows.symm

/-- The placements of grids are the exact covers, taken as sets. -/
theorem bijOn_clueRows :
    Set.BijOn (fun board : Board => board.clueRows.toFinset) {board | board.isGrid = true}
      {rows | Placement.matrix.IsExactCover rows.toList} := by
  apply Set.BijOn.mk
  · intro board grid
    have listed := List.toFinset_toList board.nodup_clueRows
    exact (isGrid_iff_isExactCover.mp grid).perm listed.symm
  · intro board _ other _ same
    apply clueRows_inj
    intro n
    have member : n ∈ board.clueRows.toFinset ↔ n ∈ other.clueRows.toFinset := by
      rw [show board.clueRows.toFinset = other.clueRows.toFinset from same]
    rwa [List.mem_toFinset, List.mem_toFinset] at member
  · intro rows h
    obtain ⟨board, grid, same⟩ := exists_grid h
    refine ⟨board, isGrid_iff.mpr grid, ?_⟩
    ext n
    rw [List.mem_toFinset, ← same.mem_iff, Finset.mem_toList]

/-- The check by bits accepts a board exactly when every row, column and box of it holds each digit
    once, and exactly when its placements are an exact cover. The rows of an exact cover are the
    placements of one board only, a grid. -/
theorem grids_are_exact_covers :
    (∀ board : Board, (board.isGrid = true ↔ board.IsGrid) ∧
      (board.isGrid = true ↔ Placement.matrix.IsExactCover board.clueRows)) ∧
    (∀ rows, Placement.matrix.IsExactCover rows → rows.length = 81 ∧
      ∃ board : Board, board.isGrid = true ∧ (∀ n, n ∈ rows ↔ n ∈ board.clueRows) ∧
        ∀ other : Board, (∀ n, n ∈ rows ↔ n ∈ other.clueRows) → other = board) ∧
    Set.BijOn (fun board : Board => board.clueRows.toFinset) {board | board.isGrid = true}
      {rows | Placement.matrix.IsExactCover rows.toList} := by
  refine ⟨fun board => ⟨isGrid_iff, isGrid_iff_isExactCover⟩, fun rows h => ?_, bijOn_clueRows⟩
  obtain ⟨board, grid, same⟩ := exists_grid h
  refine ⟨same.length_eq.trans grid.length_clueRows, board, isGrid_iff.mpr grid,
    fun n => same.mem_iff, ?_⟩
  intro other also
  apply clueRows_inj
  intro n
  rw [← also, same.mem_iff]

/-- A grid whose rows are one row, moved on by different lengths. -/
def shiftedRows : Board :=
  ofFn fun r c => ⟨(r % 3 * 3 + r / 3 + c) % 9 + 1, by omega⟩

theorem shiftedRows_covers : Placement.matrix.IsExactCover shiftedRows.clueRows ∧
    shiftedRows.clueRows.length = 81 := by
  have grid : shiftedRows.isGrid = true := by decide +kernel
  have covers := (grids_are_exact_covers.1 shiftedRows).2.mp grid
  exact ⟨covers, (grids_are_exact_covers.2.1 _ covers).1⟩

end Board

end ExactCover
