import ExactCover.Sudoku.Completion
import ExactCover.Proofs.CoverHistory
import ExactCover.Proofs.GridRules

/-! # What the graph of a board says about its digits

The placements of a board are forced rows of the placement matrix. They clash exactly when a digit
stands twice in a row, a column or a box. Otherwise four columns are covered for each given digit,
and under the column of a blank cell stand the digits that may still be put there.
-/

namespace ExactCover

namespace Board

open Placement IncidenceMatrix

variable {board : Board} {cells : Fin 9 → CellIndex} {row column rank : Fin 9}
  {placement : Placement}

/-- No two of these cells hold the same digit. Blanks do not count. -/
def Once (board : Board) (cells : Fin 9 → CellIndex) : Prop :=
  ∀ k k', board.get (cells k) ≠ 0 → board.get (cells k) = board.get (cells k') → k = k'

/-- No digit stands twice in a row, a column or a box. -/
structure NoRepeats (board : Board) : Prop where
  row : ∀ r, board.Once fun c => cellAt r c
  column : ∀ c, board.Once fun r => cellAt r c
  box : ∀ b, board.Once (boxCell b)

theorem box_inside (row column : Fin 9) : row.val / 3 * 3 + column.val / 3 < 9 := by omega

/-- The box that holds the cell in a row and a column. -/
def boxAt (row column : Fin 9) : Fin 9 := ⟨row / 3 * 3 + column / 3, box_inside row column⟩

/-- The digit is not blank, and the board does not have it in the row, the column or the box of a
    cell. -/
def Fits (board : Board) (row column : Fin 9) (digit : Digit) : Prop :=
  digit ≠ 0 ∧ (∀ c, board.digitAt row c ≠ digit) ∧ (∀ r, board.digitAt r column ≠ digit) ∧
    ∀ k, board.get (boxCell (boxAt row column) k) ≠ digit

instance (board : Board) (row column : Fin 9) : DecidablePred (board.Fits row column) :=
  fun _ => inferInstanceAs (Decidable (_ ∧ _ ∧ _ ∧ _))

/-- The digits that may be put into a cell, in ascending order. -/
def fitting (board : Board) (row column : Fin 9) : List Digit :=
  (List.finRange 10).filter (board.Fits row column ·)

/-! ### Lines of nine cells -/

/-- The placement puts a digit into one of these cells. -/
def OnLine (cells : Fin 9 → CellIndex) (rank : Fin 9) (placement : Placement) : Prop :=
  (∃ k, cells k = placement.cell) ∧ placement.rank = rank

theorem cellAt_eq_iff {r c r' c' : Fin 9} : cellAt r c = cellAt r' c' ↔ r = r' ∧ c = c' := by
  simp only [cellAt, Fin.ext_iff]
  omega

theorem boxCell_injective (b : Fin 9) : Function.Injective (boxCell b) := by
  intro k k' same
  simp only [boxCell, cellAt, Fin.ext_iff] at same ⊢
  omega

theorem meets_row {r : Fin 9} :
    (Rule.row r rank).Meets placement ↔ OnLine (fun c => cellAt r c) rank placement := by
  simp [Rule.Meets, OnLine, Placement.cell, cellAt_eq_iff, eq_comm]

theorem meets_column {c : Fin 9} :
    (Rule.column c rank).Meets placement ↔ OnLine (fun r => cellAt r c) rank placement := by
  simp [Rule.Meets, OnLine, Placement.cell, cellAt_eq_iff, eq_comm]

theorem meets_box {b : Fin 9} :
    (Rule.box b rank).Meets placement ↔ OnLine (boxCell b) rank placement := by
  rw [Rule.Meets, OnLine]
  refine and_congr_left fun _ => ?_
  constructor
  · intro inside
    exact ⟨_, inside ▸ boxCell_boxPlace placement⟩
  · rintro ⟨k, there⟩
    simp only [boxCell, Placement.cell, cellAt, boxOf, box, Fin.ext_iff] at there ⊢
    omega

theorem once_iff (injective : Function.Injective cells) : board.Once cells ↔
    ∀ rank one two, board.Has one → board.Has two → OnLine cells rank one →
      OnLine cells rank two → one = two := by
  constructor
  · rintro once _ one two hasOne hasTwo ⟨⟨k, here⟩, rfl⟩ ⟨⟨k', there⟩, ranks⟩
    have digits : one.digit = two.digit := congrArg Fin.succ ranks.symm
    have real : board.get (cells k) ≠ 0 := by
      rw [here, hasOne]
      exact one.digit_ne_zero
    have same : board.get (cells k) = board.get (cells k') := by
      rw [here, there, hasOne, hasTwo, digits]
    obtain rfl := once k k' real same
    exact ext_cell (here.symm.trans there) digits
  · intro unique k k' real same
    obtain ⟨one, here, hasOne⟩ := exists_has real
    obtain ⟨two, there, hasTwo⟩ := exists_has (same ▸ real)
    have digits : one.digit = two.digit := by
      rw [← hasOne, ← hasTwo, here, there, same]
    have equal := unique one.rank one two hasOne hasTwo ⟨⟨k, here.symm⟩, rfl⟩
      ⟨⟨k', there.symm⟩, (Fin.succ_inj.mp digits).symm⟩
    exact injective (here.symm.trans ((congrArg Placement.cell equal).trans there))

theorem lacks_iff :
    (∀ k, board.get (cells k) ≠ rank.succ) ↔ ∀ given, board.Has given → ¬ OnLine cells rank given := by
  constructor
  · rintro lacks given has ⟨⟨k, there⟩, rfl⟩
    exact lacks k (there ▸ has)
  · intro none k held
    obtain ⟨given, there, has⟩ := exists_has (held ▸ Fin.succ_ne_zero rank)
    refine none given has ⟨⟨k, there.symm⟩, Fin.succ_inj.mp ?_⟩
    exact has.symm.trans ((congrArg board.get there).trans held)

/-! ### Repeated digits -/

/-- A board repeats no digit when no two of its placements meet the same rule. -/
theorem noRepeats_iff : board.NoRepeats ↔ ∀ (rule : Rule) (one two : Placement),
    board.Has one → board.Has two → rule.Meets one → rule.Meets two → one = two := by
  have rows : ∀ r, Function.Injective fun c => cellAt r c := fun r c c' h => (cellAt_eq_iff.mp h).2
  have columns : ∀ c, Function.Injective fun r => cellAt r c := fun c r r' h => (cellAt_eq_iff.mp h).1
  constructor
  · intro h rule one two hasOne hasTwo
    cases rule with
    | filled r c =>
        rintro ⟨rfl, rfl⟩ ⟨sameRow, sameColumn⟩
        have there : one.cell = two.cell := congrArg₂ cellAt sameRow.symm sameColumn.symm
        exact ext_cell there (hasOne.symm.trans ((congrArg board.get there).trans hasTwo))
    | row r rank =>
        rw [meets_row, meets_row]
        exact (once_iff (rows r)).mp (h.row r) rank one two hasOne hasTwo
    | column c rank =>
        rw [meets_column, meets_column]
        exact (once_iff (columns c)).mp (h.column c) rank one two hasOne hasTwo
    | box b rank =>
        rw [meets_box, meets_box]
        exact (once_iff (boxCell_injective b)).mp (h.box b) rank one two hasOne hasTwo
  · intro unique
    constructor
    case row =>
      intro r
      rw [once_iff (rows r)]
      simpa only [meets_row] using fun rank => unique (.row r rank)
    case column =>
      intro c
      rw [once_iff (columns c)]
      simpa only [meets_column] using fun rank => unique (.column c rank)
    case box =>
      intro b
      rw [once_iff (boxCell_injective b)]
      simpa only [meets_box] using fun rank => unique (.box b rank)

theorem pairwise_clueRows (board : Board) : board.clueRows.Pairwise (· < ·) := by
  have ascending : (List.finRange 81).Pairwise (· < ·) := List.pairwise_lt_finRange 81
  refine List.pairwise_filterMap.mpr (ascending.imp ?_)
  intro one two before n first m second
  obtain ⟨here, found, rfl⟩ := Option.map_eq_some_iff.mp first
  obtain ⟨there, found', rfl⟩ := Option.map_eq_some_iff.mp second
  obtain ⟨rfl, _⟩ := placementAt?_eq_some.mp found
  obtain ⟨rfl, _⟩ := placementAt?_eq_some.mp found'
  simp only [Placement.cell, cellAt, Fin.lt_def] at before
  simp only [number]
  omega

theorem forcedRows_clueRows (board : Board) :
    Placement.matrix.forcedRows board.clueRows = board.clueRows := by
  apply (pairwise_forcedRows _).eq_of_mem_iff board.pairwise_clueRows
  intro n
  rw [mem_forcedRows]
  constructor
  · exact And.left
  · intro member
    obtain ⟨placement, _, rfl⟩ := mem_clueRows.mp member
    rw [rowAt_number]
    exact ⟨member, List.cons_ne_nil _ _⟩

/-- Two placements that set a column in common meet the rule of the column. -/
theorem compatible_clueRows : Placement.matrix.Compatible board.clueRows ↔ board.NoRepeats := by
  rw [noRepeats_iff]
  constructor
  · intro compatible rule one two hasOne hasTwo meetsOne meetsTwo
    have symm : Std.Symm fun a b : Nat =>
        ∀ j ∈ Placement.matrix.rowAt a, j ∉ Placement.matrix.rowAt b :=
      ⟨fun a b apart j there here => apart j here there⟩
    by_contra differs
    have apart := compatible.forall (number_mem_clueRows.mpr hasOne)
      (number_mem_clueRows.mpr hasTwo) (fun same => differs (number_inj same)) rule.index
    rw [rowAt_number, rowAt_number] at apart
    exact apart ((rule.index_mem_constraints one).mpr meetsOne)
      ((rule.index_mem_constraints two).mpr meetsTwo)
  · intro unique
    apply board.nodup_clueRows.pairwise_of_forall_ne
    intro a memberA b memberB differs j here there
    obtain ⟨one, hasOne, rfl⟩ := mem_clueRows.mp memberA
    obtain ⟨two, hasTwo, rfl⟩ := mem_clueRows.mp memberB
    rw [rowAt_number] at here there
    obtain ⟨rule, rfl⟩ := Rule.exists_index (constraints_lt here)
    have same := unique rule one two hasOne hasTwo ((rule.index_mem_constraints one).mp here)
      ((rule.index_mem_constraints two).mp there)
    exact differs (congrArg number same)

/-! ### Given digits -/

/-- The columns of the given placements. -/
def givenColumns (board : Board) : List Nat := board.clueRows.flatMap Placement.matrix.rowAt

theorem index_mem_givenColumns {rule : Rule} :
    rule.index ∈ board.givenColumns ↔ ∃ given, board.Has given ∧ rule.Meets given := by
  simp only [givenColumns, List.mem_flatMap]
  constructor
  · rintro ⟨n, member, sets⟩
    obtain ⟨given, has, rfl⟩ := mem_clueRows.mp member
    rw [rowAt_number] at sets
    exact ⟨given, has, (rule.index_mem_constraints given).mp sets⟩
  · rintro ⟨given, has, meets⟩
    refine ⟨given.number, number_mem_clueRows.mpr has, ?_⟩
    rw [rowAt_number]
    exact (rule.index_mem_constraints given).mpr meets

theorem length_givenColumns (board : Board) :
    board.givenColumns.length = 4 * board.clueCount := by
  have four : ∀ n ∈ board.clueRows, (Placement.matrix.rowAt n).length = 4 := by
    intro n member
    obtain ⟨given, _, rfl⟩ := mem_clueRows.mp member
    rw [rowAt_number]
    rfl
  rw [givenColumns, List.length_flatMap, List.map_congr_left four, List.map_const', List.sum_replicate,
    smul_eq_mul, length_clueRows, Nat.mul_comm]

theorem filled_mem_givenColumns :
    (Rule.filled row column).index ∈ board.givenColumns ↔ board.digitAt row column ≠ 0 := by
  rw [index_mem_givenColumns]
  constructor
  · rintro ⟨given, has, rfl, rfl⟩ blank
    exact given.digit_ne_zero (has.symm.trans blank)
  · intro real
    obtain ⟨rank, held⟩ := Fin.exists_succ_eq.mpr real
    exact ⟨⟨row, column, rank⟩, held.symm, rfl, rfl⟩

theorem index_notMem_givenColumns {rule : Rule} (line : ∀ placement,
    rule.Meets placement ↔ OnLine cells rank placement) :
    rule.index ∉ board.givenColumns ↔ ∀ k, board.get (cells k) ≠ rank.succ := by
  simp only [index_mem_givenColumns, lacks_iff, line, not_exists, not_and]

/-- A digit fits into a blank cell when its placement sets no column of a given one. -/
theorem fits_iff (blank : board.digitAt row column = 0) : board.Fits row column rank.succ ↔
    ∀ j ∈ (Placement.mk row column rank).constraints, j ∉ board.givenColumns := by
  have rules : (Placement.mk row column rank).constraints = [(Rule.filled row column).index,
      (Rule.row row rank).index, (Rule.column column rank).index,
      (Rule.box (boxAt row column) rank).index] := rfl
  have filled : (Rule.filled row column).index ∉ board.givenColumns := by
    simp [filled_mem_givenColumns, blank]
  rw [rules]
  simp only [List.forall_mem_cons, index_notMem_givenColumns fun _ => meets_row,
    index_notMem_givenColumns fun _ => meets_column, index_notMem_givenColumns fun _ => meets_box]
  simp [Fits, filled, digitAt, Fin.succ_ne_zero]

theorem mem_rowsUnder_blank (blank : board.digitAt row column = 0) {n : Nat} :
    n ∈ Placement.matrix.rowsUnder board.givenColumns (Rule.filled row column).index ↔
      ∃ rank : Fin 9, board.Fits row column rank.succ ∧ (Placement.mk row column rank).number = n := by
  have alive : (Rule.filled row column).index ∉ board.givenColumns := by
    simp [filled_mem_givenColumns, blank]
  have clear : ∀ placement : Placement,
      (∀ j ∈ board.givenColumns, Placement.matrix.get placement.number j = false) ↔
        ∀ j ∈ placement.constraints, j ∉ board.givenColumns := by
    intro placement
    simp only [← get_number, ← Bool.not_eq_true]
    exact ⟨fun h j sets given => h j given sets, fun h j given sets => h j sets given⟩
  rw [mem_rowsUnder_of_live alive]
  constructor
  · rintro ⟨sets, apart⟩
    obtain ⟨_, found, _⟩ := Option.any_eq_true _ _ |>.mp sets
    obtain ⟨placement, rfl⟩ := exists_number found
    obtain ⟨rfl, rfl⟩ := (Rule.index_mem_constraints _ _).mp (get_number.mp sets)
    exact ⟨placement.rank, (fits_iff blank).mpr ((clear placement).mp apart), rfl⟩
  · rintro ⟨rank, fits, rfl⟩
    refine ⟨get_number.mpr ((Rule.index_mem_constraints _ _).mpr ⟨rfl, rfl⟩), ?_⟩
    exact (clear _).mpr ((fits_iff blank).mp fits)

/-- Under the column of a blank cell stand the placements of the digits that fit there. -/
theorem rowsUnder_blank (blank : board.digitAt row column = 0) :
    Placement.matrix.rowsUnder board.givenColumns (Rule.filled row column).index =
      (board.fitting row column).map fun digit => row.val * 81 + column.val * 9 + (digit.val - 1) := by
  have ascending : (Placement.matrix.rowsUnder board.givenColumns
      (Rule.filled row column).index).Pairwise (· < ·) := List.pairwise_lt_range.filter _
  apply ascending.eq_of_mem_iff
  · apply List.pairwise_map.mpr
    refine ((List.pairwise_lt_finRange 10).filter _).imp_of_mem fun first _ before => ?_
    have real := (of_decide_eq_true (List.mem_filter.mp first).2).1
    have positive := Fin.pos_iff_ne_zero.mpr real
    rw [Fin.lt_def] at before positive
    omega
  · intro n
    rw [mem_rowsUnder_blank blank, List.mem_map]
    constructor
    · rintro ⟨rank, fits, rfl⟩
      exact ⟨rank.succ, List.mem_filter.mpr ⟨List.mem_finRange _, decide_eq_true fits⟩, rfl⟩
    · rintro ⟨digit, member, rfl⟩
      have fits := of_decide_eq_true (List.mem_filter.mp member).2
      obtain ⟨rank, rfl⟩ := Fin.exists_succ_eq.mpr fits.1
      exact ⟨rank, fits, rfl⟩

/-! ### The graph of a board -/

/-- What a consistent graph says about a board. -/
structure ShownBy (board : Board) (graph : Graph) : Prop where
  clueRows : graph.clueRows = board.clueRows
  /-- Each given digit covers four columns. The columns of the blank cells stay. -/
  live : ∃ live, graph.liveHeaders = .ok live ∧ live.length + 4 * board.clueCount = 324 ∧
    ∀ row column, Graph.header (cellAt row column) ∈ live ↔ board.digitAt row column = 0
  count : ∀ row column, board.digitAt row column = 0 →
    graph.countOf (Graph.header (cellAt row column)) = .ok (board.fitting row column).length

/-- Columns that are covered once each are missing from the live ones. -/
theorem length_liveColumns {matrix : IncidenceMatrix} {covered : List Nat} (distinct : covered.Nodup)
    (inside : covered ⊆ matrix.liveColumns []) :
    (matrix.liveColumns covered).length + covered.length = matrix.columns := by
  have gone : ((List.range matrix.columns).filter (· ∈ covered)).Perm covered := by
    apply (List.perm_ext_iff_of_nodup (List.nodup_range.filter _) distinct).mpr
    intro j
    have below : j ∈ covered → j < matrix.columns := fun member => (mem_liveColumns.mp (inside member)).1
    simpa using below
  have split := List.length_eq_length_filter_add (l := List.range matrix.columns) (· ∈ covered)
  rw [List.length_range, gone.length_eq] at split
  simp only [liveColumns, decide_not]
  omega

/-- A graph with the columns of the given placements covered shows the board. -/
theorem shownBy_of_represents {graph : Graph}
    (represents : graph.Represents Placement.matrix board.givenColumns)
    (clues : graph.clueRows = board.clueRows) (distinct : board.givenColumns.Nodup)
    (inside : board.givenColumns ⊆ Placement.matrix.liveColumns []) : board.ShownBy graph where
  clueRows := clues
  live := by
    refine ⟨_, represents.shows.root_ring.ring_eq, ?_, ?_⟩
    · rw [List.length_map, ← length_givenColumns, length_liveColumns distinct inside]
      rfl
    · intro row column
      have index : (cellAt row column).val = (Rule.filled row column).index := rfl
      have below := (Rule.filled row column).index_lt
      have heads : Function.Injective Graph.header := fun a b same => Nat.succ.inj same
      rw [List.mem_map_of_injective heads, index, mem_liveColumns, filled_mem_givenColumns, not_not]
      exact and_iff_right below
  count := by
    intro row column blank
    have counted := represents.shows.counts (Rule.filled row column).index_lt
    rw [rowsUnder_blank blank, List.length_map] at counted
    have place : Graph.header (cellAt row column) = Graph.header (Rule.filled row column).index := rfl
    simp only [Graph.countOf, place, counted]

/-- The graph of a board is consistent when the board repeats no digit in a row, a column or a box,
    and then shows what the board's digits leave open. -/
theorem solver_shows_digits (board : Board) : ∃ solver, board.solver = .ok solver ∧
    (solver.graph.isConsistent = true ↔ board.NoRepeats) ∧
    (solver.graph.isConsistent = true → board.ShownBy solver.graph) := by
  obtain ⟨graph, built, represents, clues, clash⟩ :=
    Graph.ofMatrix_represents Placement.matrix board.clueRows
  obtain ⟨added, same, distinct, inside⟩ :=
    Placement.matrix.commitRows_live (Placement.matrix.forcedRows board.clueRows) []
  rw [forcedRows_clueRows] at represents clues clash same
  refine ⟨Solver.ofGraph graph, Solver.ofMatrix_eq_ok built, ?_, fun consistent => ?_⟩
  · rw [Solver.ofGraph, Graph.isConsistent_iff, clash, commitRows_nil_iff, compatible_clueRows]
  · have none := clash.symm.trans (Graph.isConsistent_iff.mp consistent)
    have given : (Placement.matrix.commitRows board.clueRows []).1 = board.givenColumns :=
      commitRows_fst none
    obtain rfl : added = board.givenColumns := by simpa using same.symm.trans given
    exact shownBy_of_represents (given ▸ represents) clues distinct inside

end Board

end ExactCover
