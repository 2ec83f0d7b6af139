import ExactCover.Sudoku.Placement
import ExactCover.Proofs.Layout

/-! # Grids as exact covers

A board has a placement when the placement's cell holds its digit. The matrix rows of the
placements of a board are an exact cover exactly when the board is a grid: each column of the matrix
is one of the rules, and a rule is kept when one placement of the board sets its column.
-/

namespace ExactCover

open IncidenceMatrix

namespace Placement

/-- The cell of a placement. -/
def cell (placement : Placement) : CellIndex := cellAt placement.row placement.column

/-- The digit of a placement. -/
def digit (placement : Placement) : Digit := ⟨placement.rank + 1, by omega⟩

variable {placement other : Placement}

theorem number_lt (placement : Placement) : placement.number < 729 := by
  simp only [number]
  omega

theorem ofNumber_number (placement : Placement) :
    ofNumber ⟨placement.number, placement.number_lt⟩ = placement := by
  obtain ⟨row, column, rank⟩ := placement
  simp only [ofNumber, number, mk.injEq, Fin.ext_iff]
  omega

theorem number_ofNumber (n : Fin 729) : (ofNumber n).number = n := by
  simp only [ofNumber, number]
  omega

theorem number_inj (same : placement.number = other.number) : placement = other := by
  rw [← ofNumber_number placement, ← ofNumber_number other]
  simp only [same]

theorem digit_ne_zero (placement : Placement) : placement.digit ≠ 0 :=
  fun blank => Nat.succ_ne_zero _ (congrArg Fin.val blank)

/-- Every digit but the blank one, in any cell, is that of a placement. -/
theorem exists_placement (row column : Fin 9) {held : Digit} (real : held ≠ 0) :
    ∃ placement : Placement, placement.row = row ∧ placement.column = column ∧
      placement.digit = held := by
  have positive : held.val ≠ 0 := fun zero => real (Fin.ext zero)
  refine ⟨⟨row, column, ⟨held - 1, by omega⟩⟩, rfl, rfl, Fin.ext ?_⟩
  simp only [digit]
  omega

theorem ext_digit (rows : placement.row = other.row) (columns : placement.column = other.column)
    (digits : placement.digit = other.digit) : placement = other := by
  obtain ⟨row, column, rank⟩ := placement
  obtain ⟨row', column', rank'⟩ := other
  simp only [digit, Fin.ext_iff] at digits
  simp only [mk.injEq, Fin.ext_iff] at rows columns ⊢
  omega

theorem row?_matrix (n : Nat) :
    matrix.row? n = if h : n < 729 then some (ofNumber ⟨n, h⟩).constraints else none := by
  simp only [row?, matrix, Array.getElem?_ofFn]

theorem row?_number (placement : Placement) :
    matrix.row? placement.number = some placement.constraints := by
  rw [row?_matrix, dif_pos placement.number_lt, ofNumber_number]

theorem get_number {column : Nat} :
    matrix.get placement.number column = true ↔ column ∈ placement.constraints := by
  rw [IncidenceMatrix.get_eq, row?_number, Option.any_some, List.contains_iff_mem]

theorem rowAt_number (placement : Placement) :
    matrix.rowAt placement.number = placement.constraints := by
  rw [rowAt, row?_number, Option.getD_some]

theorem exists_number {n : Nat} {columns : List Nat} (found : matrix.row? n = some columns) :
    ∃ placement : Placement, placement.number = n := by
  rw [row?_matrix] at found
  split at found
  · rename_i below
    exact ⟨ofNumber ⟨n, below⟩, number_ofNumber ⟨n, below⟩⟩
  · exact absurd found.symm (Option.some_ne_none columns)

/-! ### The rules -/

theorem box_lt (placement : Placement) : placement.box < 9 := by
  simp only [box]
  omega

/-- The box of a placement's cell. -/
def boxOf (placement : Placement) : Fin 9 := ⟨placement.box, placement.box_lt⟩

/-- A rule of the puzzle, with the matrix column that stands for it. -/
inductive Rule where
  /-- The cell holds a digit. -/
  | filled (r c : Fin 9)
  /-- The row holds the digit. -/
  | row (r rank : Fin 9)
  /-- The column holds the digit. -/
  | column (c rank : Fin 9)
  /-- The box holds the digit. -/
  | box (b rank : Fin 9)

namespace Rule

/-- The matrix column of a rule. -/
def index : Rule → Nat
  | filled r c => r * 9 + c
  | row r rank => 81 + r * 9 + rank
  | column c rank => 162 + c * 9 + rank
  | box b rank => 243 + b * 9 + rank

/-- A placement is what a rule asks for. -/
def Meets : Rule → Placement → Prop
  | filled r c, placement => placement.row = r ∧ placement.column = c
  | row r rank, placement => placement.row = r ∧ placement.rank = rank
  | column c rank, placement => placement.column = c ∧ placement.rank = rank
  | box b rank, placement => placement.boxOf = b ∧ placement.rank = rank

theorem index_lt (rule : Rule) : rule.index < constraintCount := by
  cases rule <;> simp only [index, constraintCount] <;> omega

/-- Every column of the matrix stands for a rule. -/
theorem exists_index {column : Nat} (below : column < constraintCount) :
    ∃ rule : Rule, rule.index = column := by
  simp only [constraintCount] at below
  have split : column = column / 9 * 9 + column % 9 := by omega
  have rest : column % 9 < 9 := Nat.mod_lt _ (Nat.succ_pos 8)
  by_cases cells : column < 81
  · exact ⟨filled ⟨column / 9, by omega⟩ ⟨column % 9, rest⟩, split.symm⟩
  by_cases rows : column < 162
  · refine ⟨row ⟨column / 9 - 9, by omega⟩ ⟨column % 9, rest⟩, ?_⟩
    simp only [index]
    omega
  by_cases columns : column < 243
  · refine ⟨Rule.column ⟨column / 9 - 18, by omega⟩ ⟨column % 9, rest⟩, ?_⟩
    simp only [index]
    omega
  · refine ⟨box ⟨column / 9 - 27, by omega⟩ ⟨column % 9, rest⟩, ?_⟩
    simp only [index]
    omega

theorem index_mem_constraints (rule : Rule) (placement : Placement) :
    rule.index ∈ placement.constraints ↔ rule.Meets placement := by
  have inside := placement.box_lt
  cases rule <;>
    simp only [index, constraints, List.mem_cons, List.not_mem_nil, or_false, Meets, Fin.ext_iff,
      boxOf] <;>
    omega

end Rule

/-- Every rule is met by exactly one of the placements. -/
def Complete (chosen : Placement → Prop) : Prop :=
  ∀ rule : Rule, ∃ placement, chosen placement ∧ rule.Meets placement ∧
    ∀ other, chosen other → rule.Meets other → other = placement

/-- A list of different matrix rows is an exact cover when its placements meet every rule once. -/
theorem isExactCover_iff_complete {chosen : Placement → Prop} {rows : List Nat}
    (members : ∀ n, n ∈ rows ↔ ∃ placement, chosen placement ∧ placement.number = n) :
    matrix.IsExactCover rows ↔ rows.Nodup ∧ Complete chosen := by
  constructor
  · intro h
    refine ⟨h.nodup, fun rule => ?_⟩
    obtain ⟨n, member, sets, unique⟩ := h.covered rule.index rule.index_lt
    obtain ⟨placement, listed, rfl⟩ := (members n).mp member
    refine ⟨placement, listed, (rule.index_mem_constraints placement).mp (get_number.mp sets), ?_⟩
    intro other also meets
    exact number_inj (unique other.number ((members _).mpr ⟨other, also, rfl⟩)
      (get_number.mpr ((rule.index_mem_constraints other).mpr meets)))
  · rintro ⟨distinct, complete⟩
    refine ⟨distinct, fun n member => ?_, fun column below => ?_⟩
    · obtain ⟨placement, _, rfl⟩ := (members n).mp member
      exact ⟨placement.constraints, row?_number placement, List.cons_ne_nil _ _⟩
    · obtain ⟨rule, rfl⟩ := Rule.exists_index below
      obtain ⟨placement, listed, meets, unique⟩ := complete rule
      refine ⟨placement.number, (members _).mpr ⟨placement, listed, rfl⟩,
        get_number.mpr ((rule.index_mem_constraints placement).mpr meets), ?_⟩
      intro n member sets
      obtain ⟨other, also, rfl⟩ := (members n).mp member
      have same := unique other also ((rule.index_mem_constraints other).mp (get_number.mp sets))
      rw [same]

end Placement

namespace Board

/-- The placement's cell holds its digit. -/
def Has (board : Board) (placement : Placement) : Prop :=
  board.get placement.cell = placement.digit

variable {board other : Board} {placement : Placement}

theorem row_cell (placement : Placement) : CellIndex.row placement.cell = placement.row := by
  simp only [CellIndex.row, Placement.cell, cellAt, Fin.ext_iff]
  omega

theorem column_cell (placement : Placement) :
    CellIndex.column placement.cell = placement.column := by
  simp only [CellIndex.column, Placement.cell, cellAt, Fin.ext_iff]
  omega

theorem ext_cell {one two : Placement} (cells : one.cell = two.cell)
    (digits : one.digit = two.digit) : one = two := by
  refine Placement.ext_digit ?_ ?_ digits
  · rw [← row_cell one, cells, row_cell]
  · rw [← column_cell one, cells, column_cell]

theorem cellAt_row_column (cell : CellIndex) :
    cellAt (CellIndex.row cell) (CellIndex.column cell) = cell := by
  simp only [cellAt, CellIndex.row, CellIndex.column, Fin.ext_iff]
  omega

theorem placementAt?_eq_some {cell : CellIndex} :
    board.placementAt? cell = some placement ↔ placement.cell = cell ∧ board.Has placement := by
  have below := (board.get cell).isLt
  simp only [placementAt?, Placement.of?]
  constructor
  · intro found
    split at found
    · rename_i inside
      obtain rfl := Option.some.inj found
      refine ⟨cellAt_row_column cell, ?_⟩
      rw [Has, Placement.cell, cellAt_row_column]
      refine Fin.ext ?_
      simp only [Placement.digit]
      omega
    · exact absurd found.symm (Option.some_ne_none placement)
  · rintro ⟨rfl, has⟩
    have held : (board.get placement.cell).val = placement.rank + 1 := congrArg Fin.val has
    have inside : (CellIndex.row placement.cell).val < 9 ∧
        (CellIndex.column placement.cell).val < 9 ∧ 1 ≤ (board.get placement.cell).val ∧
        (board.get placement.cell).val ≤ 9 := by omega
    rw [dif_pos inside]
    simp only [row_cell, column_cell, held, Nat.add_sub_cancel]

theorem mem_clueRows {n : Nat} :
    n ∈ board.clueRows ↔ ∃ placement, board.Has placement ∧ placement.number = n := by
  simp only [clueRows, List.mem_filterMap, List.mem_finRange, true_and, Option.map_eq_some_iff,
    placementAt?_eq_some]
  constructor
  · rintro ⟨_, placement, ⟨_, has⟩, same⟩
    exact ⟨placement, has, same⟩
  · rintro ⟨placement, has, same⟩
    exact ⟨placement.cell, placement, ⟨rfl, has⟩, same⟩

theorem number_mem_clueRows : placement.number ∈ board.clueRows ↔ board.Has placement := by
  rw [mem_clueRows]
  constructor
  · rintro ⟨other, has, same⟩
    exact Placement.number_inj same ▸ has
  · exact fun has => ⟨placement, has, rfl⟩

theorem nodup_clueRows (board : Board) : board.clueRows.Nodup := by
  refine List.Nodup.filterMap (fun a b n first second => ?_) (List.nodup_finRange 81)
  obtain ⟨one, here, same⟩ := Option.map_eq_some_iff.mp first
  obtain ⟨two, there, rfl⟩ := Option.map_eq_some_iff.mp second
  rw [← (placementAt?_eq_some.mp here).1, ← (placementAt?_eq_some.mp there).1,
    Placement.number_inj same]

/-- A cell that is not blank holds the digit of a placement that the board has. -/
theorem exists_has {cell : CellIndex} (real : board.get cell ≠ 0) :
    ∃ placement : Placement, placement.cell = cell ∧ board.Has placement := by
  obtain ⟨placement, row, column, digit⟩ :=
    Placement.exists_placement (CellIndex.row cell) (CellIndex.column cell) real
  have there : placement.cell = cell := by
    rw [Placement.cell, row, column, cellAt_row_column]
  exact ⟨placement, there, by rw [Has, there, digit]⟩

/-- A board keeps the cells of another one that are not blank if it has its placements. -/
theorem keeps_of_has (has : ∀ placement, board.Has placement → other.Has placement)
    {cell : CellIndex} (real : board.get cell ≠ 0) : other.get cell = board.get cell := by
  obtain ⟨placement, rfl, here⟩ := exists_has real
  exact (has placement here).trans here.symm

theorem ext_get (same : ∀ cell, board.get cell = other.get cell) : board = other := by
  obtain ⟨one⟩ := board
  obtain ⟨two⟩ := other
  congr
  refine Vector.ext fun i below => ?_
  exact same ⟨i, below⟩

/-- A board is determined by its placements. -/
theorem ext_has (same : ∀ placement, board.Has placement ↔ other.Has placement) :
    board = other := by
  apply ext_get
  intro cell
  by_cases blank : board.get cell = 0
  · by_contra differs
    have real : other.get cell ≠ 0 := fun zero => differs (blank.trans zero.symm)
    exact differs (keeps_of_has (fun placement => (same placement).mpr) real)
  · exact (keeps_of_has (fun placement => (same placement).mp) blank).symm

/-! ### Grids -/

theorem boxCell_boxPlace (placement : Placement) :
    boxCell placement.boxOf (boxPlace placement.row placement.column) = placement.cell := by
  simp only [boxCell, boxPlace, Placement.boxOf, Placement.box, Placement.cell, cellAt, Fin.ext_iff]
  omega

/-- Every place of a box is the cell in a row and a column. -/
theorem exists_boxCell (b k : Fin 9) : ∃ r c, boxCell b k = cellAt r c ∧ boxPlace r c = k ∧
    ∀ rank, (Placement.mk r c rank).boxOf = b := by
  refine ⟨_, _, rfl, ?_, fun rank => ?_⟩
  · simp only [boxPlace, Fin.ext_iff]
    omega
  · simp only [Placement.boxOf, Placement.box, Fin.ext_iff]
    omega

/-- Nine places that hold the nine digits are all the places there are. -/
theorem surjective_of_holds {held : Fin 9 → Digit} {place : Fin 9 → Fin 9}
    (holds : ∀ rank, held (place rank) = rank.succ) : Function.Surjective place := by
  apply Finite.surjective_of_injective
  intro one two same
  apply Fin.succ_inj.mp
  rw [← holds one, ← holds two, same]

/-- In a grid no cell is blank, because the nine digits of a row stand in nine columns. -/
theorem IsGrid.get_ne_zero (h : board.IsGrid) (cell : CellIndex) : board.get cell ≠ 0 := by
  choose place holds _ using fun rank : Fin 9 =>
    h.row (CellIndex.row cell) rank.succ (Fin.succ_ne_zero rank)
  obtain ⟨rank, here⟩ := surjective_of_holds holds (CellIndex.column cell)
  have held := holds rank
  rw [here, digitAt, cellAt_row_column] at held
  exact held ▸ Fin.succ_ne_zero rank

theorem isGrid_of_complete (complete : Placement.Complete board.Has) : board.IsGrid where
  row := by
    intro r digit real
    obtain ⟨rank, rfl⟩ := Fin.exists_succ_eq.mpr real
    obtain ⟨placement, has, ⟨rfl, rfl⟩, unique⟩ := complete (.row r rank)
    refine ⟨placement.column, has, fun c held => ?_⟩
    have same := unique ⟨placement.row, c, placement.rank⟩ held ⟨rfl, rfl⟩
    exact congrArg Placement.column same
  column := by
    intro c digit real
    obtain ⟨rank, rfl⟩ := Fin.exists_succ_eq.mpr real
    obtain ⟨placement, has, ⟨rfl, rfl⟩, unique⟩ := complete (.column c rank)
    refine ⟨placement.row, has, fun r held => ?_⟩
    have same := unique ⟨r, placement.column, placement.rank⟩ held ⟨rfl, rfl⟩
    exact congrArg Placement.row same
  box := by
    intro b digit real
    obtain ⟨rank, rfl⟩ := Fin.exists_succ_eq.mpr real
    obtain ⟨placement, has, ⟨rfl, rfl⟩, unique⟩ := complete (.box b rank)
    refine ⟨boxPlace placement.row placement.column, ?_, fun k held => ?_⟩
    · rw [boxCell_boxPlace]
      exact has
    · obtain ⟨r, c, there, rfl, inside⟩ := exists_boxCell placement.boxOf k
      rw [there] at held
      have same := unique ⟨r, c, placement.rank⟩ held ⟨inside _, rfl⟩
      rw [← same]

theorem IsGrid.complete (h : board.IsGrid) : Placement.Complete board.Has := by
  intro rule
  cases rule with
  | filled r c =>
      obtain ⟨placement, there, has⟩ := exists_has (h.get_ne_zero (cellAt r c))
      have cells : ∀ other : Placement, other.row = r ∧ other.column = c → other.cell = cellAt r c :=
        fun other here => congrArg₂ cellAt here.1 here.2
      refine ⟨placement, has, ?_, fun other also here => ?_⟩
      · have row := row_cell placement
        have column := column_cell placement
        rw [there] at row column
        exact ⟨row.symm.trans (row_cell ⟨r, c, 0⟩), column.symm.trans (column_cell ⟨r, c, 0⟩)⟩
      · have same := (cells other here).trans there.symm
        exact ext_cell same (also.symm.trans ((congrArg board.get same).trans has))
  | row r rank =>
      obtain ⟨c, held, unique⟩ := h.row r rank.succ (Fin.succ_ne_zero rank)
      refine ⟨⟨r, c, rank⟩, held, ⟨rfl, rfl⟩, fun other also here => ?_⟩
      obtain ⟨rfl, rfl⟩ := here
      have same : other.column = c := unique other.column also
      subst same
      rfl
  | column c rank =>
      obtain ⟨r, held, unique⟩ := h.column c rank.succ (Fin.succ_ne_zero rank)
      refine ⟨⟨r, c, rank⟩, held, ⟨rfl, rfl⟩, fun other also here => ?_⟩
      obtain ⟨rfl, rfl⟩ := here
      have same : other.row = r := unique other.row also
      subst same
      rfl
  | box b rank =>
      obtain ⟨k, held, unique⟩ := h.box b rank.succ (Fin.succ_ne_zero rank)
      obtain ⟨r, c, there, _, inside⟩ := exists_boxCell b k
      rw [there] at held
      refine ⟨⟨r, c, rank⟩, held, ⟨inside rank, rfl⟩, fun other also here => ?_⟩
      obtain ⟨rfl, rfl⟩ := here
      have place := unique (boxPlace other.row other.column)
        ((congrArg board.get (boxCell_boxPlace other)).trans also)
      rw [← place, boxCell_boxPlace] at there
      exact ext_cell there rfl

/-- The placements of a board are an exact cover exactly when the board is a grid. -/
theorem isExactCover_clueRows : Placement.matrix.IsExactCover board.clueRows ↔ board.IsGrid := by
  have members : ∀ n, n ∈ board.clueRows ↔ ∃ placement, board.Has placement ∧
      placement.number = n := fun n => mem_clueRows
  rw [Placement.isExactCover_iff_complete members]
  exact ⟨fun h => isGrid_of_complete h.2, fun h => ⟨board.nodup_clueRows, h.complete⟩⟩

end Board

end ExactCover
