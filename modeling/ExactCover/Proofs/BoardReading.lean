import ExactCover.Proofs.GridRules

/-! # Which rows describe a board

A row of any matrix puts a digit into a cell when its smallest column is a cell and its smallest
column from 81 on is one of the nine that stand for the digits in the row of that cell. Rows are
read as a board when they put digits into all 81 cells, each cell once, in whatever order they come.
All other rows are refused for describing no grid.
-/

namespace ExactCover

namespace IncidenceMatrix

variable {matrix : IncidenceMatrix} {number : Nat} {cell other : CellIndex} {digit : Digit}

/-- A row puts a digit into a cell. -/
def Puts (matrix : IncidenceMatrix) (number : Nat) (cell : CellIndex) (digit : Digit) : Prop :=
  ∃ columns mark, matrix.row? number = some columns ∧
    IsLeast {column | column ∈ columns} cell.val ∧
    IsLeast {column | column ∈ columns ∧ 81 ≤ column} mark ∧
    81 + 9 * (cell.val / 9) ≤ mark ∧ mark < 81 + 9 * (cell.val / 9) + 9 ∧
    digit.val = mark - 81 - 9 * (cell.val / 9) + 1

theorem Puts.digit_ne_zero (h : matrix.Puts number cell digit) : digit ≠ 0 := by
  obtain ⟨_, _, _, _, _, _, _, shown⟩ := h
  intro blank
  rw [blank] at shown
  exact Nat.succ_ne_zero _ shown.symm

theorem Puts.unique {digit' : Digit} (one : matrix.Puts number cell digit)
    (two : matrix.Puts number other digit') : cell = other ∧ digit = digit' := by
  obtain ⟨columns, mark, found, first, second, _, _, shown⟩ := one
  obtain ⟨columns', mark', found', first', second', _, _, shown'⟩ := two
  obtain rfl := Option.some.inj (found.symm.trans found')
  obtain rfl := Fin.ext (first.unique first')
  obtain rfl := second.unique second'
  exact ⟨rfl, Fin.ext (shown.trans shown'.symm)⟩

/-- The first of ascending numbers that pass a test is the least. -/
theorem find?_eq_some_iff_isLeast {numbers : List Nat} {test : Nat → Bool} {n : Nat}
    (ascending : numbers.Pairwise (· < ·)) :
    numbers.find? test = some n ↔ IsLeast {k | k ∈ numbers ∧ test k = true} n := by
  induction numbers with
  | nil => simp [IsLeast]
  | cons first rest ih =>
      obtain ⟨below, ascending⟩ := List.pairwise_cons.mp ascending
      cases passes : test first with
      | true =>
          rw [List.find?_cons_of_pos passes, Option.some_inj]
          have least : IsLeast {k | k ∈ first :: rest ∧ test k = true} first := by
            refine ⟨⟨List.mem_cons_self, passes⟩, ?_⟩
            rintro k ⟨member, _⟩
            rcases List.mem_cons.mp member with rfl | later
            · exact Nat.le_refl k
            · exact (below k later).le
          exact ⟨fun same => same ▸ least, least.unique⟩
      | false =>
          have same : {k | k ∈ first :: rest ∧ test k = true} = {k | k ∈ rest ∧ test k = true} := by
            ext k
            simp only [Set.mem_ofPred_eq, List.mem_cons]
            constructor
            · rintro ⟨rfl | later, holds⟩
              · rw [passes] at holds
                cases holds
              · exact ⟨later, holds⟩
            · exact fun ⟨later, holds⟩ => ⟨.inr later, holds⟩
          rw [List.find?_cons_of_neg (by simp [passes]), ih ascending, same]

theorem head?_eq_some_iff_isLeast {numbers : List Nat} {n : Nat}
    (ascending : numbers.Pairwise (· < ·)) :
    numbers.head? = some n ↔ IsLeast {k | k ∈ numbers} n := by
  have all := @find?_eq_some_iff_isLeast numbers (fun _ => true) n ascending
  simp only [and_true] at all
  rw [← all]
  cases numbers <;> simp

/-- What a row puts where can be read off its columns from the front. -/
theorem puts_iff {columns : List Nat} (found : matrix.row? number = some columns) :
    matrix.Puts number cell digit ↔ columns.head? = some cell.val ∧
      ∃ mark, columns.find? (81 ≤ ·) = some mark ∧
        (81 + cell.val / 9 * 9 ≤ mark ∧ mark < 81 + cell.val / 9 * 9 + 9) ∧
        digit.val = mark - 81 - cell.val / 9 * 9 + 1 := by
  have ascending := matrix.ascending columns (Array.mem_of_getElem? found)
  simp only [Puts, found, Option.some_inj, head?_eq_some_iff_isLeast ascending,
    find?_eq_some_iff_isLeast ascending, decide_eq_true_eq, Nat.mul_comm 9]
  constructor
  · rintro ⟨_, mark, rfl, first, second, low, high, shown⟩
    exact ⟨first, mark, second, ⟨low, high⟩, shown⟩
  · rintro ⟨first, mark, second, ⟨low, high⟩, shown⟩
    exact ⟨columns, mark, rfl, first, second, low, high, shown⟩

end IncidenceMatrix

namespace Board

open IncidenceMatrix

variable {matrix : IncidenceMatrix} {board after : Board} {number : Nat} {rows : List Nat}

theorem isFilled_iff : board.isFilled = true ↔ ∀ cell, board.get cell ≠ 0 := by
  refine ⟨fun filled cell => ?_, isFilled_of_get⟩
  rw [isFilled, toList_eq, List.all_eq_true] at filled
  exact of_decide_eq_true (filled _ (List.mem_map_of_mem (List.mem_finRange cell)))

/-! ### One row -/

/-- A row that puts a digit into a blank cell is placed, and any other one is refused. -/
theorem place_cases (matrix : IncidenceMatrix) (board : Board) (number : Nat) :
    (∃ cell digit, matrix.Puts number cell digit ∧ board.get cell = 0 ∧
      place matrix board number = .ok (board.put cell digit)) ∨
    ∃ error, place matrix board number = .error error ∧ error.kind = .malformedSolution ∧
      ∀ cell digit, matrix.Puts number cell digit → board.get cell ≠ 0 := by
  cases found : matrix.row? number with
  | none =>
      refine .inr ⟨.rowMissing number, by simp only [place, found], rfl, ?_⟩
      rintro cell digit ⟨columns, _, row, _⟩
      rw [found] at row
      cases row
  | some columns =>
      simp only [puts_iff found]
      cases first : columns.head? with
      | none =>
          exact .inr ⟨.rowWithoutCell number, by simp only [place, found, first], rfl, by simp⟩
      | some cell =>
          by_cases inside : cell < 81
          · by_cases blank : board.get ⟨cell, inside⟩ = 0
            · cases second : columns.find? (81 ≤ ·) with
              | none =>
                  refine .inr ⟨.rowWithoutDigit number, ?_, rfl, by simp⟩
                  simp only [place, found, first, second, dif_pos inside, if_pos blank]
              | some mark =>
                  by_cases fits : 81 + cell / 9 * 9 ≤ mark ∧ mark < 81 + cell / 9 * 9 + 9
                  · have shown : mark - 81 - cell / 9 * 9 + 1 < 10 := by omega
                    exact .inl ⟨⟨cell, inside⟩, ⟨_, shown⟩, ⟨rfl, mark, rfl, fits, rfl⟩, blank,
                      place_eq found first second inside blank (by omega) fits rfl⟩
                  · have none : ∀ (place : CellIndex) (digit : Digit), some cell = some place.val ∧
                        (∃ found, some mark = some found ∧
                          (81 + place.val / 9 * 9 ≤ found ∧ found < 81 + place.val / 9 * 9 + 9) ∧
                          digit.val = found - 81 - place.val / 9 * 9 + 1) →
                        board.get place ≠ 0 := by
                      rintro place digit ⟨same, _, same', inRow, _⟩
                      obtain rfl := Option.some.inj same
                      obtain rfl := Option.some.inj same'
                      exact absurd inRow fits
                    by_cases below : mark < 162
                    · refine .inr ⟨.digitOutsideRow number (cell / 9), ?_, rfl, none⟩
                      simp only [place, found, first, second, dif_pos inside, if_pos blank,
                        if_pos below, dif_neg fits]
                    · refine .inr ⟨.rowWithoutDigit number, ?_, rfl, none⟩
                      simp only [place, found, first, second, dif_pos inside, if_pos blank,
                        if_neg below]
            · refine .inr ⟨.cellFilledTwice (cell / 9) (cell % 9), ?_, rfl, ?_⟩
              · simp only [place, found, first, dif_pos inside, if_neg blank]
              · rintro other digit ⟨same, _⟩
                obtain rfl := Option.some.inj same
                exact blank
          · refine .inr ⟨.rowWithoutCell number, ?_, rfl, ?_⟩
            · simp only [place, found, first, dif_neg inside]
            · rintro other digit ⟨same, _⟩
              obtain rfl := Option.some.inj same
              exact absurd other.isLt inside

theorem place_eq_ok_iff : place matrix board number = .ok after ↔
    ∃ cell digit, matrix.Puts number cell digit ∧ board.get cell = 0 ∧
      board.put cell digit = after := by
  rcases place_cases matrix board number with
    ⟨cell, digit, puts, blank, run⟩ | ⟨error, run, _, none⟩
  · rw [run, Except.ok.injEq]
    constructor
    · rintro rfl
      exact ⟨cell, digit, puts, blank, rfl⟩
    · rintro ⟨cell', digit', puts', _, same⟩
      obtain ⟨rfl, rfl⟩ := puts.unique puts'
      exact same
  · rw [run]
    constructor
    · intro impossible
      cases impossible
    · rintro ⟨cell, digit, puts, blank, _⟩
      exact absurd blank (none cell digit puts)

theorem kind_of_place {error : Error} (failed : place matrix board number = .error error) :
    error.kind = .malformedSolution := by
  rcases place_cases matrix board number with ⟨cell, digit, _, _, run⟩ | ⟨reason, run, kind, _⟩
  · rw [run] at failed
    cases failed
  · rw [run] at failed
    cases failed
    exact kind

/-! ### Several rows -/

/-- The rows put their digits, as the board has them, into these cells. -/
def Fill (matrix : IncidenceMatrix) (rows : List Nat) (board : Board) (cells : List CellIndex) :
    Prop :=
  List.Forall₂ (fun number cell => matrix.Puts number cell (board.get cell)) rows cells

theorem Fill.exists_puts {cells : List CellIndex} {cell : CellIndex}
    (h : Fill matrix rows board cells) (member : cell ∈ cells) :
    ∃ number ∈ rows, matrix.Puts number cell (board.get cell) := by
  induction h with
  | nil => cases member
  | cons puts _ ih =>
      rcases List.mem_cons.mp member with rfl | member
      · exact ⟨_, List.mem_cons_self, puts⟩
      · obtain ⟨number, later, puts⟩ := ih member
        exact ⟨number, List.mem_cons_of_mem _ later, puts⟩

/-- Rows are placed one after the other when they put digits into different blank cells, and no
    other cell changes then. -/
theorem foldlM_place_eq_ok_iff : rows.foldlM (place matrix) board = .ok after ↔
    ∃ cells, Fill matrix rows after cells ∧ cells.Nodup ∧ (∀ cell ∈ cells, board.get cell = 0) ∧
      ∀ cell ∉ cells, after.get cell = board.get cell := by
  induction rows generalizing board with
  | nil =>
      simp only [List.foldlM_nil, Fill, List.forall₂_nil_left_iff, exists_eq_left, List.nodup_nil,
        List.not_mem_nil, false_imp_iff, implies_true, true_and, not_false_eq_true, true_imp_iff]
      exact ⟨fun same _ => Except.ok.inj same ▸ rfl, fun same => congrArg _ (ext_get same).symm⟩
  | cons number rows ih =>
      rw [List.foldlM_cons]
      constructor
      · intro run
        obtain ⟨middle, first, others⟩ := exists_of_bind_eq_ok run
        obtain ⟨cell, digit, puts, blank, rfl⟩ := place_eq_ok_iff.mp first
        obtain ⟨cells, filled, distinct, blanks, kept⟩ := ih.mp others
        -- The digit is there from now on, so that no later row can name the same cell.
        have fresh : cell ∉ cells := by
          intro member
          have empty := blanks cell member
          rw [get_put, if_pos rfl] at empty
          exact puts.digit_ne_zero empty
        have held : after.get cell = digit := by rw [kept cell fresh, get_put, if_pos rfl]
        refine ⟨cell :: cells, .cons (held.symm ▸ puts) filled,
          List.nodup_cons.mpr ⟨fresh, distinct⟩, ?_, ?_⟩
        · intro other member
          rcases List.mem_cons.mp member with rfl | member
          · exact blank
          · have empty := blanks other member
            have differs : cell ≠ other := fun same => fresh (same ▸ member)
            rwa [get_put, if_neg differs] at empty
        · intro other absent
          rw [List.mem_cons, not_or] at absent
          rw [kept other absent.2, get_put, if_neg (Ne.symm absent.1)]
      · rintro ⟨_, filled, distinct, blanks, kept⟩
        cases filled with
        | @cons _ cell _ cells puts filled =>
            obtain ⟨fresh, distinct⟩ := List.nodup_cons.mp distinct
            obtain ⟨blank, blanks⟩ := List.forall_mem_cons.mp blanks
            have first : place matrix board number = .ok (board.put cell (after.get cell)) :=
              place_eq_ok_iff.mpr ⟨cell, after.get cell, puts, blank, rfl⟩
            rw [first]
            refine ih.mpr ⟨cells, filled, distinct, ?_, ?_⟩
            · intro other member
              have differs : cell ≠ other := fun same => fresh (same ▸ member)
              rw [get_put, if_neg differs]
              exact blanks other member
            · intro other absent
              rw [get_put]
              split
              · rename_i same
                rw [same]
              · rename_i differs
                refine kept other ?_
                rw [List.mem_cons, not_or]
                exact ⟨Ne.symm differs, absent⟩

theorem kind_of_foldlM_place {error : Error}
    (failed : rows.foldlM (place matrix) board = .error error) :
    error.kind = .malformedSolution := by
  induction rows generalizing board with
  | nil => cases failed
  | cons number rows ih =>
      rw [List.foldlM_cons] at failed
      cases first : place matrix board number with
      | error reason =>
          rw [first] at failed
          cases failed
          exact kind_of_place first
      | ok middle =>
          rw [first] at failed
          exact ih failed

/-! ### Boards -/

theorem mem_all_iff {cells : List CellIndex} (distinct : cells.Nodup) :
    (∀ cell, cell ∈ cells) ↔ cells.length = 81 := by
  have every : cells.length = 81 ↔ cells.toFinset = Finset.univ := by
    rw [← List.toFinset_card_of_nodup distinct]
    exact Finset.card_eq_iff_eq_univ cells.toFinset
  rw [every, Finset.eq_univ_iff_forall]
  simp only [List.mem_toFinset]

/-- A board is read off rows that put its digits into 81 different cells. -/
theorem ofRows_eq_ok_iff : ofRows matrix rows = .ok board ↔
    rows.length = 81 ∧ ∃ cells, cells.Nodup ∧ Fill matrix rows board cells := by
  have filled_iff : ofRows matrix rows = .ok board ↔
      rows.foldlM (place matrix) blank = .ok board ∧ board.isFilled = true := by
    unfold ofRows
    constructor
    · intro run
      obtain ⟨after, placed, run⟩ := exists_of_bind_eq_ok run
      split at run
      · rename_i filled
        obtain rfl := Except.ok.inj run
        exact ⟨placed, filled⟩
      · cases run
    · rintro ⟨placed, filled⟩
      rw [placed]
      exact if_pos filled
  rw [filled_iff, foldlM_place_eq_ok_iff, isFilled_iff]
  constructor
  · rintro ⟨⟨cells, filled, distinct, _, kept⟩, real⟩
    have all : ∀ cell, cell ∈ cells := by
      intro cell
      by_contra absent
      exact real cell ((kept cell absent).trans (get_blank cell))
    exact ⟨filled.length_eq.trans ((mem_all_iff distinct).mp all), cells, distinct, filled⟩
  · rintro ⟨length, cells, distinct, filled⟩
    have all := (mem_all_iff distinct).mpr (filled.length_eq.symm.trans length)
    refine ⟨⟨cells, filled, distinct, fun cell _ => get_blank cell,
      fun cell absent => absurd (all cell) absent⟩, fun cell => ?_⟩
    obtain ⟨number, _, puts⟩ := filled.exists_puts (all cell)
    exact puts.digit_ne_zero

theorem kind_of_ofRows {error : Error} (failed : ofRows matrix rows = .error error) :
    error.kind = .malformedSolution := by
  unfold ofRows at failed
  cases placed : rows.foldlM (place matrix) blank with
  | error reason =>
      rw [placed] at failed
      cases failed
      exact kind_of_foldlM_place placed
  | ok after =>
      rw [placed] at failed
      change (if after.isFilled = true then _ else _) = _ at failed
      split at failed
      · cases failed
      · cases failed
        rfl

/-- The order of the rows does not matter. -/
theorem ofRows_perm {other : List Nat} (same : rows.Perm other)
    (read : ofRows matrix rows = .ok board) : ofRows matrix other = .ok board := by
  obtain ⟨length, cells, distinct, filled⟩ := ofRows_eq_ok_iff.mp read
  obtain ⟨cells', filled', order⟩ := List.perm_comp_forall₂ same.symm filled
  exact ofRows_eq_ok_iff.mpr
    ⟨same.symm.length_eq.trans length, cells', order.nodup_iff.mpr distinct, filled'⟩

/-- Rows that put digits into different cells, whichever they are, are those of some board. -/
theorem exists_fill {cells : List CellIndex} (distinct : cells.Nodup)
    (puts : List.Forall₂ (fun number cell => ∃ digit, matrix.Puts number cell digit) rows cells) :
    ∃ board, Fill matrix rows board cells := by
  induction puts with
  | nil => exact ⟨blank, .nil⟩
  | @cons number cell rows cells first _ ih =>
      obtain ⟨fresh, distinct⟩ := List.nodup_cons.mp distinct
      obtain ⟨board, filled⟩ := ih distinct
      obtain ⟨digit, puts⟩ := first
      have here : (board.put cell digit).get cell = digit := by rw [get_put, if_pos rfl]
      refine ⟨board.put cell digit, .cons (here.symm ▸ puts) ?_⟩
      refine (List.forall₂_iff_get.mpr ⟨filled.length_eq, fun i one two => ?_⟩)
      have differs : cell ≠ cells.get ⟨i, two⟩ := fun same => fresh (same ▸ List.get_mem cells _)
      rw [get_put, if_neg differs]
      exact filled.get one two

/-! ### The matrix of all placements -/

theorem puts_number_iff {placement : Placement} {cell : CellIndex} {digit : Digit} :
    Placement.matrix.Puts placement.number cell digit ↔
      placement.cell = cell ∧ placement.digit = digit := by
  rw [puts_iff (Placement.row?_number placement), placement.find?_constraints]
  simp only [Placement.constraints, List.head?_cons, Option.some_inj, exists_eq_left', Fin.ext_iff,
    Placement.cell, cellAt, Placement.digit]
  omega

/-- A row puts a cell's own digit there when it is that of the board's placement in the cell. -/
theorem puts_get_iff {cell : CellIndex} : Placement.matrix.Puts number cell (board.get cell) ↔
    (board.placementAt? cell).map Placement.number = some number := by
  simp only [Option.map_eq_some_iff, placementAt?_eq_some]
  constructor
  · intro puts
    have named := puts
    obtain ⟨columns, _, found, _⟩ := named
    obtain ⟨placement, rfl⟩ := Placement.exists_number found
    obtain ⟨rfl, held⟩ := puts_number_iff.mp puts
    exact ⟨placement, ⟨rfl, held.symm⟩, rfl⟩
  · rintro ⟨placement, ⟨rfl, has⟩, rfl⟩
    exact puts_number_iff.mpr ⟨rfl, has.symm⟩

theorem fill_matrix_iff {cells : List CellIndex} : Fill Placement.matrix rows board cells ↔
    cells.map (fun cell => (board.placementAt? cell).map Placement.number) = rows.map some := by
  simp only [Fill, puts_get_iff]
  rw [← List.forall₂_eq_eq_eq, List.forall₂_map_left_iff, List.forall₂_map_right_iff]
  exact ⟨List.Forall₂.flip, List.Forall₂.flip⟩

/-- The rows of a board without a blank, in any order, are read as the board, and no others are. -/
theorem ofRows_matrix_iff : ofRows Placement.matrix rows = .ok board ↔
    (∀ cell, board.get cell ≠ 0) ∧ rows.Perm board.clueRows := by
  constructor
  · intro read
    obtain ⟨length, cells, distinct, filled⟩ := ofRows_eq_ok_iff.mp read
    have all := (mem_all_iff distinct).mpr (filled.length_eq.symm.trans length)
    refine ⟨fun cell => ?_, ?_⟩
    · obtain ⟨number, _, puts⟩ := filled.exists_puts (all cell)
      exact puts.digit_ne_zero
    · have order : cells.Perm (List.finRange 81) :=
        (List.perm_ext_iff_of_nodup distinct (List.nodup_finRange 81)).mpr fun cell =>
          ⟨fun _ => List.mem_finRange cell, fun _ => all cell⟩
      have listed : cells.filterMap (fun cell => (board.placementAt? cell).map Placement.number) =
          rows := by
        rw [← Function.id_comp (fun cell => (board.placementAt? cell).map Placement.number),
          ← List.filterMap_map, fill_matrix_iff.mp filled, List.filterMap_map]
        exact List.filterMap_some
      exact listed ▸ order.filterMap _
  · rintro ⟨real, order⟩
    have found (cell : CellIndex) :
        ∃ number, (board.placementAt? cell).map Placement.number = some number := by
      obtain ⟨placement, here⟩ := exists_has (real cell)
      exact ⟨placement.number, by rw [placementAt?_eq_some.mpr here, Option.map_some]⟩
    choose number numbers using found
    have listed : board.clueRows = (List.finRange 81).map number := by
      simp only [clueRows, numbers, List.filterMap_eq_map']
    refine ofRows_perm order.symm (ofRows_eq_ok_iff.mpr ⟨?_, List.finRange 81,
      List.nodup_finRange 81, fill_matrix_iff.mpr ?_⟩)
    · rw [listed, List.length_map, List.length_finRange]
    · simp only [listed, numbers, List.map_map, Function.comp_def]

/-- Rows of a matrix are read as a board when they put digits into all cells, one row into each, and
    the board holds these digits then. Otherwise they are refused for describing no grid, and in
    which order they come does not matter. From the matrix of all placements every board without a
    blank is read off its own rows, and nothing else is. -/
theorem rows_describe_board (matrix : IncidenceMatrix) (rows : List Nat) :
    ((∃ board, ofRows matrix rows = .ok board) ↔ rows.length = 81 ∧ ∃ cells : List CellIndex,
      cells.Nodup ∧
      List.Forall₂ (fun number cell => ∃ digit, matrix.Puts number cell digit) rows cells) ∧
    (∀ board, ofRows matrix rows = .ok board ↔
      rows.length = 81 ∧ ∃ cells, cells.Nodup ∧ Fill matrix rows board cells) ∧
    (∀ error, ofRows matrix rows = .error error → error.kind = .malformedSolution) ∧
    (∀ other, rows.Perm other →
      ∀ board, ofRows matrix rows = .ok board ↔ ofRows matrix other = .ok board) ∧
    ∀ board, ofRows Placement.matrix rows = .ok board ↔
      (∀ cell, board.get cell ≠ 0) ∧ rows.Perm board.clueRows := by
  refine ⟨⟨?_, ?_⟩, fun board => ofRows_eq_ok_iff, fun error => kind_of_ofRows,
    fun other same board => ⟨ofRows_perm same, ofRows_perm same.symm⟩,
    fun board => ofRows_matrix_iff⟩
  · rintro ⟨board, read⟩
    obtain ⟨length, cells, distinct, filled⟩ := ofRows_eq_ok_iff.mp read
    exact ⟨length, cells, distinct, filled.imp fun number cell puts => ⟨_, puts⟩⟩
  · rintro ⟨length, cells, distinct, puts⟩
    obtain ⟨board, filled⟩ := exists_fill distinct puts
    exact ⟨board, ofRows_eq_ok_iff.mpr ⟨length, cells, distinct, filled⟩⟩

/-- The rows of a grid are read as the grid from the last to the first as well, and no rows at all
    are refused. -/
theorem shiftedRows_described :
    ofRows Placement.matrix shiftedRows.clueRows.reverse = .ok shiftedRows ∧
      ofRows Placement.matrix shiftedRows.clueRows = .ok shiftedRows ∧
      Error.kind (.cellsLeft 0) = .malformedSolution := by
  have filled : ∀ cell, shiftedRows.get cell ≠ 0 := isFilled_iff.mp (by decide +kernel)
  have back := rows_describe_board Placement.matrix shiftedRows.clueRows.reverse
  have backwards := (back.2.2.2.2 shiftedRows).mpr ⟨filled, List.reverse_perm _⟩
  exact ⟨backwards, (back.2.2.2.1 _ (List.reverse_perm _) shiftedRows).mp backwards,
    (rows_describe_board Placement.matrix []).2.2.1 _ rfl⟩

end Board

end ExactCover
