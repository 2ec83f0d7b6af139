import ExactCover.Proofs.BoardReading
import ExactCover.Proofs.MatrixText

/-! # Rows as sets of columns

However a matrix comes about, its rows ascend and set columns of the matrix only. Looking a column
up in a row by halving it, and printing the row by passing its columns one by one, both rest on
this. A matrix made of given rows keeps each of them as a set, and the first row that sets a column
outside is reported with the smallest such column.
-/

namespace ExactCover.IncidenceMatrix

variable {matrix : IncidenceMatrix} {columns start count r c : Nat} {row : List Nat}
  {rows others : List (List Nat)} {error : Error}

/-- The matrices that come about: those of rows, lines and texts, the empty one, that of the
    placements, and what is selected from such matrices. -/
inductive Built : IncidenceMatrix → Prop where
  | ofRows {columns : Nat} {rows : List (List Nat)} {matrix : IncidenceMatrix}
      (made : ofRows columns rows = .ok matrix) : Built matrix
  | ofLines {lines : List (List Char)} {matrix : IncidenceMatrix}
      (read : ofLines lines = .ok matrix) : Built matrix
  | parse {text : String} {matrix : IncidenceMatrix} (read : parse text = .ok matrix) : Built matrix
  | select {matrix : IncidenceMatrix} (built : Built matrix) (numbers : List Nat) :
      Built (matrix.select numbers)
  | empty : Built empty
  | placements : Built Placement.matrix

/-- The rows ascend and set these columns only. -/
def Orderly (columns : Nat) (rows : Array (List Nat)) : Prop :=
  ∀ row ∈ rows, row.Pairwise (· < ·) ∧ ∀ column ∈ row, column < columns

theorem orderly_ofRows (made : ofRows columns rows = .ok matrix) :
    Orderly matrix.columns matrix.rows := by
  obtain ⟨inside, width, kept⟩ := ofRows_eq_ok_iff.mp made
  intro row member
  rw [kept, List.mem_toArray] at member
  obtain ⟨given, listed, rfl⟩ := List.mem_map.mp member
  refine ⟨pairwise_ascendingSet given, fun column sets => ?_⟩
  rw [width]
  exact inside given listed column (mem_ascendingSet.mp sets)

theorem orderly_ofLines {lines : List (List Char)} (read : ofLines lines = .ok matrix) :
    Orderly matrix.columns matrix.rows := by
  obtain ⟨good, width, ones⟩ := ofLines_eq_ok_iff.mp read
  intro row member
  rw [ones, List.mem_toArray] at member
  obtain ⟨line, listed, rfl⟩ := List.mem_map.mp member
  refine ⟨pairwise_onesFrom 0 line, fun column sets => ?_⟩
  obtain ⟨offset, found, rfl⟩ := mem_onesFrom.mp sets
  rw [width, ← (good line listed).1, Nat.zero_add]
  exact (List.getElem?_eq_some_iff.mp found).1

theorem Orderly.select (h : Orderly matrix.columns matrix.rows) (numbers : List Nat) :
    Orderly (matrix.select numbers).columns (matrix.select numbers).rows := by
  intro row member
  have listed : row ∈ matrix.rowsAt numbers := List.mem_mergeSort.mp (List.mem_toArray.mp member)
  exact h row (mem_rows_of_mem_rowsAt listed)

theorem orderly_placements : Orderly Placement.matrix.columns Placement.matrix.rows := by
  intro row member
  simp only [Placement.matrix, Array.mem_ofFn] at member
  obtain ⟨number, rfl⟩ := member
  have width : Placement.matrix.columns = Placement.constraintCount := rfl
  rw [width]
  exact ⟨Placement.pairwise_constraints _, fun column sets => Placement.constraints_lt sets⟩

/-- Every way to come by a matrix puts its rows in order. -/
theorem Built.orderly (h : Built matrix) : Orderly matrix.columns matrix.rows := by
  induction h with
  | ofRows made => exact orderly_ofRows made
  | ofLines read => exact orderly_ofLines read
  | parse read => exact orderly_ofLines read
  | select _ numbers ih => exact ih.select numbers
  | empty =>
      intro row member
      cases member
      contradiction
  | placements => exact orderly_placements

/-! ### Looking up and printing -/

theorem get_eq_true_iff : matrix.get r c = true ↔ ∃ row, matrix.row? r = some row ∧ c ∈ row := by
  rw [get_eq, Option.any_eq_true]
  simp only [List.contains_iff_mem]

/-- In the line of a row stand the ones at the columns that it sets. -/
theorem getElem?_bitsFrom_iff (ascending : row.Pairwise (· < ·))
    (inside : ∀ column ∈ row, column < columns) :
    (bitsFrom 0 columns row)[c]? = some '1' ↔ c ∈ row := by
  have within : ∀ column ∈ row, 0 ≤ column ∧ column < 0 + columns := fun column sets =>
    ⟨Nat.zero_le column, (inside column sets).trans_eq (Nat.zero_add columns).symm⟩
  have ones : c ∈ onesFrom 0 (bitsFrom 0 columns row) ↔ c ∈ row := by
    rw [onesFrom_bitsFrom ascending within]
  rw [← ones, mem_onesFrom]
  simp only [Nat.zero_add]
  constructor
  · intro one
    exact ⟨c, one, rfl⟩
  · rintro ⟨offset, one, rfl⟩
    exact one

theorem splitOn_toText (some_row : matrix.linesOfRows ≠ []) :
    matrix.toText.toList.splitOn '\n' = matrix.linesOfRows := by
  rw [toList_toText]
  exact List.splitOn_intercalate '\n'
    (fun line member => (matrix.linesOfRows_isRowText line member).feed_notMem) some_row

/-- The printed lines are those of the rows; a matrix without rows prints one line without
    characters. -/
theorem printed_bit_iff (h : Orderly matrix.columns matrix.rows) :
    (∃ bits, (matrix.toText.toList.splitOn '\n')[r]? = some bits ∧ bits[c]? = some '1') ↔
      ∃ row, matrix.row? r = some row ∧ c ∈ row := by
  have shown : ∀ row, matrix.row? r = some row →
      ((bitsFrom 0 matrix.columns row)[c]? = some '1' ↔ c ∈ row) := by
    intro row found
    obtain ⟨ascending, inside⟩ := h row (Array.mem_of_getElem? found)
    exact getElem?_bitsFrom_iff ascending inside
  have lines : matrix.linesOfRows[r]? = (matrix.row? r).map (bitsFrom 0 matrix.columns) := by
    rw [linesOfRows, List.getElem?_map, Array.getElem?_toList]
    rfl
  by_cases none : matrix.linesOfRows = []
  · rw [none, List.getElem?_nil, eq_comm, Option.map_eq_none_iff] at lines
    rw [toList_toText, none, lines]
    constructor
    · rintro ⟨bits, only, one⟩
      have empty : bits = [] := List.mem_singleton.mp (List.mem_of_getElem? only)
      rw [empty] at one
      cases one
    · rintro ⟨row, found, _⟩
      cases found
  · rw [splitOn_toText none, lines]
    constructor
    · rintro ⟨bits, found, one⟩
      obtain ⟨row, listed, rfl⟩ := Option.map_eq_some_iff.mp found
      exact ⟨row, listed, (shown row listed).mp one⟩
    · rintro ⟨row, found, sets⟩
      exact ⟨_, Option.map_eq_some_iff.mpr ⟨row, found, rfl⟩, (shown row found).mpr sets⟩

/-! ### Matrices of given rows -/

theorem firstOutside?_eq_some_iff {row column : Nat} :
    firstOutside? columns rows = some (row, column) ↔ ∃ before first after,
      rows = before ++ first :: after ∧ (∀ earlier ∈ before, ∀ c ∈ earlier, c < columns) ∧
        first.find? (columns ≤ ·) = some column ∧ before.length = row := by
  have passed : ∀ (before : List (List Nat)),
      (∀ pair ∈ before.zipIdx, (pair.1.find? (columns ≤ ·)).map (pair.2, ·) = none) ↔
        ∀ earlier ∈ before, ∀ c ∈ earlier, c < columns := by
    intro before
    simp only [Option.map_eq_none_iff, List.find?_eq_none, decide_eq_true_eq, Nat.not_le]
    exact @forall_mem_zipIdx _ before fun earlier => ∀ c ∈ earlier, c < columns
  refine (findSome?_zipIdx_eq_some
    (f := fun (row : List Nat) index => (row.find? (columns ≤ ·)).map (index, ·))).trans ?_
  simp only [passed, Option.map_eq_some_iff, Prod.mk.injEq]
  constructor
  · rintro ⟨before, first, after, split, ⟨_, found, rfl, rfl⟩, inside⟩
    exact ⟨before, first, after, split, inside, found, rfl⟩
  · rintro ⟨before, first, after, split, inside, found, rfl⟩
    exact ⟨before, first, after, split, ⟨column, found, rfl, rfl⟩, inside⟩

theorem ofRows_eq_error_iff_firstOutside? : ofRows columns rows = .error error ↔ ∃ row column,
    firstOutside? columns (rows.map ascendingSet) = some (row, column) ∧
      error = .columnOutside row column columns := by
  unfold ofRows
  split
  · rename_i row column found
    simp only [found, Except.error.injEq, Option.some.injEq, Prod.mk.injEq]
    constructor
    · rintro rfl
      exact ⟨row, column, ⟨rfl, rfl⟩, rfl⟩
    · rintro ⟨_, _, ⟨rfl, rfl⟩, rfl⟩
      rfl
  · rename_i none
    simp [none]

/-- The first row that sets a column outside is reported with the smallest such column. -/
theorem ofRows_eq_error_iff : ofRows columns rows = .error error ↔ ∃ before row after column,
    rows = before ++ row :: after ∧ (∀ earlier ∈ before, ∀ c ∈ earlier, c < columns) ∧
      IsLeast {c | c ∈ row ∧ columns ≤ c} column ∧
      error = .columnOutside before.length column columns := by
  have least : ∀ row column, (ascendingSet row).find? (columns ≤ ·) = some column ↔
      IsLeast {c | c ∈ row ∧ columns ≤ c} column := by
    intro row column
    simp only [find?_eq_some_iff_isLeast (pairwise_ascendingSet row), mem_ascendingSet,
      decide_eq_true_eq]
  rw [ofRows_eq_error_iff_firstOutside?]
  simp only [firstOutside?_eq_some_iff]
  constructor
  · rintro ⟨_, column, ⟨_, _, _, split, inside, found, rfl⟩, rfl⟩
    obtain ⟨before, rest, rfl, rfl, tail⟩ := List.map_eq_append_iff.mp split
    obtain ⟨row, after, rfl, rfl, _⟩ := List.map_eq_cons_iff.mp tail
    refine ⟨before, row, after, column, rfl, ?_, (least row column).mp found, ?_⟩
    · intro earlier member c sets
      exact inside _ (List.mem_map_of_mem member) c (mem_ascendingSet.mpr sets)
    · rw [List.length_map]
  · rintro ⟨before, row, after, column, rfl, inside, smallest, rfl⟩
    refine ⟨before.length, column, ⟨before.map ascendingSet, ascendingSet row,
      after.map ascendingSet, ?_, ?_, (least row column).mpr smallest, List.length_map _⟩, rfl⟩
    · rw [List.map_append, List.map_cons]
    · intro earlier member c sets
      obtain ⟨given, listed, rfl⟩ := List.mem_map.mp member
      exact inside given listed c (mem_ascendingSet.mp sets)

theorem exists_ofRows_iff : (∃ matrix, ofRows columns rows = .ok matrix) ↔
    ∀ row ∈ rows, ∀ column ∈ row, column < columns := by
  constructor
  · rintro ⟨matrix, made⟩
    exact (ofRows_eq_ok_iff.mp made).1
  · intro inside
    cases result : ofRows columns rows with
    | ok matrix => exact ⟨matrix, rfl⟩
    | error error =>
        obtain ⟨before, row, after, column, rfl, _, ⟨⟨sets, outside⟩, _⟩, _⟩ :=
          ofRows_eq_error_iff.mp result
        exact absurd (inside row (by simp) column sets) (Nat.not_lt.mpr outside)

/-- The matrix sets what the given rows set. -/
theorem get_of_ofRows (made : ofRows columns rows = .ok matrix) :
    matrix.get r c = true ↔ ∃ row, rows[r]? = some row ∧ c ∈ row := by
  obtain ⟨_, _, kept⟩ := ofRows_eq_ok_iff.mp made
  have found : matrix.row? r = rows[r]?.map ascendingSet := by
    rw [row?, kept, List.getElem?_toArray, List.getElem?_map]
  rw [get_eq_true_iff, found]
  constructor
  · rintro ⟨_, listed, sets⟩
    obtain ⟨row, given, rfl⟩ := Option.map_eq_some_iff.mp listed
    exact ⟨row, given, mem_ascendingSet.mp sets⟩
  · rintro ⟨row, given, sets⟩
    exact ⟨_, Option.map_eq_some_iff.mpr ⟨row, given, rfl⟩, mem_ascendingSet.mpr sets⟩

/-- There is one ascending list for every set of columns. -/
theorem ascendingSet_congr {other : List Nat} (same : ∀ column, column ∈ row ↔ column ∈ other) :
    ascendingSet row = ascendingSet other := by
  apply (pairwise_ascendingSet row).eq_of_mem_iff (pairwise_ascendingSet other)
  intro column
  rw [mem_ascendingSet, mem_ascendingSet, same]

theorem ofRows_congr
    (same : List.Forall₂ (fun row other => ∀ column, column ∈ row ↔ column ∈ other) rows others) :
    ofRows columns rows = ofRows columns others := by
  have kept : rows.map ascendingSet = others.map ascendingSet := by
    rw [← List.forall₂_eq_eq_eq, List.forall₂_map_left_iff, List.forall₂_map_right_iff]
    exact same.imp fun row other => ascendingSet_congr
  cases result : ofRows columns others with
  | error error =>
      rw [ofRows_eq_error_iff_firstOutside?, kept, ← ofRows_eq_error_iff_firstOutside?]
      exact result
  | ok matrix =>
      obtain ⟨inside, width, made⟩ := ofRows_eq_ok_iff.mp result
      rw [ofRows_eq_ok_iff, kept]
      refine ⟨fun row member column sets => ?_, width, made⟩
      have listed : ascendingSet row ∈ others.map ascendingSet :=
        kept ▸ List.mem_map_of_mem member
      obtain ⟨other, also, equal⟩ := List.mem_map.mp listed
      exact inside other also column (mem_ascendingSet.mp (equal ▸ mem_ascendingSet.mpr sets))

/-- The rows of a matrix that comes about ascend and set columns of the matrix only. Looking a column
    up in a row tells whether the row sets it, and so do the ones that are printed. A matrix is made
    of given rows when they set columns inside only, each row as a set of columns; otherwise the
    first row that does not is reported, with its smallest column outside. -/
theorem rows_are_sets :
    (∀ matrix, Built matrix →
      (∀ row ∈ matrix.rows, row.Pairwise (· < ·) ∧ ∀ column ∈ row, column < matrix.columns) ∧
      ∀ r c, (matrix.get r c = true ↔ ∃ row, matrix.row? r = some row ∧ c ∈ row) ∧
        (matrix.get r c = true ↔
          ∃ bits, (matrix.toText.toList.splitOn '\n')[r]? = some bits ∧ bits[c]? = some '1')) ∧
    (∀ columns rows,
      ((∃ matrix, ofRows columns rows = .ok matrix) ↔
        ∀ row ∈ rows, ∀ column ∈ row, column < columns) ∧
      (∀ matrix, ofRows columns rows = .ok matrix →
        matrix.columns = columns ∧ matrix.size = rows.length ∧
        ∀ r c, matrix.get r c = true ↔ ∃ row, rows[r]? = some row ∧ c ∈ row) ∧
      ∀ error, ofRows columns rows = .error error ↔ ∃ before row after column,
        rows = before ++ row :: after ∧ (∀ earlier ∈ before, ∀ c ∈ earlier, c < columns) ∧
        IsLeast {c | c ∈ row ∧ columns ≤ c} column ∧
        error = .columnOutside before.length column columns) ∧
    ∀ columns rows others,
      List.Forall₂ (fun row other => ∀ column, column ∈ row ↔ column ∈ other) rows others →
      ofRows columns rows = ofRows columns others := by
  refine ⟨fun matrix built => ⟨built.orderly, fun r c => ⟨get_eq_true_iff, ?_⟩⟩,
    fun columns rows =>
      ⟨exists_ofRows_iff, fun matrix made => ?_, fun error => ofRows_eq_error_iff⟩,
    fun columns rows others => ofRows_congr⟩
  · rw [get_eq_true_iff, printed_bit_iff built.orderly]
  · obtain ⟨_, width, kept⟩ := ofRows_eq_ok_iff.mp made
    refine ⟨width, ?_, fun r c => get_of_ofRows made⟩
    rw [size, kept, List.size_toArray, List.length_map]

/-- The column 4 is given twice and out of order, and is printed last. The row after a good one is
    the first that sets a column outside. -/
theorem three_rows_kept : ∃ matrix, ofRows 5 [[4, 1, 4], [], [0]] = .ok matrix ∧
    ofRows 5 [[1, 4], [], [0, 0]] = .ok matrix ∧ matrix.get 0 4 = true ∧
    (∃ bits, (matrix.toText.toList.splitOn '\n')[0]? = some bits ∧ bits[4]? = some '1') ∧
    ofRows 3 [[0, 2], [7, 1, 3], [9]] = .error (.columnOutside 1 3 3) := by
  obtain ⟨printed, made, same⟩ := rows_are_sets
  obtain ⟨accepted, kept, _⟩ := made 5 [[4, 1, 4], [], [0]]
  obtain ⟨matrix, result⟩ := accepted.mpr (by decide)
  have again : ofRows 5 [[4, 1, 4], [], [0]] = ofRows 5 [[1, 4], [], [0, 0]] := by
    apply same
    simp
  have sets : matrix.get 0 4 = true := ((kept matrix result).2.2 0 4).mpr ⟨_, rfl, by decide⟩
  have one := (((printed matrix (.ofRows result)).2 0 4).2).mp sets
  refine ⟨matrix, result, again ▸ result, sets, one, ?_⟩
  refine ((made 3 _).2.2 _).mpr
    ⟨[[0, 2]], [7, 1, 3], [[9]], 3, rfl, by decide, ⟨by decide, ?_⟩, rfl⟩
  rintro c ⟨member, outside⟩
  exact outside

end ExactCover.IncidenceMatrix
