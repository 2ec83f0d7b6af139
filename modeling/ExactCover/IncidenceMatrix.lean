import ExactCover.Error

/-! # Incidence matrices

An exact cover problem: a number of columns, and for every row the columns that it sets. A row
is kept as the ascending list of its columns, so a row is determined by the set of them.
-/

namespace ExactCover

/-- A zero-one matrix, by the set columns of its rows. -/
structure IncidenceMatrix where
  columns : Nat
  /-- The set columns of every row. -/
  rows : Array (List Nat)
  /-- The columns of a row ascend, none twice. -/
  ascending : ∀ row ∈ rows, row.Pairwise (· < ·)
  /-- A row sets columns of the matrix only. -/
  inside : ∀ row ∈ rows, ∀ column ∈ row, column < columns
  deriving DecidableEq

/-- Puts a number into an ascending list, unless it is there. -/
def insertOnce (n : Nat) : List Nat → List Nat
  | [] => [n]
  | m :: rest => if n < m then n :: m :: rest else if n = m then m :: rest else m :: insertOnce n rest

/-- The members of a list in ascending order, each once. -/
def ascendingSet (numbers : List Nat) : List Nat :=
  numbers.foldr insertOnce []

theorem mem_insertOnce {n k : Nat} {numbers : List Nat} :
    k ∈ insertOnce n numbers ↔ k = n ∨ k ∈ numbers := by
  induction numbers with
  | nil => simp [insertOnce]
  | cons m rest ih =>
      simp only [insertOnce]
      split
      · simp
      · split
        · simp_all
        · simp only [List.mem_cons, ih]
          exact or_left_comm

theorem mem_ascendingSet {k : Nat} {numbers : List Nat} :
    k ∈ ascendingSet numbers ↔ k ∈ numbers := by
  induction numbers with
  | nil => simp [ascendingSet]
  | cons n rest ih => simpa [ascendingSet, mem_insertOnce] using or_congr_right ih

theorem pairwise_insertOnce {n : Nat} {numbers : List Nat} (h : numbers.Pairwise (· < ·)) :
    (insertOnce n numbers).Pairwise (· < ·) := by
  induction numbers with
  | nil => simp [insertOnce]
  | cons m rest ih =>
      rw [List.pairwise_cons] at h
      simp only [insertOnce]
      split
      · rename_i below
        simp only [List.pairwise_cons, List.mem_cons, forall_eq_or_imp]
        exact ⟨⟨below, fun k hk => Nat.lt_trans below (h.1 k hk)⟩, h⟩
      · split
        · exact List.pairwise_cons.2 h
        · refine List.pairwise_cons.2 ⟨fun k hk => ?_, ih h.2⟩
          rcases mem_insertOnce.1 hk with rfl | hk
          · omega
          · exact h.1 k hk

theorem pairwise_ascendingSet (numbers : List Nat) :
    (ascendingSet numbers).Pairwise (· < ·) := by
  induction numbers with
  | nil => exact List.Pairwise.nil
  | cons n rest ih => exact pairwise_insertOnce ih

/-- Whether a number is among some ascending ones, by halving the part of the list that it may be in
    at most so many times. The number in the middle is looked at and stays with those after it. -/
def foundWithin (n : Nat) : Nat → List Nat → Bool
  | 0, _ => false
  | limit + 1, numbers =>
      if h : 1 < numbers.length then
        if n < numbers.get ⟨numbers.length / 2, by omega⟩ then
          foundWithin n limit (numbers.take (numbers.length - numbers.length / 2))
        else foundWithin n limit (numbers.drop (numbers.length / 2))
      else numbers.head? == some n

/-- Whether a number is among some ascending ones, by binary search. A list is halved fewer times
    than it has members. -/
def binarySearch (n : Nat) (numbers : List Nat) : Bool := foundWithin n numbers.length numbers

theorem getElem_le_of_ascending {numbers : List Nat} (ascending : numbers.Pairwise (· < ·))
    {i j : Nat} (before : i ≤ j) (inside : j < numbers.length) : numbers[i] ≤ numbers[j] := by
  rcases Nat.eq_or_lt_of_le before with rfl | before
  · exact Nat.le_refl _
  · exact Nat.le_of_lt (List.pairwise_iff_getElem.1 ascending i j _ inside before)

theorem foundWithin_iff {n limit : Nat} {numbers : List Nat} (ascending : numbers.Pairwise (· < ·))
    (enough : numbers.length ≤ limit) : foundWithin n limit numbers = true ↔ n ∈ numbers := by
  induction limit generalizing numbers with
  | zero =>
      rw [List.eq_nil_of_length_eq_zero (Nat.le_zero.1 enough)]
      simp [foundWithin]
  | succ limit ih =>
      unfold foundWithin
      split
      · rename_i several
        have middle : numbers.length / 2 < numbers.length := by omega
        -- A number below the middle stands before it, and any other one from the middle on.
        split
        · rename_i below
          rw [ih (ascending.sublist (List.take_sublist _ _)) (by simp; omega)]
          refine ⟨List.mem_of_mem_take, fun member => ?_⟩
          obtain ⟨i, inside, rfl⟩ := List.mem_iff_getElem.1 member
          have first : i < numbers.length / 2 := by
            apply Nat.lt_of_not_le
            intro late
            exact Nat.not_le_of_lt below (getElem_le_of_ascending ascending late inside)
          exact List.mem_take_iff_getElem.2 ⟨i, by omega, rfl⟩
        · rename_i above
          rw [ih (ascending.sublist (List.drop_sublist _ _)) (by simp; omega)]
          refine ⟨List.mem_of_mem_drop, fun member => ?_⟩
          obtain ⟨i, inside, rfl⟩ := List.mem_iff_getElem.1 member
          have second : numbers.length / 2 ≤ i := by
            apply Nat.le_of_not_lt
            intro early
            exact above (List.pairwise_iff_getElem.1 ascending i _ inside middle early)
          refine List.mem_drop_iff_getElem.2 ⟨i - numbers.length / 2, by omega, ?_⟩
          congr 1
          omega
      · rename_i single
        match numbers with
        | [] => simp
        | [m] =>
            rw [List.head?_cons, beq_iff_eq, Option.some.injEq, List.mem_singleton]
            exact eq_comm
        | _ :: _ :: _ => simp at single

theorem binarySearch_iff {n : Nat} {numbers : List Nat} (ascending : numbers.Pairwise (· < ·)) :
    binarySearch n numbers = true ↔ n ∈ numbers :=
  foundWithin_iff ascending (Nat.le_refl _)

namespace IncidenceMatrix

/-- The row and column of the first entry past the last column, in row order. -/
def firstOutside? (columns : Nat) (rows : List (List Nat)) : Option (Nat × Nat) :=
  rows.zipIdx.findSome? fun (row, index) =>
    (row.find? (columns ≤ ·)).map fun column => (index, column)

theorem inside_of_firstOutside?_eq_none {columns : Nat} {rows : List (List Nat)}
    (h : firstOutside? columns rows = none) :
    ∀ row ∈ rows, ∀ column ∈ row, column < columns := by
  intro row hrow column hcolumn
  obtain ⟨index, hindex⟩ := List.mem_iff_getElem?.1 hrow
  have member : (row, index) ∈ rows.zipIdx := List.mk_mem_zipIdx_iff_getElem?.2 hindex
  have absent := List.findSome?_eq_none_iff.1 h _ member
  simp only [Option.map_eq_none_iff, List.find?_eq_none, decide_eq_true_eq, Nat.not_le] at absent
  exact absent column hcolumn

/-- The matrix with these rows, whose columns may come in any order and more than once. Of the
    entries past the last column, the first row's smallest is reported. -/
def ofRows (columns : Nat) (rows : List (List Nat)) : Except Error IncidenceMatrix :=
  match h : firstOutside? columns (rows.map ascendingSet) with
  | some (row, column) => .error (.columnOutside row column columns)
  | none => .ok {
      columns
      rows := (rows.map ascendingSet).toArray
      ascending := by
        intro row hrow
        obtain ⟨given, _, rfl⟩ := List.mem_map.1 (List.mem_toArray.1 hrow)
        exact pairwise_ascendingSet given
      inside := fun row hrow => inside_of_firstOutside?_eq_none h row (List.mem_toArray.1 hrow) }

def empty : IncidenceMatrix := ⟨0, #[], by simp, by simp⟩

def size (matrix : IncidenceMatrix) : Nat := matrix.rows.size

def isEmpty (matrix : IncidenceMatrix) : Bool := matrix.rows.isEmpty

/-- The set columns of a row, if there is such a row. -/
def row? (matrix : IncidenceMatrix) (row : Nat) : Option (List Nat) := matrix.rows[row]?

/-- Whether a row exists and sets a column. -/
def get (matrix : IncidenceMatrix) (row column : Nat) : Bool :=
  (matrix.row? row).any (binarySearch column)

/-- A binary search overlooks no column of a row, because rows ascend. -/
theorem get_eq (matrix : IncidenceMatrix) (row column : Nat) :
    matrix.get row column = (matrix.row? row).any (·.contains column) := by
  unfold get
  cases found : matrix.row? row with
  | none => rfl
  | some columns =>
      have ascending := matrix.ascending columns (Array.mem_of_getElem? found)
      rw [Option.any_some, Option.any_some, Bool.eq_iff_iff, binarySearch_iff ascending,
        List.contains_iff_mem]

/-- The rows with the given numbers, without those that do not exist. -/
def rowsAt (matrix : IncidenceMatrix) (numbers : List Nat) : List (List Nat) :=
  numbers.filterMap matrix.row?

theorem mem_rows_of_mem_rowsAt {matrix : IncidenceMatrix} {numbers : List Nat} {row : List Nat}
    (h : row ∈ matrix.rowsAt numbers) : row ∈ matrix.rows := by
  obtain ⟨number, _, found⟩ := List.mem_filterMap.1 h
  exact Array.mem_of_getElem? found

/-- Whether a row does not come after another in lexicographic order. -/
def notAfter : List Nat → List Nat → Bool
  | [], _ => true
  | _ :: _, [] => false
  | a :: as, b :: bs => a < b || (a == b && notAfter as bs)

/-- The matrix of the given rows in lexicographic order, so that the order in which they are
    given does not matter. Numbers of no row are skipped. -/
def select (matrix : IncidenceMatrix) (numbers : List Nat) : IncidenceMatrix where
  columns := matrix.columns
  rows := ((matrix.rowsAt numbers).mergeSort notAfter).toArray
  ascending := by
    intro row hrow
    exact matrix.ascending row
      (mem_rows_of_mem_rowsAt (List.mem_mergeSort.1 (List.mem_toArray.1 hrow)))
  inside := by
    intro row hrow
    exact matrix.inside row
      (mem_rows_of_mem_rowsAt (List.mem_mergeSort.1 (List.mem_toArray.1 hrow)))

/-- A set of rows is an exact cover when every column is set by exactly one of them. The rows
    are listed once each, and a row that sets no column takes no part. -/
structure IsExactCover (matrix : IncidenceMatrix) (chosen : List Nat) : Prop where
  nodup : chosen.Nodup
  /-- Every number listed is that of a row with a set column. -/
  proper : ∀ number ∈ chosen, ∃ row, matrix.row? number = some row ∧ row ≠ []
  /-- Every column is set by exactly one listed row. -/
  covered : ∀ column < matrix.columns, ∃ number ∈ chosen,
    matrix.get number column ∧ ∀ other ∈ chosen, matrix.get other column → other = number

end IncidenceMatrix

end ExactCover
