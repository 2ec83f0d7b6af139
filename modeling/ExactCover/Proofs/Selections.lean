import ExactCover.Proofs.ExactSearch
import ExactCover.Proofs.MatrixText

/-! # Selections as multisets of rows

A selection lists the rows of a matrix in lexicographic order, in which no two different rows take
the same place. So a selection says which rows have been taken and how often, and says nothing
else. Two selections can be compared even when they come from different matrices.

Whether some rows are an exact cover can be read off their selection.
-/

namespace ExactCover.IncidenceMatrix

variable {matrix other : IncidenceMatrix} {numbers others chosen : List Nat}

/-! ### The order of the rows -/

/-- The order of a selection is the lexicographic order of lists. -/
theorem notAfter_iff {row next : List Nat} : notAfter row next = true ↔ row ≤ next := by
  rw [← not_lt]
  induction row generalizing next with
  | nil => exact iff_of_true rfl (List.not_lt_nil next)
  | cons a row ih =>
      cases next with
      | nil => exact iff_of_false Bool.false_ne_true (not_not.mpr (List.nil_lt_cons a row))
      | cons b next =>
          simp only [notAfter, Bool.or_eq_true, Bool.and_eq_true, decide_eq_true_eq, beq_iff_eq, ih,
            List.cons_lt_cons_iff]
          rcases Nat.lt_trichotomy a b with less | rfl | more
          · simp [less, Nat.lt_asymm less, less.ne']
          · simp
          · simp [more, Nat.lt_asymm more, more.ne']

theorem pairwise_select (matrix : IncidenceMatrix) (numbers : List Nat) :
    (matrix.select numbers).rows.toList.Pairwise (· ≤ ·) := by
  have order : notAfter = fun row next => decide (row ≤ next) := by
    funext row next
    rw [Bool.eq_iff_iff, notAfter_iff, decide_eq_true_eq]
  rw [select, List.toList_toArray, order]
  exact List.pairwise_mergeSort' (· ≤ ·) (matrix.rowsAt numbers)

theorem perm_select (matrix : IncidenceMatrix) (numbers : List Nat) :
    (matrix.select numbers).rows.toList.Perm (matrix.rowsAt numbers) := by
  rw [select, List.toList_toArray]
  exact List.mergeSort_perm _ _

/-! ### Comparing selections -/

/-- Two selections list their rows in the same order when these are the same rows. -/
theorem select_eq_iff : matrix.select numbers = other.select others ↔
    matrix.columns = other.columns ∧ (matrix.rowsAt numbers).Perm (other.rowsAt others) := by
  have mine := perm_select matrix numbers
  have theirs := perm_select other others
  constructor
  · intro same
    have width : (matrix.select numbers).columns = (other.select others).columns :=
      congrArg columns same
    rw [same] at mine
    exact ⟨width, mine.symm.trans theirs⟩
  · rintro ⟨width, rows⟩
    refine ext_rows width (Array.toList_inj.mp ?_)
    apply List.Perm.eq_of_pairwise' (pairwise_select matrix numbers) (pairwise_select other others)
    exact mine.trans (rows.trans theirs.symm)

theorem filterMap_getElem?_range {α : Type} (items : List α) :
    (List.range items.length).filterMap (items[·]?) = items := by
  induction items with
  | nil => rfl
  | cons item items ih =>
      rw [List.length_cons, List.range_succ_eq_map, List.filterMap_cons, List.filterMap_map]
      exact congrArg (item :: ·) ih

theorem rowsAt_range (matrix : IncidenceMatrix) :
    matrix.rowsAt (List.range matrix.size) = matrix.rows.toList := by
  have found : matrix.row? = fun number => matrix.rows.toList[number]? := by
    funext number
    rw [row?, Array.getElem?_toList]
  rw [rowsAt, found, size, ← Array.length_toList]
  exact filterMap_getElem?_range matrix.rows.toList

/-- Selecting all rows of a selection gives the selection. -/
theorem select_select (matrix : IncidenceMatrix) (numbers : List Nat) :
    (matrix.select numbers).select (List.range (matrix.select numbers).size) =
      matrix.select numbers := by
  refine select_eq_iff.mpr ⟨rfl, ?_⟩
  rw [rowsAt_range]
  exact perm_select matrix numbers

/-! ### Exact covers -/

/-- Among the rows with the given numbers as many set a column as among the numbers. -/
theorem countP_rowsAt (matrix : IncidenceMatrix) (numbers : List Nat) (column : Nat) :
    (matrix.rowsAt numbers).countP (·.contains column) =
      numbers.countP (matrix.get · column) := by
  rw [rowsAt, List.countP_filterMap]
  refine List.countP_congr fun number _ => ?_
  rw [get_eq]
  cases matrix.row? number with
  | none => rfl
  | some row => rfl

theorem countP_select (matrix : IncidenceMatrix) (numbers : List Nat) (column : Nat) :
    (List.range (matrix.select numbers).size).countP ((matrix.select numbers).get · column) =
      numbers.countP (matrix.get · column) := by
  rw [← countP_rowsAt, rowsAt_range, (perm_select matrix numbers).countP_eq, countP_rowsAt]

/-- Rows that set a column each are an exact cover when every column is counted once. -/
theorem isExactCover_iff_countP
    (proper : ∀ number ∈ chosen, ∃ row, matrix.row? number = some row ∧ row ≠ []) :
    matrix.IsExactCover chosen ↔
      ∀ column < matrix.columns, chosen.countP (matrix.get · column) = 1 := by
  rw [isExactCover_iff]
  constructor
  · intro fills column below
    exact fills.once column (List.mem_range.mpr below)
  · intro once
    refine ⟨fun number member => ⟨?_, fun column sets => ?_⟩, fun column below => ?_⟩
    · obtain ⟨row, found, some⟩ := proper number member
      rwa [rowAt, found, Option.getD_some]
    · exact List.mem_range.mpr (get_inside (mem_rowAt.mp sets)).2
    · exact once column (List.mem_range.mp below)

/-- A row of the selection is one of the rows that have been taken. -/
theorem exists_number_of_select {row : List Nat} (member : row ∈ (matrix.select numbers).rows) :
    ∃ number ∈ numbers, matrix.row? number = some row :=
  List.mem_filterMap.mp ((perm_select matrix numbers).mem_iff.mp (Array.mem_toList_iff.mpr member))

/-- All rows of a matrix are an exact cover when every column is set in exactly one of them. -/
theorem isExactCover_range_iff (proper : ∀ row ∈ matrix.rows, row ≠ []) :
    matrix.IsExactCover (List.range matrix.size) ↔
      ∀ column < matrix.columns, ∃! r, matrix.get r column = true := by
  constructor
  · intro cover column below
    obtain ⟨r, _, sets, unique⟩ := cover.covered column below
    refine ⟨r, sets, fun another also => ?_⟩
    exact unique another (List.mem_range.mpr (get_inside also).1) also
  · intro once
    refine ⟨List.nodup_range, fun number member => ?_, fun column below => ?_⟩
    · have inside : number < matrix.rows.size := List.mem_range.mp member
      exact ⟨_, Array.getElem?_eq_getElem inside, proper _ (Array.getElem_mem inside)⟩
    · obtain ⟨r, sets, unique⟩ := once column below
      exact ⟨r, List.mem_range.mpr (get_inside sets).1, sets, fun another _ => unique another⟩

theorem isExactCover_iff_select
    (proper : ∀ number ∈ numbers, ∃ row, matrix.row? number = some row ∧ row ≠ []) :
    matrix.IsExactCover numbers ↔
      ∀ column < matrix.columns, ∃! r, (matrix.select numbers).get r column = true := by
  have kept : ∀ row ∈ (matrix.select numbers).rows, row ≠ [] := by
    intro row member
    obtain ⟨number, listed, found⟩ := exists_number_of_select member
    obtain ⟨same, found', some⟩ := proper number listed
    rwa [Option.some.inj (found.symm.trans found')]
  have all : ∀ r ∈ List.range (matrix.select numbers).size,
      ∃ row, (matrix.select numbers).row? r = some row ∧ row ≠ [] := by
    intro r member
    have inside : r < (matrix.select numbers).rows.size := List.mem_range.mp member
    exact ⟨_, Array.getElem?_eq_getElem inside, kept _ (Array.getElem_mem inside)⟩
  calc matrix.IsExactCover numbers
      ↔ ∀ column < matrix.columns, numbers.countP (matrix.get · column) = 1 :=
        isExactCover_iff_countP proper
    _ ↔ (matrix.select numbers).IsExactCover (List.range (matrix.select numbers).size) := by
        rw [isExactCover_iff_countP all]
        simp only [countP_select]
        rfl
    _ ↔ _ := isExactCover_range_iff kept

/-- Selections are equal when their matrices have as many columns and the rows taken are the same,
    each as often. The order of the numbers does not matter, nor do numbers of no row, and a
    selection of all rows of a selection is the selection again. Rows that set a column each are an
    exact cover when every column is set in exactly one row of their selection. -/
theorem selections_are_multisets :
    (∀ (matrix other : IncidenceMatrix) (numbers others : List Nat),
      matrix.select numbers = other.select others ↔ matrix.columns = other.columns ∧
        (numbers : Multiset Nat).filterMap matrix.row? =
          (others : Multiset Nat).filterMap other.row?) ∧
    (∀ (matrix : IncidenceMatrix) (numbers others : List Nat), numbers.Perm others →
      matrix.select numbers = matrix.select others) ∧
    (∀ (matrix : IncidenceMatrix) (numbers : List Nat),
      (matrix.select numbers).select (List.range (matrix.select numbers).size) =
        matrix.select numbers) ∧
    ∀ (matrix : IncidenceMatrix) (numbers : List Nat),
      (∀ number ∈ numbers, ∃ row, matrix.row? number = some row ∧ row ≠ []) →
      (matrix.IsExactCover numbers ↔
        ∀ column < matrix.columns, ∃! r, (matrix.select numbers).get r column = true) := by
  refine ⟨fun matrix other numbers others => ?_, fun matrix numbers others same => ?_, select_select,
    fun matrix numbers => isExactCover_iff_select⟩
  · rw [Multiset.filterMap_coe, Multiset.filterMap_coe, Multiset.coe_eq_coe]
    exact select_eq_iff
  · exact select_eq_iff.mpr ⟨rfl, same.filterMap matrix.row?⟩

/-- Six rows, of which three are an exact cover. -/
def sixRows : IncidenceMatrix :=
  ⟨7, #[[2, 4, 5], [0, 3, 6], [1, 2, 5], [0, 3], [1, 6], [3, 4, 6]], by decide, by decide⟩

/-- The rows of the exact cover and a row more. -/
def fourRows : IncidenceMatrix :=
  ⟨7, #[[1, 6], [0, 3], [0, 1], [2, 4, 5]], by decide, by decide⟩

/-- The exact cover is selected in any order, with a number of no row, and from another matrix. -/
theorem six_rows_selected : sixRows.select [4, 0, 3] = sixRows.select [0, 3, 4] ∧
    sixRows.select [3, 9, 0, 4] = fourRows.select [0, 3, 1] ∧
    sixRows.IsExactCover [4, 0, 3] ∧ ∃! r, (sixRows.select [4, 0, 3]).get r 6 = true := by
  obtain ⟨compared, permuted, _, covers⟩ := selections_are_multisets
  have cover : sixRows.IsExactCover [4, 0, 3] := ⟨by decide, by decide, by decide⟩
  refine ⟨permuted sixRows _ _ (by decide), (compared _ _ _ _).mpr ⟨rfl, by decide⟩, cover, ?_⟩
  exact (covers sixRows [4, 0, 3] cover.proper).mp cover 6 (by decide)

end ExactCover.IncidenceMatrix
