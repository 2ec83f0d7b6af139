import ExactCover.Sudoku.Board
import ExactCover.Proofs.Markings

/-! # Arrangements in nine boxes

A grid tells of each digit in which row and in which column of each box it stands. In a band the
digit is in three different rows, and in three boxes below each other it is in three different
columns. Whatever the boxes on the diagonal hold, the six other ones can be arranged to fit them.
-/

namespace ExactCover

open Sorting

/-- The rows and columns that things stand in, in each of nine boxes. -/
structure Arrangement (α : Type) where
  row : Fin 3 → Fin 3 → Sorting α
  column : Fin 3 → Fin 3 → Sorting α
  /-- No two things stand in the same place of a box. -/
  crosses : ∀ i j, (row i j).Crosses (column i j)
  /-- Nothing stands in the same row of two boxes of a band. -/
  row_inj : ∀ i a, Function.Injective fun j => row i j a
  /-- Nothing stands in the same column of two boxes below each other. -/
  column_inj : ∀ j a, Function.Injective fun i => column i j a

namespace Arrangement

variable {α : Type}

theorem even_of_crosses [Fintype α] (nine : Fintype.card α = 9) {f g : Sorting α}
    (crosses : f.Crosses g) : f.Even := by
  obtain ⟨e, rfl, _⟩ := exists_places nine crosses
  refine (even_comp e).mpr fun line => ?_
  revert line
  decide

theorem injective_of_ne {x y z : Sorting α} {a : α} (one : x a ≠ y a) (two : x a ≠ z a)
    (three : y a ≠ z a) : Function.Injective fun k => ![x, y, z] k a := by
  have lines : ∀ x y z : Fin 3, x ≠ y → x ≠ z → y ≠ z → Function.Injective ![x, y, z] := by
    decide
  have same : (fun k => ![x, y, z] k a) = ![x a, y a, z a] := by
    funext k
    fin_cases k <;> rfl
  exact same ▸ lines _ _ _ one two three

/-- The boxes that are not on the diagonal can be arranged to fit the three that are. Each of them
    touches two others, by the rows of a band on one side and by the columns of boxes below each
    other on the other side, so that the six of them go round in a ring. -/
theorem exists_of_diagonal [Fintype α] (nine : Fintype.card α = 9) {row column : Fin 3 → Sorting α}
    (crosses : ∀ k, (row k).Crosses (column k)) : ∃ arrangement : Arrangement α,
      ∀ k, arrangement.row k k = row k ∧ arrangement.column k k = column k := by
  have rows_even := fun k => even_of_crosses nine (crosses k)
  have columns_even := fun k => even_of_crosses nine (crosses k).symm
  obtain ⟨q₀, r₀, q₃, r₃, apart₀, apart₃, ⟨q₁, r₁, q₂, r₂, apart₁, apart₂, meet₀₁, meet₁₂, meet₂₃⟩,
    ⟨q₄, r₄, q₅, r₅, apart₄, apart₅, meet₃₄, meet₄₅, meet₅₀⟩⟩ :=
    exists_corners nine (crosses 0) (columns_even 1) (rows_even 2) (rows_even 1) (columns_even 2)
  let rows : Fin 3 → Fin 3 → Sorting α := ![![row 0, q₀, r₀], ![r₄, row 1, q₄], ![q₂, r₂, row 2]]
  let columns : Fin 3 → Fin 3 → Sorting α := fun i j =>
    ![![column 0, q₃, r₃], ![r₁, column 1, q₁], ![q₅, r₅, column 2]] j i
  refine ⟨⟨rows, columns, fun i j => ?_, fun i a => ?_, fun j a => ?_⟩, fun k => ?_⟩
  · fin_cases i <;> fin_cases j
    · exact crosses 0
    · exact meet₀₁.symm
    · exact meet₅₀.symm
    · exact meet₃₄
    · exact crosses 1
    · exact meet₄₅
    · exact meet₂₃
    · exact meet₁₂.symm
    · exact crosses 2
  · obtain ⟨one, two, three⟩ := apart₀ a
    obtain ⟨one₂, two₂, three₂⟩ := apart₂ a
    obtain ⟨one₄, two₄, three₄⟩ := apart₄ a
    fin_cases i
    · exact injective_of_ne one two three
    · exact injective_of_ne two₄.symm three₄.symm one₄
    · exact injective_of_ne three₂ one₂.symm two₂.symm
  · obtain ⟨one, two, three⟩ := apart₃ a
    obtain ⟨one₁, two₁, three₁⟩ := apart₁ a
    obtain ⟨one₅, two₅, three₅⟩ := apart₅ a
    fin_cases j
    · exact injective_of_ne one two three
    · exact injective_of_ne two₁.symm three₁.symm one₁
    · exact injective_of_ne three₅ one₅.symm two₅.symm
  · fin_cases k <;> exact ⟨rfl, rfl⟩

end Arrangement

/-! ### Lines of the grid -/

/-- A row or column of the grid, by its band and its place in the band. -/
def lineOf (band place : Fin 3) : Fin 9 := ⟨3 * band + place, by omega⟩

def placeOf (line : Fin 9) : Fin 3 := ⟨line % 3, by omega⟩

theorem bandOf_lineOf (band place : Fin 3) : bandOf (lineOf band place) = band := by
  simp only [bandOf, lineOf, Fin.ext_iff]
  omega

theorem placeOf_lineOf (band place : Fin 3) : placeOf (lineOf band place) = place := by
  simp only [placeOf, lineOf, Fin.ext_iff]
  omega

theorem lineOf_bandOf_placeOf (line : Fin 9) : lineOf (bandOf line) (placeOf line) = line := by
  simp only [bandOf, placeOf, lineOf, Fin.ext_iff]
  omega

theorem boxCell_lineOf (i j x y : Fin 3) :
    boxCell (lineOf i j) (lineOf x y) = cellAt (lineOf i x) (lineOf j y) := by
  simp only [boxCell, cellAt, lineOf, Fin.ext_iff]
  omega

theorem Board.digitAt_ofFn (f : Fin 9 → Fin 9 → Digit) (r c : Fin 9) :
    (ofFn f).digitAt r c = f r c := by
  have row : CellIndex.row (cellAt r c) = r := by
    simp only [CellIndex.row, cellAt, Fin.ext_iff]
    omega
  have column : CellIndex.column (cellAt r c) = c := by
    simp only [CellIndex.column, cellAt, Fin.ext_iff]
    omega
  simp only [digitAt, get, ofFn, Vector.getElem_ofFn, row, column]

/-! ### The grid of an arrangement -/

namespace Arrangement

/-- In each box of the grid, the digits stand where the arrangement has them. -/
def Fills (arrangement : Arrangement (Fin 9)) (grid : Board) : Prop := ∀ i j x y a,
  grid.digitAt (lineOf i x) (lineOf j y) = a.succ ↔
    arrangement.row i j a = x ∧ arrangement.column i j a = y

variable {arrangement : Arrangement (Fin 9)} {grid : Board}

theorem exists_fills (arrangement : Arrangement (Fin 9)) : ∃ grid, arrangement.Fills grid := by
  choose spot rows columns using fun i j => exists_places (by decide) (arrangement.crosses i j)
  refine ⟨.ofFn fun r c =>
    ((spot (bandOf r) (bandOf c)).symm (placeOf r, placeOf c)).succ, fun i j x y a => ?_⟩
  rw [Board.digitAt_ofFn, bandOf_lineOf, bandOf_lineOf, placeOf_lineOf, placeOf_lineOf,
    Fin.succ_inj, Equiv.symm_apply_eq, ← rows i j, ← columns i j, Prod.ext_iff]
  exact and_congr eq_comm eq_comm

/-- In three boxes of a band or below each other, a digit takes all three rows or columns. -/
theorem Fills.isGrid (h : arrangement.Fills grid) : grid.IsGrid where
  row := by
    intro r digit real
    obtain ⟨a, rfl⟩ := Fin.exists_succ_eq.mpr real
    rw [← lineOf_bandOf_placeOf r]
    have inj := arrangement.row_inj (bandOf r) a
    obtain ⟨j, here⟩ := Finite.surjective_of_injective inj (placeOf r)
    refine ⟨lineOf j (arrangement.column (bandOf r) j a), (h ..).mpr ⟨here, rfl⟩, ?_⟩
    intro c found
    rw [← lineOf_bandOf_placeOf c] at found ⊢
    obtain ⟨there, place⟩ := (h ..).mp found
    rw [← place, inj (there.trans here.symm)]
  column := by
    intro c digit real
    obtain ⟨a, rfl⟩ := Fin.exists_succ_eq.mpr real
    rw [← lineOf_bandOf_placeOf c]
    have inj := arrangement.column_inj (bandOf c) a
    obtain ⟨i, here⟩ := Finite.surjective_of_injective inj (placeOf c)
    refine ⟨lineOf i (arrangement.row i (bandOf c) a), (h ..).mpr ⟨rfl, here⟩, ?_⟩
    intro r found
    rw [← lineOf_bandOf_placeOf r] at found ⊢
    obtain ⟨place, there⟩ := (h ..).mp found
    rw [← place, inj (there.trans here.symm)]
  box := by
    intro b digit real
    obtain ⟨a, rfl⟩ := Fin.exists_succ_eq.mpr real
    rw [← lineOf_bandOf_placeOf b]
    refine ⟨lineOf (arrangement.row (bandOf b) (placeOf b) a)
      (arrangement.column (bandOf b) (placeOf b) a), ?_, fun k found => ?_⟩
    · rw [boxCell_lineOf]
      exact (h ..).mpr ⟨rfl, rfl⟩
    · rw [← lineOf_bandOf_placeOf k, boxCell_lineOf] at found
      obtain ⟨row, column⟩ := (h ..).mp found
      rw [row, column, lineOf_bandOf_placeOf]

end Arrangement

end ExactCover
