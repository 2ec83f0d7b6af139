import ExactCover.Proofs.Arrangements
import ExactCover.Proofs.Generation

/-! # Filling the boxes on the diagonal

Each of the three boxes on the diagonal of the grid is filled by a shuffle. A box that holds all
nine digits tells of each digit its row and its column, and an arrangement that fits the three boxes
completes the board. The search finds a completion when there is one, so that generating a puzzle
never fails.
-/

namespace ExactCover

/-- The boxes on the diagonal of the grid, from the top. -/
def diagonalBox (k : Fin 3) : Fin 9 := ⟨4 * k, by omega⟩

theorem diagonalBox_eq (k : Fin 3) : diagonalBox k = lineOf k k := by
  simp only [diagonalBox, lineOf, Fin.ext_iff]
  omega

/-! ### Shuffles -/

section Shuffles

variable {α σ : Type} {n : Nat}

theorem swapIfInBounds_perm (items : Vector α n) (i j : Nat) :
    (items.swapIfInBounds i j).toList.Perm items.toList := by
  rw [← Vector.perm_iff_toList_perm, Vector.perm_iff_toArray_perm, Vector.toArray_swapIfInBounds,
    Array.swapIfInBounds_def]
  split
  · split
    · exact Array.swap_perm _ _
    · exact Array.Perm.refl _
  · exact Array.Perm.refl _

theorem shuffle_perm (draw : Draw σ) (items : Vector α n) (state : σ) :
    (shuffle draw items state).1.toList.Perm items.toList := by
  unfold shuffle
  generalize List.range (n - 1) = places
  induction places generalizing items state with
  | nil => exact List.Perm.refl _
  | cons k places ih =>
      rw [List.foldl_cons]
      exact (ih _ _).trans (swapIfInBounds_perm items _ _)

end Shuffles

namespace Generator

variable {σ : Type} {box : Vector Digit 9} {boxes : Fin 3 → Vector Digit 9} {grid : Board}

theorem shuffledBoxes_perm (draw : Draw σ) (state : σ) (k : Fin 3) :
    ((shuffledBoxes draw state).1 k).toList.Perm sortedBox.toList := by
  fin_cases k
  · exact shuffle_perm draw sortedBox _
  · exact shuffle_perm draw sortedBox _
  · exact shuffle_perm draw sortedBox _

/-! ### Boxes that hold all digits -/

theorem toList_getElem? (box : Vector Digit 9) (p : Fin 9) :
    box.toList[p.val]? = some (box.get p) := by
  simp [Vector.get]

theorem get_ne_zero (perm : box.toList.Perm sortedBox.toList) (p : Fin 9) : box.get p ≠ 0 := by
  have member := perm.mem_iff.mp (List.mem_of_getElem? (toList_getElem? box p))
  intro blank
  rw [blank] at member
  revert member
  decide

theorem exists_get_eq (perm : box.toList.Perm sortedBox.toList) (a : Fin 9) :
    ∃ p, box.get p = a.succ := by
  have sorted : ∀ a : Fin 9, a.succ ∈ sortedBox.toList := by decide
  obtain ⟨p, found⟩ := List.mem_iff_getElem?.mp (perm.mem_iff.mpr (sorted a))
  have inside : p < 9 := by
    simpa using (List.getElem?_eq_some_iff.mp found).1
  exact ⟨⟨p, inside⟩, Option.some.inj ((toList_getElem? box ⟨p, inside⟩).symm.trans found)⟩

theorem get_injective (perm : box.toList.Perm sortedBox.toList) : Function.Injective box.get := by
  have nodup : box.toList.Nodup := perm.nodup_iff.mpr (by decide)
  intro p q same
  have found : box.toList[p.val]? = box.toList[q.val]? := by
    rw [toList_getElem?, toList_getElem?, same]
  exact Fin.ext ((List.getElem?_inj (by simp) nodup).mp found)

/-- The rows and columns of the digits in a box. -/
theorem exists_sortings (perm : box.toList.Perm sortedBox.toList) :
    ∃ row column : Sorting (Fin 9), row.Crosses column ∧
      ∀ a, box.get (lineOf (row a) (column a)) = a.succ := by
  choose place held using exists_get_eq perm
  refine ⟨fun a => bandOf (place a), fun a => placeOf (place a), ?_, fun a => ?_⟩
  · intro a b (rows : bandOf (place a) = bandOf (place b))
      (columns : placeOf (place a) = placeOf (place b))
    apply Fin.succ_inj.mp
    rw [← held a, ← held b, ← lineOf_bandOf_placeOf (place a), rows, columns,
      lineOf_bandOf_placeOf]
  · rw [lineOf_bandOf_placeOf, held]

/-! ### Completions -/

theorem boxCell_diagonalBox (k : Fin 3) (p : Fin 9) :
    boxCell (diagonalBox k) p = cellAt (lineOf k (bandOf p)) (lineOf k (placeOf p)) := by
  rw [diagonalBox_eq, ← boxCell_lineOf, lineOf_bandOf_placeOf]

theorem boxPlace_lineOf (i j x y : Fin 3) :
    boxPlace (lineOf i x) (lineOf j y) = lineOf x y := by
  simp only [boxPlace, lineOf, Fin.ext_iff]
  omega

theorem get_ofDiagonal (boxes : Fin 3 → Vector Digit 9) (k : Fin 3) (p : Fin 9) :
    (Board.ofDiagonal boxes).get (boxCell (diagonalBox k) p) = (boxes k).get p := by
  rw [boxCell_diagonalBox]
  refine (Board.digitAt_ofFn _ _ _).trans ?_
  rw [bandOf_lineOf, bandOf_lineOf, if_pos rfl, boxPlace_lineOf, lineOf_bandOf_placeOf]

/-- The cells that are not blank are those of the boxes on the diagonal. -/
theorem exists_boxCell_of_ofDiagonal {cell : CellIndex}
    (real : (Board.ofDiagonal boxes).get cell ≠ 0) :
    ∃ k p, boxCell (diagonalBox k) p = cell := by
  rw [← Board.cellAt_row_column cell] at real ⊢
  generalize CellIndex.row cell = r, CellIndex.column cell = c at real ⊢
  have held := Board.digitAt_ofFn (fun row column => if bandOf row = bandOf column then
    (boxes (bandOf row)).get (boxPlace row column) else 0) r c
  by_cases same : bandOf r = bandOf c
  · refine ⟨bandOf r, lineOf (placeOf r) (placeOf c), ?_⟩
    rw [boxCell_diagonalBox, bandOf_lineOf, placeOf_lineOf, lineOf_bandOf_placeOf, same,
      lineOf_bandOf_placeOf]
  · rw [if_neg same] at held
    exact absurd held real

theorem isCompletion_ofDiagonal_iff (real : ∀ k p, (boxes k).get p ≠ 0) :
    (Board.ofDiagonal boxes).IsCompletion grid ↔
      grid.IsGrid ∧ ∀ k p, grid.get (boxCell (diagonalBox k) p) = (boxes k).get p := by
  refine and_congr_right fun _ => ⟨fun keeps k p => ?_, fun held cell shown => ?_⟩
  · rw [← get_ofDiagonal]
    refine keeps _ ?_
    rw [get_ofDiagonal]
    exact real k p
  · obtain ⟨k, p, rfl⟩ := exists_boxCell_of_ofDiagonal shown
    rw [held, get_ofDiagonal]

theorem exists_completion (perms : ∀ k, (boxes k).toList.Perm sortedBox.toList) :
    ∃ grid, (Board.ofDiagonal boxes).IsCompletion grid := by
  choose row column crosses held using fun k => exists_sortings (perms k)
  obtain ⟨arrangement, fits⟩ := Arrangement.exists_of_diagonal (Fintype.card_fin 9) crosses
  obtain ⟨grid, fills⟩ := arrangement.exists_fills
  refine ⟨grid, (isCompletion_ofDiagonal_iff fun k => get_ne_zero (perms k)).mpr
    ⟨fills.isGrid, fun k p => ?_⟩⟩
  obtain ⟨a, digit⟩ := Fin.exists_succ_eq.mpr (get_ne_zero (perms k) p)
  obtain rfl := get_injective (perms k) ((held k a).trans digit)
  rw [held, diagonalBox_eq, boxCell_lineOf]
  exact (fills ..).mpr ⟨congrFun (fits k).1 a, congrFun (fits k).2 a⟩

theorem completeDiagonal_eq (perms : ∀ k, (boxes k).toList.Perm sortedBox.toList) : ∃ grid,
    (Board.ofDiagonal boxes).IsCompletion grid ∧
      (Board.ofDiagonal boxes).completionsUpTo 1 = .ok [grid] ∧
      completeDiagonal boxes = .ok grid ∧ grid.IsGrid ∧
      ∀ k p, grid.get (boxCell (diagonalBox k) p) = (boxes k).get p := by
  obtain ⟨other, completion⟩ := exists_completion perms
  cases found : (Board.ofDiagonal boxes).grids with
  | nil => exact absurd (Board.mem_grids.mpr completion) (by simp [found])
  | cons grid rest =>
      have searched : (Board.ofDiagonal boxes).completionsUpTo 1 = .ok [grid] := by
        rw [Board.completionsUpTo_eq, found]
        rfl
      have completed : completeDiagonal boxes = .ok grid := by
        rw [completeDiagonal, searched]
        rfl
      have completion := completeDiagonal_completes completed
      exact ⟨grid, completion, searched, completed,
        (isCompletion_ofDiagonal_iff fun k => get_ne_zero (perms k)).mp completion⟩

theorem exists_filledBoard (generator : Generator) : ∃ grid after,
    generator.filledBoard = .ok (grid, after) ∧ grid.IsGrid ∧ ∀ k p,
      grid.get (boxCell (diagonalBox k) p) =
        ((shuffledBoxes RandomSource.below generator.source).1 k).get p := by
  obtain ⟨grid, _, _, completed, rest⟩ :=
    completeDiagonal_eq (shuffledBoxes_perm RandomSource.below generator.source)
  exact ⟨grid, _, filledBoard_eq_ok completed, rest⟩

theorem exists_withClues (generator : Generator) (target : Nat) : ∃ made later,
    generator.withClues target = .ok (made, later) := by
  obtain ⟨grid, after, filled, _⟩ := exists_filledBoard generator
  obtain ⟨_, made, later, _, puzzle, _⟩ := exists_made target filled
  exact ⟨made, later, puzzle⟩

/-- However the boxes on the diagonal are shuffled, they are completed to a grid that holds them, and
    whatever is drawn then, the clues that are left make a puzzle. So a generator never fails. -/
theorem generator_never_fails :
    (∀ boxes : Fin 3 → Vector Digit 9, (∀ k, (boxes k).toList.Perm sortedBox.toList) → ∃ grid,
      (Board.ofDiagonal boxes).IsCompletion grid ∧
        (Board.ofDiagonal boxes).completionsUpTo 1 = .ok [grid] ∧
        completeDiagonal boxes = .ok grid ∧ grid.IsGrid ∧
        (∀ k p, grid.get (boxCell (diagonalBox k) p) = (boxes k).get p) ∧
        ∀ (σ : Type) (draw : Draw σ) (source : σ) (target maxTries : Nat), ∃ removed puzzle,
          RemovalState.run draw judge target maxTries ⟨.start grid, source, ()⟩ = .ok removed ∧
            Puzzle.ofBoards removed.clues [grid] = .ok puzzle) ∧
    (∀ (σ : Type) (draw : Draw σ) (state : σ) (k : Fin 3),
      ((shuffledBoxes draw state).1 k).toList.Perm sortedBox.toList) ∧
    (∀ generator : Generator, ∃ grid after, generator.filledBoard = .ok (grid, after) ∧
      grid.IsGrid ∧ ∀ k p, grid.get (boxCell (diagonalBox k) p) =
        ((shuffledBoxes RandomSource.below generator.source).1 k).get p) ∧
    (∀ (generator : Generator) (target : Nat), ∃ made later,
      generator.withClues target = .ok (made, later)) ∧
    ∀ (generator : Generator) (difficulty : Difficulty), ∃ made later,
      generator.generate difficulty = .ok (made, later) := by
  refine ⟨fun boxes perms => ?_, fun _ => shuffledBoxes_perm, exists_filledBoard,
    exists_withClues, fun generator difficulty => exists_withClues generator difficulty.clues⟩
  obtain ⟨grid, completion, searched, completed, isGrid, held⟩ := completeDiagonal_eq perms
  refine ⟨grid, completion, searched, completed, isGrid, held, ?_⟩
  intro σ draw source target maxTries
  obtain ⟨removed, puzzle, run, made, _⟩ := exists_puzzle isGrid draw target maxTries source
  exact ⟨removed, puzzle, run, made⟩

/-- With all three boxes in ascending order. -/
theorem sortedBoxes_completed : ∃ grid, completeDiagonal (fun _ => sortedBox) = .ok grid ∧
    grid.IsGrid ∧ ∀ k p, grid.get (boxCell (diagonalBox k) p) = sortedBox.get p := by
  obtain ⟨grid, _, _, completed, isGrid, held, _⟩ :=
    generator_never_fails.1 (fun _ => sortedBox) fun _ => List.Perm.refl sortedBox.toList
  exact ⟨grid, completed, isGrid, held⟩

end Generator

end ExactCover
