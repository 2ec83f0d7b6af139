import ExactCover.Proofs.Placements

/-! # Reading a board off an exact cover

The placements of an exact cover fill every cell once, in whatever order they come, so that the
board read off them has just these placements.
-/

namespace ExactCover

theorem mapM_eq_ok {ε α β : Type} {next : α → Except ε β} {value : α → β} {items : List α}
    (each : ∀ item ∈ items, next item = .ok (value item)) :
    items.mapM next = .ok (items.map value) := by
  induction items with
  | nil => rfl
  | cons item items ih =>
      obtain ⟨first, others⟩ := List.forall_mem_cons.mp each
      simp only [List.mapM_cons, first, ih others, bind, Except.bind, pure, Except.pure,
        List.map_cons]

/-- The first column from 81 on that a placement sets is that of its row and digit. -/
theorem Placement.find?_constraints (placement : Placement) :
    placement.constraints.find? (81 ≤ ·) =
      some (81 + (placement.row : Nat) * 9 + placement.rank) := by
  have cell : ¬ 81 ≤ (placement.row : Nat) * 9 + placement.column := by omega
  have mark : 81 ≤ 81 + (placement.row : Nat) * 9 + placement.rank := by omega
  simp only [constraints, List.find?_cons, cell, mark, decide_false, decide_true]

namespace Board

open IncidenceMatrix

variable {board : Board} {placement : Placement}

theorem get_put (board : Board) (cell other : CellIndex) (digit : Digit) :
    (board.put cell digit).get other = if cell = other then digit else board.get other := by
  simp only [get, put, Vector.getElem_set, Fin.ext_iff]

/-- A matrix row that names a blank cell first, and then a digit of the cell's row, is placed. -/
theorem place_eq {matrix : IncidenceMatrix} {number cell mark : Nat} {columns : List Nat}
    (found : matrix.row? number = some columns) (first : columns.head? = some cell)
    (second : columns.find? (81 ≤ ·) = some mark) (inside : cell < 81)
    (empty : board.get ⟨cell, inside⟩ = 0) (below : mark < 162)
    (fits : 81 + cell / 9 * 9 ≤ mark ∧ mark < 81 + cell / 9 * 9 + 9) {digit : Digit}
    (shown : digit.val = mark - 81 - cell / 9 * 9 + 1) :
    place matrix board number = .ok (board.put ⟨cell, inside⟩ digit) := by
  simp only [place, found, first, second, dif_pos inside, if_pos empty, if_pos below, dif_pos fits,
    ← shown]

/-- Placing a placement of the puzzle writes its digit into its cell, when that is blank. -/
theorem place_number (blank : board.get placement.cell = 0) :
    place Placement.matrix board placement.number =
      .ok (board.put placement.cell placement.digit) := by
  have inside : (placement.row : Nat) * 9 + placement.column < 81 := by omega
  have shown : placement.digit.val = 81 + (placement.row : Nat) * 9 + placement.rank - 81 -
      ((placement.row : Nat) * 9 + placement.column) / 9 * 9 + 1 := by
    simp only [Placement.digit]
    omega
  exact place_eq (Placement.row?_number placement) rfl placement.find?_constraints inside blank
    (by omega) (by omega) shown

/-- Placing placements in different blank cells fills these cells and no others. -/
theorem foldlM_place {placements : List Placement} (apart : (placements.map Placement.cell).Nodup)
    (blank : ∀ placement ∈ placements, board.get placement.cell = 0) :
    ∃ after, (placements.map Placement.number).foldlM (place Placement.matrix) board = .ok after ∧
      (∀ placement ∈ placements, after.Has placement) ∧
      ∀ cell ∉ placements.map Placement.cell, after.get cell = board.get cell := by
  induction placements generalizing board with
  | nil => exact ⟨board, rfl, by simp, fun _ _ => rfl⟩
  | cons placement placements ih =>
      obtain ⟨fresh, apart⟩ := List.nodup_cons.mp apart
      have still : ∀ other ∈ placements,
          (board.put placement.cell placement.digit).get other.cell = 0 := by
        intro other member
        have differs : placement.cell ≠ other.cell :=
          fun same => fresh (same ▸ List.mem_map_of_mem member)
        rw [get_put, if_neg differs]
        exact blank other (List.mem_cons_of_mem placement member)
      obtain ⟨after, run, holds, keeps⟩ := ih apart still
      refine ⟨after, ?_, ?_, ?_⟩
      · rw [List.map_cons, List.foldlM_cons, place_number (blank placement List.mem_cons_self)]
        exact run
      · intro other member
        rcases List.mem_cons.mp member with rfl | member
        · rw [Has, keeps _ fresh, get_put, if_pos rfl]
        · exact holds other member
      · intro cell absent
        rw [List.map_cons, List.mem_cons, not_or] at absent
        rw [keeps cell absent.2, get_put, if_neg (Ne.symm absent.1)]

theorem get_blank (cell : CellIndex) : blank.get cell = 0 := by
  simp [get, blank]

theorem isFilled_of_get (filled : ∀ cell, board.get cell ≠ 0) : board.isFilled = true := by
  simp only [isFilled, toList, List.all_eq_true, decide_eq_true_eq]
  intro digit member
  obtain ⟨i, below, rfl⟩ := List.mem_iff_getElem.mp member
  have inside : i < 81 := by simpa using below
  exact filled ⟨i, inside⟩

/-- The rows of an exact cover are those of placements in different cells that fill every cell. -/
theorem exists_placements {rows : List Nat} (h : Placement.matrix.IsExactCover rows) :
    ∃ placements : List Placement, placements.map Placement.number = rows ∧
      (placements.map Placement.cell).Nodup ∧
      ∀ cell, ∃ placement ∈ placements, placement.cell = cell := by
  obtain ⟨placements, rfl⟩ : ∃ placements : List Placement,
      placements.map Placement.number = rows := by
    have numbers : ∀ n ∈ rows, n ∈ Set.range Placement.number := by
      intro n member
      obtain ⟨columns, found, _⟩ := h.proper n member
      exact Placement.exists_number found
    rw [← Set.mem_range, Set.range_list_map]
    exact numbers
  have members : ∀ n, n ∈ placements.map Placement.number ↔
      ∃ placement, placement ∈ placements ∧ placement.number = n := fun n => List.mem_map
  obtain ⟨distinct, complete⟩ := (Placement.isExactCover_iff_complete members).mp h
  refine ⟨placements, rfl, ?_, fun cell => ?_⟩
  · refine List.Nodup.map_on (fun one first two second same => ?_) (List.Nodup.of_map _ distinct)
    obtain ⟨_, _, _, unique⟩ := complete (.filled one.row one.column)
    have rows : two.row = one.row := by rw [← row_cell two, ← same, row_cell]
    have columns : two.column = one.column := by rw [← column_cell two, ← same, column_cell]
    exact (unique one first ⟨rfl, rfl⟩).trans (unique two second ⟨rows, columns⟩).symm
  · obtain ⟨placement, member, ⟨row, column⟩, _⟩ :=
      complete (.filled (CellIndex.row cell) (CellIndex.column cell))
    refine ⟨placement, member, ?_⟩
    rw [Placement.cell, row, column, cellAt_row_column]

/-- From an exact cover of the placement matrix a board is read that has just its placements. -/
theorem ofRows_of_isExactCover {rows : List Nat} (h : Placement.matrix.IsExactCover rows) :
    ∃ board, ofRows Placement.matrix rows = .ok board ∧ rows.Perm board.clueRows := by
  obtain ⟨placements, rfl, apart, covers⟩ := exists_placements h
  obtain ⟨board, run, holds, _⟩ :=
    foldlM_place apart fun placement _ => get_blank placement.cell
  have filled : board.isFilled = true := by
    refine isFilled_of_get fun cell => ?_
    obtain ⟨placement, member, rfl⟩ := covers cell
    rw [holds placement member]
    exact placement.digit_ne_zero
  refine ⟨board, ?_, (List.perm_ext_iff_of_nodup h.nodup board.nodup_clueRows).mpr fun n => ?_⟩
  · simp only [ofRows, run, filled, bind, Except.bind, if_true, pure, Except.pure]
  · rw [List.mem_map, mem_clueRows]
    constructor
    · rintro ⟨placement, member, same⟩
      exact ⟨placement, holds placement member, same⟩
    · rintro ⟨placement, has, same⟩
      obtain ⟨other, member, here⟩ := covers placement.cell
      have digits := has.symm.trans ((congrArg board.get here.symm).trans (holds other member))
      exact ⟨placement, ext_cell here.symm digits ▸ member, same⟩

end Board

end ExactCover
