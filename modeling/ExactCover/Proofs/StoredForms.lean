import ExactCover.Sudoku.StoredForms
import ExactCover.Proofs.Generation

/-! # What is stored is what can be built

A board, a puzzle or a cell is accepted from its parts exactly when it can be built in another way,
and what is stored is read back as it was.
-/

namespace ExactCover

/-! ### Cells -/

namespace Cell

variable {cell start after : Cell} {clue solution value : Nat}

theorem ext_parts (clues : cell.clue = after.clue) (solutions : cell.solution = after.solution)
    (values : cell.value = after.value) : cell = after := by
  cases cell
  cases after
  simp only at clues solutions values
  subst clues solutions values
  rfl

theorem run_edit (cell : Cell) (value : Nat) : (edit value).run.run cell =
    if below : value < 10 then
      if isOpen : cell.clue = 0 then
        (.ok (), { cell with value := ⟨value, below⟩, value_eq := .inl isOpen })
      else (.error .clueLocked, cell)
    else (.error (.notADigit value), cell) := by
  unfold edit
  by_cases below : value < 10
  · rw [dif_pos below, dif_pos below]
    -- The state that is looked at is the cell.
    show (if isOpen : cell.clue = 0 then _ else _ :
      ExceptT Error (StateM Cell) Unit).run.run cell = _
    by_cases isOpen : cell.clue = 0
    · rw [dif_pos isOpen, dif_pos isOpen]
      rfl
    · rw [dif_neg isOpen, dif_neg isOpen]
      rfl
  · rw [dif_neg below, dif_neg below]
    rfl

/-- An edit changes the digit that an open cell shows, or it is refused and changes nothing. -/
theorem edit_cases (cell : Cell) (value : Nat) :
    (value ≤ 9 ∧ cell.clue = 0 ∧ ∃ after, (edit value).run.run cell = (.ok (), after) ∧
      after.clue = cell.clue ∧ after.solution = cell.solution ∧ after.value.val = value) ∨
    (9 < value ∨ cell.clue ≠ 0) ∧ ∃ cause, (edit value).run.run cell = (.error cause, cell) := by
  rw [run_edit]
  split
  · rename_i below
    split
    · rename_i isOpen
      exact .inl ⟨Nat.le_of_lt_succ below, isOpen, _, rfl, rfl, rfl, rfl⟩
    · rename_i given
      exact .inr ⟨.inr given, _, rfl⟩
  · rename_i above
    exact .inr ⟨.inl (Nat.lt_of_not_le fun low => above (Nat.lt_succ_of_le low)), _, rfl⟩

theorem eq_of_refused {cause : Error} (run : (edit value).run.run cell = (.error cause, after)) :
    after = cell := by
  rcases cell.edit_cases value with ⟨_, _, other, done, _⟩ | ⟨_, other, refused⟩
  · rw [done] at run
    cases run
  · rw [refused] at run
    cases run
    rfl

/-- The cell after a call of `edit`, refused or not. -/
def edited (cell : Cell) (value : Nat) : Cell := ((edit value).run.run cell).2

/-- The cell after some calls of `edit`, refused or not. -/
def edits (cell : Cell) (values : List Nat) : Cell := values.foldl edited cell

theorem edited_keeps (cell : Cell) (value : Nat) :
    (cell.edited value).clue = cell.clue ∧ (cell.edited value).solution = cell.solution := by
  rcases cell.edit_cases value with ⟨_, _, after, run, clues, solutions, _⟩ | ⟨_, cause, run⟩
  · rw [edited, run]
    exact ⟨clues, solutions⟩
  · rw [edited, run]
    exact ⟨rfl, rfl⟩

theorem edits_keep (cell : Cell) (values : List Nat) :
    (cell.edits values).clue = cell.clue ∧ (cell.edits values).solution = cell.solution := by
  induction values generalizing cell with
  | nil => exact ⟨rfl, rfl⟩
  | cons value rest ih =>
      obtain ⟨clues, solutions⟩ := ih (cell.edited value)
      obtain ⟨clue, solution⟩ := cell.edited_keeps value
      exact ⟨clues.trans clue, solutions.trans solution⟩

/-- The cell before anything is entered into it. -/
def fresh (cell : Cell) : Cell := { cell with value := cell.clue, value_eq := .inr rfl }

/-- Every cell is reached from the cell that it is at first. -/
theorem exists_edits (cell : Cell) : ∃ values, cell.fresh.edits values = cell := by
  rcases cell.value_eq with isOpen | given
  · have blank : cell.fresh.clue = 0 := isOpen
    refine ⟨[cell.value.val], ?_⟩
    rw [edits, List.foldl_cons, List.foldl_nil, edited, run_edit, dif_pos cell.value.isLt,
      dif_pos blank]
    exact ext_parts rfl rfl rfl
  · exact ⟨[], ext_parts rfl rfl given.symm⟩

/-! ### Cells from their parts -/

/-- The clue, the solution and the digit shown. -/
def parts (cell : Cell) : Nat × Nat × Nat := (cell.clue.val, cell.solution.val, cell.value.val)

theorem parts_eq_iff : cell.parts = (clue, solution, value) ↔
    cell.clue.val = clue ∧ cell.solution.val = solution ∧ cell.value.val = value := by
  rw [parts, Prod.mk.injEq, Prod.mk.injEq]

theorem ofClue_eq_ok_iff : ofClue clue solution = .ok cell ↔
    cell.clue.val = clue ∧ cell.solution.val = solution ∧ cell.value = cell.clue := by
  unfold ofClue
  constructor
  · intro made
    split at made
    · split at made
      · cases made
        exact ⟨rfl, rfl, rfl⟩
      · cases made
    · cases made
  · rintro ⟨rfl, rfl, shown⟩
    have same : cell.clue.val = 0 ∨ cell.clue.val = cell.solution.val :=
      cell.clue_eq.imp (congrArg Fin.val) (congrArg Fin.val)
    rw [dif_pos ⟨cell.clue.isLt, cell.solution.isLt⟩, dif_pos same, Except.ok.injEq]
    exact ext_parts rfl rfl shown.symm

theorem ofClue_fresh (cell : Cell) :
    ofClue cell.clue.val cell.solution.val = .ok cell.fresh :=
  ofClue_eq_ok_iff.mpr ⟨rfl, rfl, rfl⟩

theorem enter_eq_ok_iff : start.enter value = .ok cell ↔ start.clue = 0 ∧ cell.clue = start.clue ∧
    cell.solution = start.solution ∧ cell.value.val = value := by
  rcases start.edit_cases value with ⟨_, isOpen, after, run, clues, solutions, shown⟩ | ⟨no, _, run⟩
  · have entered : start.enter value = .ok after := by rw [enter, run]; rfl
    rw [entered, Except.ok.injEq]
    constructor
    · rintro rfl
      exact ⟨isOpen, clues, solutions, shown⟩
    · rintro ⟨_, also, ends, value⟩
      exact ext_parts (clues.trans also.symm) (solutions.trans ends.symm)
        (Fin.ext (shown.trans value.symm))
  · have refused : ∀ after, start.enter value ≠ .ok after := by
      intro after entered
      rw [enter, run] at entered
      cases entered
    constructor
    · intro entered
      exact absurd entered (refused cell)
    · rintro ⟨isOpen, _, _, rfl⟩
      have := cell.value.isLt
      rcases no with above | given
      · omega
      · exact absurd isOpen given

/-- A cell is accepted from its three digits. -/
theorem ofParts_eq_ok_iff :
    ofParts clue solution value = .ok cell ↔ cell.parts = (clue, solution, value) := by
  rw [parts_eq_iff]
  constructor
  · intro made
    cases fresh : ofClue clue solution with
    | error cause =>
        rw [ofParts, fresh] at made
        cases made
    | ok start =>
        obtain ⟨clues, solutions, shown⟩ := ofClue_eq_ok_iff.mp fresh
        rw [ofParts, fresh, ok_bind] at made
        split at made
        · rename_i same
          cases made
          exact ⟨clues, solutions, same⟩
        · obtain ⟨_, also, ends, value⟩ := enter_eq_ok_iff.mp made
          rw [also, ends]
          exact ⟨clues, solutions, value⟩
  · rintro ⟨rfl, rfl, rfl⟩
    rw [ofParts, cell.ofClue_fresh, ok_bind]
    split
    · rename_i same
      exact congrArg Except.ok (ext_parts rfl rfl (Fin.ext same))
    · rename_i played
      rcases cell.value_eq with isOpen | given
      · exact enter_eq_ok_iff.mpr ⟨isOpen, rfl, rfl, rfl⟩
      · exact absurd (congrArg Fin.val given.symm) played

theorem exists_ofParts_iff : (∃ cell, ofParts clue solution value = .ok cell) ↔
    ∃ cell : Cell, cell.parts = (clue, solution, value) := by
  simp only [ofParts_eq_ok_iff]

/-- The digits of a cell are three digits, where a clue is the solution and is shown. -/
theorem exists_parts_iff : (∃ cell : Cell, cell.parts = (clue, solution, value)) ↔
    clue ≤ 9 ∧ solution ≤ 9 ∧ value ≤ 9 ∧ (clue = 0 ∨ clue = solution) ∧
      (clue = 0 ∨ value = clue) := by
  simp only [parts_eq_iff]
  constructor
  · rintro ⟨cell, rfl, rfl, rfl⟩
    exact ⟨Nat.le_of_lt_succ cell.clue.isLt, Nat.le_of_lt_succ cell.solution.isLt,
      Nat.le_of_lt_succ cell.value.isLt, cell.clue_eq.imp (congrArg Fin.val) (congrArg Fin.val),
      cell.value_eq.imp (congrArg Fin.val) (congrArg Fin.val)⟩
  · rintro ⟨clues, solutions, values, solved, shown⟩
    exact ⟨⟨⟨clue, Nat.lt_succ_of_le clues⟩, ⟨solution, Nat.lt_succ_of_le solutions⟩,
      ⟨value, Nat.lt_succ_of_le values⟩, solved.imp Fin.ext Fin.ext, shown.imp Fin.ext Fin.ext⟩,
      rfl, rfl, rfl⟩

end Cell

/-! ### Boards from their digits -/

namespace Board

variable {board : Board} {numbers : List Nat}

theorem map_ofNat (digits : List Digit) : (digits.map Fin.val).map (Fin.ofNat 10) = digits := by
  have same : ∀ digit ∈ digits, (Fin.ofNat 10 ∘ Fin.val) digit = id digit :=
    fun digit _ => Fin.ext (Nat.mod_eq_of_lt digit.isLt)
  rw [List.map_map, List.map_congr_left same, List.map_id]

theorem map_val (small : ∀ n ∈ numbers, n ≤ 9) :
    (numbers.map (Fin.ofNat 10)).map Fin.val = numbers := by
  have same : ∀ n ∈ numbers, (Fin.val ∘ Fin.ofNat 10) n = id n :=
    fun n member => Nat.mod_eq_of_lt (Nat.lt_succ_of_le (small n member))
  rw [List.map_map, List.map_congr_left same, List.map_id]

/-- Numbers are accepted as a board when there are 81 of them, none above nine. -/
theorem ofNats_cases (numbers : List Nat) :
    (numbers.length = 81 ∧ (∀ n ∈ numbers, n ≤ 9) ∧
      ∃ board, ofNats numbers = .ok board ∧ board.toList = numbers.map (Fin.ofNat 10)) ∨
    ¬(numbers.length = 81 ∧ ∀ n ∈ numbers, n ≤ 9) ∧ ∃ cause, ofNats numbers = .error cause := by
  unfold ofNats
  split
  · rename_i length
    split
    · rename_i n cell found
      have above := List.find?_some found
      have listed := List.mem_of_find?_eq_some found
      rw [decide_eq_true_iff] at above
      right
      refine ⟨fun fits => ?_, _, rfl⟩
      have := fits.2 n (List.mem_of_getElem? (List.mk_mem_zipIdx_iff_getElem?.mp listed))
      omega
    · rename_i none
      left
      refine ⟨length, fun n member => ?_, _, rfl, rfl⟩
      obtain ⟨i, found⟩ := List.mem_iff_getElem?.mp member
      have low := List.find?_eq_none.mp none (n, i) (List.mk_mem_zipIdx_iff_getElem?.mpr found)
      simpa using low
  · rename_i length
    exact .inr ⟨fun fits => length fits.1, _, rfl⟩

theorem ofNats_eq_ok_iff : ofNats numbers = .ok board ↔ board.toList.map Fin.val = numbers := by
  rcases ofNats_cases numbers with ⟨_, small, other, read, digits⟩ | ⟨unfit, cause, refused⟩
  · rw [read, Except.ok.injEq]
    constructor
    · rintro rfl
      rw [digits, map_val small]
    · rintro rfl
      rw [map_ofNat] at digits
      exact toList_inj digits
  · rw [refused]
    constructor
    · intro accepted
      cases accepted
    · rintro rfl
      refine absurd ⟨?_, ?_⟩ unfit
      · rw [List.length_map, toList, Vector.length_toList]
      · rw [List.forall_mem_map]
        exact fun digit _ => Nat.le_of_lt_succ digit.isLt

theorem exists_ofNats_iff : (∃ board, ofNats numbers = .ok board) ↔
    numbers.length = 81 ∧ ∀ n ∈ numbers, n ≤ 9 := by
  rcases ofNats_cases numbers with ⟨length, small, board, read, _⟩ | ⟨unfit, cause, refused⟩
  · exact iff_of_true ⟨board, read⟩ ⟨length, small⟩
  · refine iff_of_false ?_ unfit
    rintro ⟨board, read⟩
    rw [refused] at read
    cases read

end Board

/-! ### Puzzles from their boards -/

namespace Puzzle

variable {puzzle other : Puzzle} {clues : Board} {solutions : List Board}

theorem ofBoards_eq_ok_iff : ofBoards clues solutions = .ok puzzle ↔
    puzzle.clues = clues ∧ puzzle.solutions = solutions := by
  constructor
  · intro made
    unfold ofBoards at made
    split at made
    · cases made
    · split at made
      · cases made
      · cases made
        exact ⟨rfl, rfl⟩
  · rintro ⟨rfl, rfl⟩
    obtain ⟨other, made, same, also⟩ := exists_ofBoards puzzle.solved puzzle.agree
    rw [made, Except.ok.injEq]
    cases other
    cases puzzle
    simp only at same also
    subst same also
    rfl

theorem exists_ofBoards_iff : (∃ puzzle, ofBoards clues solutions = .ok puzzle) ↔
    solutions ≠ [] ∧ ∀ solution ∈ solutions, clues.agreesWith solution = true := by
  constructor
  · rintro ⟨puzzle, made⟩
    obtain ⟨rfl, rfl⟩ := ofBoards_eq_ok_iff.mp made
    exact ⟨puzzle.solved, puzzle.agree⟩
  · rintro ⟨solved, agree⟩
    obtain ⟨puzzle, made, _⟩ := exists_ofBoards solved agree
    exact ⟨puzzle, made⟩

/-- Every cell is at first a cell of some puzzle. -/
theorem exists_fresh_mem_cells (cell : Cell) : ∃ puzzle : Puzzle, cell.fresh ∈ puzzle.cells := by
  have keeps : ∀ place, (Board.blank.put 0 cell.clue).get place ≠ 0 →
      (Board.blank.put 0 cell.solution).get place = (Board.blank.put 0 cell.clue).get place := by
    intro place
    rw [Board.get_put, Board.get_put]
    split
    · exact fun given => (cell.clue_eq.resolve_left given).symm
    · exact fun _ => rfl
  obtain ⟨puzzle, _, clues, solutions⟩ := exists_ofBoards (List.cons_ne_nil _ [])
    (List.forall_mem_singleton.mpr (Board.agreesWith_of_keeps keeps))
  have solution : puzzle.solution = Board.blank.put 0 cell.solution :=
    List.mem_singleton.mp (solutions ▸ puzzle.solution_mem)
  refine ⟨puzzle, List.mem_map.mpr ⟨0, List.mem_finRange 0, ?_⟩⟩
  have clue : puzzle.clues.get 0 = cell.clue := by rw [clues, Board.get_put, if_pos rfl]
  apply Cell.ext_parts clue
  · show puzzle.solution.get 0 = cell.solution
    rw [solution, Board.get_put, if_pos rfl]
  · exact clue

end Puzzle

/-! ### What is stored is read back -/

namespace Stored

variable {α β γ : Type}

/-- Two fields of a record are read in turn, wherever they stand in it. -/
theorem pair_record {first : String × Reader α} {second : String × Reader β}
    {fields : List (String × Stored)} {one two : Stored} (found : field? fields first.1 = some one)
    (also : field? fields second.1 = some two) : pair first second (.record fields) = (do
      let a ← first.2 one
      let b ← second.2 two
      return (a, b)) := by
  simp only [pair, optionalField, found, also]
  cases first.2 one with
  | error cause => rfl
  | ok a => cases second.2 two <;> rfl

theorem triple_record {first : String × Reader α} {second : String × Reader β}
    {third : String × Reader γ} {fields : List (String × Stored)} {one two three : Stored}
    (found : field? fields first.1 = some one) (also : field? fields second.1 = some two)
    (last : field? fields third.1 = some three) : triple first second third (.record fields) = (do
      let a ← first.2 one
      let b ← second.2 two
      let c ← third.2 three
      return (a, b, c)) := by
  simp only [triple, optionalField, found, also, last]
  cases first.2 one with
  | error cause => rfl
  | ok a =>
      cases second.2 two with
      | error cause => rfl
      | ok b => cases third.2 three <;> rfl

theorem byte_of_le {n : Nat} (small : n ≤ 255) : byte (.natural n) = .ok n := by
  rw [byte, if_pos small]

end Stored

theorem Board.restore_store (board : Board) : restore board.store = .ok board := by
  have bytes : Stored.listOf Stored.byte board.store = .ok (board.toList.map Fin.val) := by
    rw [store, Stored.listOf, List.mapM_map]
    exact mapM_eq_ok fun digit _ => Stored.byte_of_le (by omega)
  rw [restore, bytes, ok_bind, Board.ofNats_eq_ok_iff.mpr rfl]
  rfl

/-- A puzzle is read from its clues and solutions as it is built from them. -/
theorem Puzzle.restore_boards (clues : Board) (solutions : List Board) :
    restore (.record [("clues", clues.store), ("solutions", .list (solutions.map Board.store))]) =
      Stored.checked (ofBoards clues solutions) := by
  have each : ∀ board ∈ solutions, (Board.restore ∘ Board.store) board = .ok (id board) :=
    fun board _ => Board.restore_store board
  have boards :
      Stored.listOf Board.restore (.list (solutions.map Board.store)) = .ok solutions := by
    rw [Stored.listOf, List.mapM_map, mapM_eq_ok each, List.map_id]
  rw [restore, Stored.pair_record rfl rfl]
  simp only [Board.restore_store, boards]
  rfl

theorem Puzzle.restore_store (puzzle : Puzzle) : restore puzzle.store = .ok puzzle := by
  rw [store, restore_boards, ofBoards_eq_ok_iff.mpr ⟨rfl, rfl⟩]
  rfl

/-- A cell is read from its three digits as it is accepted from them. -/
theorem Cell.restore_parts {clue solution value : Nat} (clues : clue ≤ 255)
    (solutions : solution ≤ 255) (values : value ≤ 255) :
    restore (.record [("clue", .natural clue), ("solution", .natural solution),
      ("value", .natural value)]) = Stored.checked (ofParts clue solution value) := by
  rw [restore, Stored.triple_record rfl rfl rfl]
  simp only [Stored.byte_of_le clues, Stored.byte_of_le solutions, Stored.byte_of_le values]
  rfl

theorem Cell.restore_store (cell : Cell) : restore cell.store = .ok cell := by
  rw [store, restore_parts (by omega) (by omega) (by omega), ofParts_eq_ok_iff.mpr rfl]
  rfl

/-- Boards, puzzles and cells are accepted from their parts when these could have been built: a cell
    is accepted in just the states that calls of `edit` lead to from a new cell, or from a cell of a
    puzzle. A refused call changes nothing. What is stored is read back. -/
theorem accepted_as_built :
    (∀ numbers : List Nat,
      ((∃ board, Board.ofNats numbers = .ok board) ↔
        numbers.length = 81 ∧ ∀ n ∈ numbers, n ≤ 9) ∧
      ∀ board, Board.ofNats numbers = .ok board → board.toList.map Fin.val = numbers) ∧
    (∀ (clues : Board) (solutions : List Board),
      Puzzle.restore (.record
          [("clues", clues.store), ("solutions", .list (solutions.map Board.store))]) =
        Stored.checked (Puzzle.ofBoards clues solutions) ∧
      ((∃ puzzle, Puzzle.ofBoards clues solutions = .ok puzzle) ↔
        solutions ≠ [] ∧ ∀ solution ∈ solutions, clues.agreesWith solution = true) ∧
      ∀ puzzle, Puzzle.ofBoards clues solutions = .ok puzzle →
        puzzle.clues = clues ∧ puzzle.solutions = solutions) ∧
    (∀ clue solution value : Nat,
      ((∃ cell, Cell.ofParts clue solution value = .ok cell) ↔ clue ≤ 9 ∧ solution ≤ 9 ∧ value ≤ 9 ∧
        (clue = 0 ∨ clue = solution) ∧ (clue = 0 ∨ value = clue)) ∧
      (∀ cell, Cell.ofParts clue solution value = .ok cell → cell.parts = (clue, solution, value)) ∧
      ((∃ cell, Cell.ofParts clue solution value = .ok cell) ↔ ∃ c s start values,
        Cell.ofClue c s = .ok start ∧ (start.edits values).parts = (clue, solution, value)) ∧
      ((∃ cell, Cell.ofParts clue solution value = .ok cell) ↔ ∃ puzzle : Puzzle,
        ∃ start ∈ puzzle.cells, ∃ values, (start.edits values).parts = (clue, solution, value))) ∧
    (∀ (cell : Cell) (values : List Nat), (cell.edits values).clue = cell.clue ∧
      (cell.edits values).solution = cell.solution) ∧
    (∀ (cell after : Cell) (value : Nat) (cause : Error),
      (Cell.edit value).run.run cell = (.error cause, after) → after = cell) ∧
    (∀ board : Board, Board.restore board.store = .ok board) ∧
    (∀ puzzle : Puzzle, Puzzle.restore puzzle.store = .ok puzzle) ∧
    ∀ cell : Cell, Cell.restore cell.store = .ok cell := by
  refine ⟨fun numbers => ⟨Board.exists_ofNats_iff, fun board => Board.ofNats_eq_ok_iff.mp⟩,
    fun clues solutions => ⟨Puzzle.restore_boards clues solutions, Puzzle.exists_ofBoards_iff,
      fun puzzle => Puzzle.ofBoards_eq_ok_iff.mp⟩,
    fun clue solution value => ⟨Cell.exists_ofParts_iff.trans Cell.exists_parts_iff,
      fun cell => Cell.ofParts_eq_ok_iff.mp, ?_, ?_⟩,
    Cell.edits_keep, fun cell after value cause => Cell.eq_of_refused, Board.restore_store,
    Puzzle.restore_store, Cell.restore_store⟩
  · rw [Cell.exists_ofParts_iff]
    constructor
    · rintro ⟨cell, parts⟩
      obtain ⟨values, reached⟩ := cell.exists_edits
      exact ⟨_, _, _, values, cell.ofClue_fresh, (congrArg Cell.parts reached).trans parts⟩
    · rintro ⟨_, _, start, values, _, parts⟩
      exact ⟨_, parts⟩
  · rw [Cell.exists_ofParts_iff]
    constructor
    · rintro ⟨cell, parts⟩
      obtain ⟨values, reached⟩ := cell.exists_edits
      obtain ⟨puzzle, member⟩ := Puzzle.exists_fresh_mem_cells cell
      exact ⟨puzzle, _, member, values, (congrArg Cell.parts reached).trans parts⟩
    · rintro ⟨_, start, _, values, parts⟩
      exact ⟨_, parts⟩

theorem given_five_stays : ∃ cell after, Cell.ofParts 5 5 5 = .ok cell ∧
    (Cell.edit 7).run.run cell = (.error .clueLocked, after) ∧ after = cell ∧
      ¬∃ other, Cell.ofParts 5 5 7 = .ok other := by
  obtain ⟨cell, made⟩ := (accepted_as_built.2.2.1 5 5 5).1.mpr (by decide)
  obtain ⟨clue, _⟩ := Cell.parts_eq_iff.mp ((accepted_as_built.2.2.1 5 5 5).2.1 cell made)
  have given : cell.clue ≠ 0 := by
    intro blank
    rw [blank] at clue
    cases clue
  have refused : (Cell.edit 7).run.run cell = (.error .clueLocked, cell) := by
    rw [Cell.run_edit, dif_pos (by decide), dif_neg given]
  refine ⟨cell, cell, made, refused, accepted_as_built.2.2.2.2.1 _ _ _ _ refused, ?_⟩
  rw [(accepted_as_built.2.2.1 5 5 7).1]
  decide

end ExactCover
