import ExactCover.Sudoku.Generator
import ExactCover.Proofs.ClueRemoval
import ExactCover.Proofs.UniqueCompletion

/-! # Generated puzzles

Clues are removed from a grid while it stays their only completion, so that the puzzle that is made
has the grid as its one solution. When the removal stops early it has just drawn a clue that the
puzzle cannot do without.
-/

namespace ExactCover

namespace Board

variable {grid : Board}

theorem IsGrid.hasOnly (h : grid.IsGrid) : grid.HasOnly grid := by
  refine ⟨⟨h, fun _ _ => rfl⟩, fun other completion => ?_⟩
  exact ext_get fun cell => completion.2 cell (h.get_ne_zero cell)

end Board

theorem ok_bind {ε α β : Type} (value : α) (next : α → Except ε β) :
    (Except.ok value >>= next) = next value :=
  rfl

/-- Boards that keep the clues are the solutions of a puzzle. -/
theorem Puzzle.exists_ofBoards {clues : Board} {solutions : List Board} (solved : solutions ≠ [])
    (agree : ∀ solution ∈ solutions, clues.agreesWith solution = true) : ∃ puzzle,
      ofBoards clues solutions = .ok puzzle ∧ puzzle.clues = clues ∧
        puzzle.solutions = solutions := by
  have none : solutions.findIdx? (!clues.agreesWith ·) = none := by
    rw [List.findIdx?_eq_none_iff]
    intro solution member
    rw [agree solution member, Bool.not_true]
  unfold ofBoards
  rw [dif_neg solved]
  split
  · rename_i index found
    rw [none] at found
    cases found
  · exact ⟨_, rfl, rfl, rfl⟩

namespace Generator

variable {σ : Type} {draw : Draw σ} {grid : Board} {target maxTries : Nat}
  {state next : RemovalState σ Unit}

/-- The judge always decides, and accepts the boards with one completion. -/
theorem judge_cases (board : Board) (opinion : Unit) :
    (judge board opinion = .ok (true, ()) ∧ ∃ grid, board.HasOnly grid) ∨
      judge board opinion = .ok (false, ()) ∧ board.uniqueCompletion = .error .notUnique := by
  unfold judge
  rcases board.hasUniqueCompletion_cases with ⟨verdict, only⟩ | ⟨verdict, none⟩
  · left
    rw [verdict]
    exact ⟨rfl, only⟩
  · right
    rw [verdict]
    exact ⟨rfl, none⟩

theorem judge_ne_error (board : Board) (opinion : Unit) (e : Error) :
    judge board opinion ≠ .error e := by
  intro failed
  rcases judge_cases board opinion with ⟨decided, _⟩ | ⟨decided, _⟩
  · cases decided.symm.trans failed
  · cases decided.symm.trans failed

/-- A removal from a grid that is the only completion of the clues that are left. -/
structure Keeps (grid : Board) (target : Nat) (state : RemovalState σ Unit) : Prop where
  sound : state.removal.Sound grid
  only : state.removal.clues.HasOnly grid
  enough : min target 81 ≤ state.removal.remaining

theorem keeps_start (isGrid : grid.IsGrid) (source : σ) :
    Keeps grid target ⟨.start grid, source, ()⟩ where
  sound := Removal.start_sound isGrid.get_ne_zero
  only := isGrid.hasOnly
  enough := Nat.min_le_right target 81

namespace Keeps

/-- An accepted board has the grid as a completion, and no other. -/
theorem follows (h : Keeps grid target state)
    (step : state.Follows draw judge target maxTries next) : Keeps grid target next where
  sound := step.sound h.sound
  enough := step.enough (Nat.min_le_left target 81) h.enough
  only := by
    cases step with
    | rejected more drawn again => exact (Removal.clues_reject _ _).symm ▸ h.only
    | @accepted place _ _ more drawn =>
        have sound := h.sound.accept place
        have completion : (state.removal.accept place).clues.IsCompletion grid :=
          ⟨h.only.1.1, sound.keeps⟩
        -- The judge says only that there is one completion; that it is the grid comes from the clues.
        rcases judge_cases (state.removal.blanked place) state.judge with
          ⟨_, other, one, only⟩ | ⟨rejects, _⟩
        · obtain rfl := only grid completion
          exact ⟨completion, only⟩
        · have accepts := RemovalState.attempt_judged drawn
          rw [rejects] at accepts
          cases accepts

theorem reaches (h : Keeps grid target state)
    (steps : Relation.ReflTransGen (RemovalState.Follows draw judge target maxTries) state next) :
    Keeps grid target next := by
  induction steps with
  | refl => exact h
  | tail _ step ih => exact ih.follows step

end Keeps

/-- Whatever is drawn, a removal from a grid ends with clues that have the grid as their only
    completion. When it leaves more of them than it should, it has stopped on one of them that cannot
    be removed. -/
theorem run_hasOnly (isGrid : grid.IsGrid) (draw : Draw σ) (target maxTries : Nat) (source : σ) :
    ∃ removed, RemovalState.run draw judge target maxTries ⟨.start grid, source, ()⟩ = .ok removed ∧
      removed.clues.HasOnly grid ∧ min target 81 ≤ removed.clues.clueCount ∧
      (min target 81 < removed.clues.clueCount →
        (∃ failures, .removalStopped removed.clues.clueCount target failures ∈ removed.log) ∧
        ∃ cell, removed.clues.get cell ≠ 0 ∧
          (removed.clues.put cell 0).uniqueCompletion = .error .notUnique) := by
  obtain ⟨last, outcome, events, steps, ends, run⟩ :=
    RemovalState.exists_end draw judge target maxTries ⟨.start grid, source, ()⟩
  have keeps := (keeps_start isGrid source).reaches steps
  have size := keeps.sound.remaining.trans keeps.sound.size_candidates
  have enough := keeps.enough
  rw [size] at enough
  cases ends with
  | ready few =>
      refine ⟨_, run, keeps.only, enough, fun many => ?_⟩
      -- No draw goes below the target, so that just the right number of clues is left.
      have most := last.removal.clues.clueCount_le
      rw [keeps.sound.goesOn_iff, Nat.not_lt, size] at few
      exact absurd many (Nat.not_lt_of_le (Nat.le_min.mpr ⟨few, most⟩))
  | @stopped place _ _ more drawn _ =>
      have stop : LogEvent.removalStopped last.removal.clues.clueCount target
          (last.removal.reject place).failures ∈ events ++ [.removalStopped last.removal.remaining
            target (last.removal.reject place).failures, .puzzleReady last.removal.remaining] := by
        rw [← size]
        exact List.mem_append_right events List.mem_cons_self
      have judged := RemovalState.attempt_judged drawn
      rcases judge_cases (last.removal.blanked place) last.judge with
        ⟨accepts, _⟩ | ⟨_, several⟩
      · rw [accepts] at judged
        cases judged
      · rw [Removal.clues_reject] at run
        refine ⟨_, run, keeps.only, enough, fun _ => ⟨⟨_, stop⟩, _, ?_, several⟩⟩
        exact (keeps.sound.mem_candidates _).mp (Array.getElem_mem_toList place.isLt)
  | failed more drawn =>
      obtain ⟨_, failed⟩ := RemovalState.attempt_failed drawn
      exact absurd failed (judge_ne_error _ _ _)

theorem completeDiagonal_completes {boxes : Fin 3 → Vector Digit 9}
    (completed : completeDiagonal boxes = .ok grid) : (Board.ofDiagonal boxes).IsCompletion grid := by
  unfold completeDiagonal at completed
  rw [Board.completionsUpTo_eq] at completed
  cases found : (Board.ofDiagonal boxes).grids with
  | nil =>
      rw [found] at completed
      cases completed
  | cons first rest =>
      rw [found] at completed
      cases completed
      exact Board.mem_grids.mp (found ▸ List.mem_cons_self)

theorem filledBoard_eq_ok {generator : Generator}
    (completed : completeDiagonal (shuffledBoxes RandomSource.below generator.source).1 = .ok grid) :
    generator.filledBoard =
      .ok (grid, ⟨(shuffledBoxes RandomSource.below generator.source).2, generator.maxTries⟩) := by
  rw [filledBoard, completed, ok_bind]
  rfl

theorem filledBoard_isGrid {generator after : Generator}
    (filled : generator.filledBoard = .ok (grid, after)) : grid.IsGrid := by
  unfold filledBoard at filled
  generalize shuffledBoxes RandomSource.below generator.source = shuffled at filled
  dsimp only at filled
  cases completed : completeDiagonal shuffled.1 with
  | error e =>
      rw [completed] at filled
      cases filled
  | ok found =>
      rw [completed] at filled
      cases filled
      exact (completeDiagonal_completes completed).1

/-- Whatever is drawn, the clues that a removal from a grid leaves make a puzzle with the grid. -/
theorem exists_puzzle (isGrid : grid.IsGrid) (draw : Draw σ) (target maxTries : Nat) (source : σ) :
    ∃ removed puzzle,
      RemovalState.run draw judge target maxTries ⟨.start grid, source, ()⟩ = .ok removed ∧
      Puzzle.ofBoards removed.clues [grid] = .ok puzzle ∧ puzzle.clues = removed.clues ∧
      puzzle.solutions = [grid] := by
  obtain ⟨removed, run, only, _⟩ := run_hasOnly isGrid draw target maxTries source
  have agrees : ∀ solution ∈ [grid], removed.clues.agreesWith solution = true := by
    intro solution member
    rw [List.mem_singleton.mp member]
    exact Board.agreesWith_of_keeps only.1.2
  obtain ⟨puzzle, made⟩ := Puzzle.exists_ofBoards (List.cons_ne_nil grid []) agrees
  exact ⟨removed, puzzle, run, made⟩

/-- A generator that fills a grid makes a puzzle from it, whose clues are what a removal leaves. -/
theorem exists_made {generator after : Generator} (target : Nat)
    (filled : generator.filledBoard = .ok (grid, after)) : ∃ removed made later,
      RemovalState.run RandomSource.below judge target after.maxTries
        ⟨.start grid, after.source, ()⟩ = .ok removed ∧
      generator.withClues target = .ok (made, later) ∧ made.puzzle.clues = removed.clues ∧
      made.puzzle.solutions = [grid] ∧ made.log = removed.log := by
  obtain ⟨removed, puzzle, run, made, clues, solutions⟩ :=
    exists_puzzle (filledBoard_isGrid filled) RandomSource.below target after.maxTries after.source
  refine ⟨removed, ⟨puzzle, removed.log⟩, { after with source := removed.source }, run, ?_, clues,
    solutions, rfl⟩
  rw [withClues, filled, ok_bind]
  dsimp only
  rw [run, ok_bind, made, ok_bind]
  rfl

/-- A grid whose boxes on the diagonal are the first that come about from the seed seven. -/
def gridOfSeven : Board := ⟨#v[
  9, 7, 5, 1, 4, 6, 3, 8, 2,
  1, 4, 3, 7, 2, 8, 9, 6, 5,
  8, 2, 6, 3, 5, 9, 7, 1, 4,
  6, 9, 2, 5, 3, 4, 8, 7, 1,
  3, 5, 1, 8, 9, 7, 4, 2, 6,
  4, 8, 7, 6, 1, 2, 5, 9, 3,
  7, 6, 4, 2, 8, 5, 1, 3, 9,
  5, 1, 8, 9, 6, 3, 2, 4, 7,
  2, 3, 9, 4, 7, 1, 6, 5, 8]⟩

theorem gridOfSeven_completes :
    (Board.ofDiagonal (shuffledBoxes RandomSource.below (.ofSeed 7)).1).IsCompletion gridOfSeven where
  left := {
    row := by decide +kernel
    column := by decide +kernel
    box := by decide +kernel }
  right := by decide +kernel

end Generator

end ExactCover
