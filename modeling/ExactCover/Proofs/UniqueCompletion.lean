import ExactCover.Proofs.Completions

/-! # Boards with one completion

Two completions are enough to tell whether a board has exactly one: the search repeats no grid and
misses none, so that a second one is found when there is one.
-/

namespace ExactCover.Board

variable {board grid : Board}

/-- A board with no other completion than this grid. -/
def HasOnly (board grid : Board) : Prop :=
  board.IsCompletion grid ∧ ∀ other, board.IsCompletion other → other = grid

theorem grids_eq_singleton_iff : board.grids = [grid] ↔ board.HasOnly grid := by
  constructor
  · intro only
    refine ⟨mem_grids.mp (only ▸ List.mem_singleton_self grid), fun other completion => ?_⟩
    have listed := mem_grids.mpr completion
    rw [only] at listed
    exact List.mem_singleton.mp listed
  · rintro ⟨completion, others⟩
    have only : ∀ other ∈ board.grids, other = grid := fun other member =>
      others other (mem_grids.mp member)
    cases found : board.grids with
    | nil => exact absurd (mem_grids.mpr completion) (by simp [found])
    | cons first rest =>
        have distinct := board.nodup_grids
        rw [found] at only distinct
        obtain rfl := only first List.mem_cons_self
        cases rest with
        | nil => rfl
        | cons second rest =>
            obtain rfl := only second (by simp)
            exact absurd List.mem_cons_self (List.nodup_cons.mp distinct).1

theorem uniqueCompletion_eq_ok_iff : board.uniqueCompletion = .ok grid ↔ board.grids = [grid] := by
  rw [uniqueCompletion, completionsUpTo_eq]
  cases board.grids with
  | nil => simp [bind, Except.bind, throw, throwThe, MonadExceptOf.throw]
  | cons first rest =>
      cases rest with
      | nil => simp [bind, Except.bind, pure, Except.pure]
      | cons second rest => simp [bind, Except.bind, throw, throwThe, MonadExceptOf.throw]

/-- There is one completion, or its absence is reported. -/
theorem uniqueCompletion_cases (board : Board) : (∃ grid, board.uniqueCompletion = .ok grid) ∨
    board.uniqueCompletion = .error .notUnique := by
  rw [uniqueCompletion, completionsUpTo_eq]
  cases board.grids with
  | nil => exact .inr rfl
  | cons first rest =>
      cases rest with
      | nil => exact .inl ⟨first, rfl⟩
      | cons second rest => exact .inr rfl

theorem hasUniqueCompletion_cases (board : Board) :
    (board.hasUniqueCompletion = .ok true ∧ ∃ grid, board.HasOnly grid) ∨
      board.hasUniqueCompletion = .ok false ∧ board.uniqueCompletion = .error .notUnique := by
  rcases board.uniqueCompletion_cases with ⟨grid, one⟩ | none
  · left
    constructor
    · rw [hasUniqueCompletion, one]
      rfl
    · exact ⟨grid, grids_eq_singleton_iff.mp (uniqueCompletion_eq_ok_iff.mp one)⟩
  · right
    constructor
    · rw [hasUniqueCompletion, none]
      rfl
    · exact none

/-- The unique completion of a board is the grid that is its one and only completion. When there
    is no completion, or a second one, this is reported, and no other error occurs. -/
theorem uniqueCompletion_decides (board : Board) :
    (∀ grid, board.uniqueCompletion = .ok grid ↔
      board.IsCompletion grid ∧ ∀ other, board.IsCompletion other → other = grid) ∧
    (board.uniqueCompletion = .error .notUnique ↔ ¬ ∃! grid, board.IsCompletion grid) ∧
    ∀ error, board.uniqueCompletion = .error error → error = .notUnique := by
  have one : ∀ grid, board.uniqueCompletion = .ok grid ↔ board.HasOnly grid :=
    fun grid => uniqueCompletion_eq_ok_iff.trans grids_eq_singleton_iff
  refine ⟨one, ?_, ?_⟩
  · constructor
    · rintro none ⟨grid, only⟩
      have found := (one grid).mpr only
      rw [none] at found
      cases found
    · intro several
      rcases board.uniqueCompletion_cases with ⟨grid, found⟩ | none
      · exact absurd ⟨grid, (one grid).mp found⟩ several
      · exact none
  · intro error failed
    rcases board.uniqueCompletion_cases with ⟨grid, found⟩ | none
    · rw [found] at failed
      cases failed
    · rw [none] at failed
      cases failed
      rfl

end ExactCover.Board
