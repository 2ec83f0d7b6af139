import ExactCover.LogEvent
import ExactCover.RandomSource
import ExactCover.Sudoku.Board

/-! # Removing clues

A puzzle is made from a grid by blanking cells that are drawn at random, one at a time. A cell
stays blank when the board still has one completion, which a judge decides; otherwise its digit
comes back and the cell may be drawn again. The removal ends when few enough clues are left, or
when too many draws in a row have failed.

The source of the draws and the judge both have a state of their own, so that nothing is assumed
about either but that a draw is below its limit.
-/

namespace ExactCover

/-- A judge of boards that may keep a state and may fail. -/
abbrev Judge (τ ε : Type) := Board → τ → Except ε (Bool × τ)

/-- The state of a removal between two draws. -/
structure Removal where
  /-- The last board that was accepted. -/
  clues : Board
  /-- The cells that still have a clue. -/
  candidates : Array CellIndex
  /-- How many clues are left. -/
  remaining : Nat
  /-- How many draws in a row have failed. -/
  failures : Nat
  deriving DecidableEq

/-- The end of a removal. -/
structure Removed (σ τ : Type) where
  clues : Board
  log : List LogEvent
  source : σ
  judge : τ

/-- The array without the item in a place, which the last item takes. -/
def swapRemove {α : Type} (items : Array α) (place : Fin items.size) : Array α :=
  have last_lt : items.size - 1 < items.size := Nat.sub_one_lt_of_lt place.isLt
  (items.set place items[items.size - 1] place.isLt).pop

theorem size_swapRemove {α : Type} (items : Array α) (place : Fin items.size) :
    (swapRemove items place).size = items.size - 1 := by
  simp [swapRemove]

/-- A removal between two draws, with the source of draws and the judge. -/
structure RemovalState (σ τ : Type) where
  removal : Removal
  source : σ
  judge : τ

namespace Removal

/-- The state before the first draw: every cell of the grid has its clue. -/
def start (grid : Board) : Removal := ⟨grid, Array.finRange 81, 81, 0⟩

/-- More clues are left than there should be, and there is a cell to draw. -/
def GoesOn (target : Nat) (removal : Removal) : Prop :=
  target < removal.remaining ∧ 0 < removal.candidates.size

instance (target : Nat) (removal : Removal) : Decidable (removal.GoesOn target) :=
  inferInstanceAs (Decidable (_ ∧ _))

/-- The cell in a place of the candidates. -/
def candidate (removal : Removal) (place : Fin removal.candidates.size) : CellIndex :=
  removal.candidates[place]

/-- The clues without that of a candidate. -/
def blanked (removal : Removal) (place : Fin removal.candidates.size) : Board :=
  removal.clues.put (removal.candidate place) 0

/-- The removal after a candidate was blanked for good. -/
def accept (removal : Removal) (place : Fin removal.candidates.size) : Removal where
  clues := removal.blanked place
  candidates := swapRemove removal.candidates place
  remaining := removal.remaining - 1
  failures := 0

/-- The removal after a draw that failed: the cell that was blanked has its digit again. -/
def reject (removal : Removal) (place : Fin removal.candidates.size) : Removal :=
  let cell := removal.candidate place
  { removal with
    clues := (removal.blanked place).put cell (removal.clues.get cell)
    failures := removal.failures + 1 }

theorem size_accept (removal : Removal) (place : Fin removal.candidates.size) :
    (removal.accept place).candidates.size = removal.candidates.size - 1 :=
  size_swapRemove removal.candidates place

end Removal

namespace RemovalState

variable {σ τ ε : Type}

/-- One draw: the place that was drawn, whether the board without the clue there was accepted,
    and the states of the source and the judge afterwards. -/
def attempt (draw : Draw σ) (judge : Judge τ ε) (state : RemovalState σ τ)
    (more : 0 < state.removal.candidates.size) :
    Except ε (Fin state.removal.candidates.size × Bool × σ × τ) := do
  let (place, source) := draw state.removal.candidates.size more state.source
  let (accepted, opinion) ← judge (state.removal.blanked place) state.judge
  return (place, accepted, source, opinion)

/-- Draws cells and removes their clues until no more than `target` are left, or as many draws
    in a row as allowed have failed; one failed draw is always allowed. -/
def run (draw : Draw σ) (judge : Judge τ ε) (target maxTries : Nat) (state : RemovalState σ τ) :
    Except ε (Removed σ τ) :=
  let removal := state.removal
  if more : removal.GoesOn target then
    match attempt draw judge state more.2 with
    | .error e => .error e
    | .ok (place, true, source, opinion) => do
        let accepted := removal.accept place
        let rest ← run draw judge target maxTries ⟨accepted, source, opinion⟩
        let event := .clueRemoved (removal.candidate place) accepted.remaining
        return { rest with log := event :: rest.log }
    | .ok (place, false, source, opinion) =>
        let rejected := removal.reject place
        if rejected.failures < maxTries then
          run draw judge target maxTries ⟨rejected, source, opinion⟩
        else
          .ok { clues := rejected.clues
                log := [.removalStopped rejected.remaining target rejected.failures,
                  .puzzleReady rejected.remaining]
                source, judge := opinion }
  else
    .ok { clues := removal.clues, log := [.puzzleReady removal.remaining],
          source := state.source, judge := state.judge }
termination_by (state.removal.candidates.size, maxTries - state.removal.failures)
decreasing_by
  · apply Prod.Lex.left
    have fewer := Removal.size_accept state.removal place
    have some_left : 0 < state.removal.candidates.size := more.2
    omega
  · apply Prod.Lex.right
    rename_i below
    exact Nat.sub_lt_sub_left (Nat.lt_of_succ_lt below) (Nat.lt_succ_self _)

end RemovalState

end ExactCover
