import ExactCover.Sudoku.ClueRemoval
import ExactCover.Proofs.Decoding
import Mathlib.Logic.Relation

/-! # The removal of clues, draw by draw

Whatever is drawn and however the judge decides, the candidates of a removal are the cells that have
a clue, each of them once, and the clues are digits of the grid. A removal ends after some draws
that let it go on: with a draw that does not, or because few enough clues are left.
-/

namespace ExactCover

theorem swapRemove_perm {α : Type} (items : Array α) (place : Fin items.size) :
    (items[place] :: (swapRemove items place).toList).Perm items.toList := by
  have some_left : 0 < items.size := Nat.zero_lt_of_lt place.isLt
  have last : items.size - 1 < items.size := Nat.sub_one_lt_of_lt place.isLt
  -- Swapping the item with the last one leaves it at the end.
  have swapped : items.swap place (items.size - 1) = (swapRemove items place).push items[place] := by
    apply Array.ext
    · rw [Array.size_swap, Array.size_push, size_swapRemove]
      omega
    · intro i inside _
      rw [Array.size_swap] at inside
      simp only [swapRemove, Array.getElem_swap, Array.getElem_push, Array.size_pop,
        Array.size_set, Array.getElem_pop, Array.getElem_set]
      grind
  have same := (Array.swap_perm place.isLt last).toList
  rw [swapped, Array.toList_push] at same
  exact (List.perm_append_singleton _ _).symm.trans same

namespace Board

variable {board grid : Board}

theorem toList_eq (board : Board) : board.toList = (List.finRange 81).map board.get := by
  apply List.ext_getElem
  · simp [toList]
  · intro i _ _
    simp [toList, get]

theorem toList_inj {other : Board} (same : board.toList = other.toList) : board = other := by
  cases board
  cases other
  exact congrArg Board.mk (Vector.toList_inj.mp same)

theorem clueCount_eq (board : Board) :
    board.clueCount = ((List.finRange 81).filter (board.get · ≠ 0)).length := by
  rw [clueCount, toList_eq, List.countP_map, List.countP_eq_length_filter]
  rfl

theorem agreesWith_of_keeps (keeps : ∀ cell, board.get cell ≠ 0 → grid.get cell = board.get cell) :
    board.agreesWith grid = true := by
  rw [agreesWith, List.all_eq_true]
  intro cell _
  by_cases blank : board.get cell = 0
  · simp [blank]
  · simp [keeps cell blank]

theorem clueCount_le (board : Board) : board.clueCount ≤ 81 := by
  rw [clueCount_eq]
  exact (List.length_filter_le _ _).trans (List.length_finRange).le

end Board

namespace Removal

/-- A removal whose candidates are the cells that have a clue, all of them from the grid. -/
structure Sound (grid : Board) (removal : Removal) : Prop where
  nodup : removal.candidates.toList.Nodup
  mem_candidates : ∀ cell, cell ∈ removal.candidates.toList ↔ removal.clues.get cell ≠ 0
  keeps : ∀ cell, removal.clues.get cell ≠ 0 → grid.get cell = removal.clues.get cell
  remaining : removal.remaining = removal.candidates.size

variable {grid : Board} {removal : Removal}

theorem start_candidates (grid : Board) : (start grid).candidates.toList = List.finRange 81 := by
  simp only [start, Array.finRange, Array.toList_ofFn, List.finRange]

theorem start_sound (filled : ∀ cell, grid.get cell ≠ 0) : (start grid).Sound grid where
  nodup := by
    rw [start_candidates]
    exact List.nodup_finRange 81
  mem_candidates := by
    intro cell
    rw [start_candidates]
    exact ⟨fun _ => filled cell, fun _ => List.mem_finRange cell⟩
  keeps := fun _ _ => rfl
  remaining := by
    rw [← Array.length_toList, start_candidates, List.length_finRange]
    rfl

/-- The digit that comes back after a draw that failed is the one that was there. -/
theorem clues_reject (removal : Removal) (place : Fin removal.candidates.size) :
    (removal.reject place).clues = removal.clues := by
  apply Board.ext_get
  intro cell
  simp only [reject, blanked, Board.get_put]
  grind

namespace Sound

/-- There are as many candidates as clues. -/
theorem size_candidates (h : removal.Sound grid) :
    removal.candidates.size = removal.clues.clueCount := by
  have same : removal.candidates.toList.Perm
      ((List.finRange 81).filter (removal.clues.get · ≠ 0)) := by
    refine (List.perm_ext_iff_of_nodup h.nodup ((List.nodup_finRange 81).filter _)).mpr ?_
    intro cell
    rw [h.mem_candidates, List.mem_filter, decide_eq_true_iff]
    exact (and_iff_right (List.mem_finRange cell)).symm
  rw [Board.clueCount_eq, ← same.length_eq, Array.length_toList]

/-- A removal goes on as long as more clues are left than there should be; a cell to draw is left
    then. -/
theorem goesOn_iff {target : Nat} (h : removal.Sound grid) :
    removal.GoesOn target ↔ target < removal.remaining := by
  unfold GoesOn
  have same := h.remaining
  omega

theorem accept (h : removal.Sound grid) (place : Fin removal.candidates.size) :
    (removal.accept place).Sound grid := by
  have split : (removal.candidate place :: (swapRemove removal.candidates place).toList).Perm
      removal.candidates.toList := swapRemove_perm removal.candidates place
  have distinct := split.nodup_iff.mpr h.nodup
  obtain ⟨gone, rest⟩ := List.nodup_cons.mp distinct
  have clue : ∀ cell, (removal.accept place).clues.get cell ≠ 0 ↔
      cell ≠ removal.candidate place ∧ removal.clues.get cell ≠ 0 := by
    intro cell
    rw [Removal.accept, blanked, Board.get_put]
    split
    · simp_all
    · rename_i differs
      exact (and_iff_right (Ne.symm differs)).symm
  refine ⟨rest, fun cell => ?_, fun cell real => ?_, ?_⟩
  · rw [clue, ← h.mem_candidates, ← split.mem_iff, List.mem_cons]
    constructor
    · intro left
      exact ⟨fun same => gone (same ▸ left), .inr left⟩
    · rintro ⟨differs, same | left⟩
      · exact absurd same differs
      · exact left
  · obtain ⟨differs, real⟩ := (clue cell).mp real
    rw [Removal.accept, blanked, Board.get_put, if_neg (Ne.symm differs)]
    exact h.keeps cell real
  · rw [size_accept, ← h.remaining]
    rfl

theorem reject (h : removal.Sound grid) (place : Fin removal.candidates.size) :
    (removal.reject place).Sound grid where
  nodup := h.nodup
  mem_candidates := by
    rw [clues_reject]
    exact h.mem_candidates
  keeps := by
    rw [clues_reject]
    exact h.keeps
  remaining := h.remaining

end Sound

end Removal

namespace RemovalState

variable {σ τ ε : Type} {draw : Draw σ} {judge : Judge τ ε} {target maxTries : Nat}
  {state next : RemovalState σ τ}

/-- A draw after which the removal goes on. -/
inductive Follows (draw : Draw σ) (judge : Judge τ ε) (target maxTries : Nat) :
    RemovalState σ τ → RemovalState σ τ → Prop where
  | accepted {state : RemovalState σ τ} {place : Fin state.removal.candidates.size} {source : σ}
      {opinion : τ} (more : state.removal.GoesOn target)
      (drawn : attempt draw judge state more.2 = .ok (place, true, source, opinion)) :
      Follows draw judge target maxTries state ⟨state.removal.accept place, source, opinion⟩
  | rejected {state : RemovalState σ τ} {place : Fin state.removal.candidates.size} {source : σ}
      {opinion : τ} (more : state.removal.GoesOn target)
      (drawn : attempt draw judge state more.2 = .ok (place, false, source, opinion))
      (again : (state.removal.reject place).failures < maxTries) :
      Follows draw judge target maxTries state ⟨state.removal.reject place, source, opinion⟩

/-- How a removal ends when no further draw follows. -/
inductive Ends (draw : Draw σ) (judge : Judge τ ε) (target maxTries : Nat)
    (state : RemovalState σ τ) : Except ε (Removed σ τ) → Prop where
  | ready (few : ¬ state.removal.GoesOn target) :
      Ends draw judge target maxTries state (.ok {
        clues := state.removal.clues
        log := [.puzzleReady state.removal.remaining]
        source := state.source
        judge := state.judge })
  | stopped {place : Fin state.removal.candidates.size} {source : σ} {opinion : τ}
      (more : state.removal.GoesOn target)
      (drawn : attempt draw judge state more.2 = .ok (place, false, source, opinion))
      (enough : maxTries ≤ (state.removal.reject place).failures) :
      Ends draw judge target maxTries state (.ok {
        clues := (state.removal.reject place).clues
        log :=
          [.removalStopped state.removal.remaining target (state.removal.reject place).failures,
            .puzzleReady state.removal.remaining]
        source
        judge := opinion })
  | failed {e : ε} (more : state.removal.GoesOn target)
      (drawn : attempt draw judge state more.2 = .error e) :
      Ends draw judge target maxTries state (.error e)

theorem attempt_judged {more : 0 < state.removal.candidates.size}
    {place : Fin state.removal.candidates.size} {verdict : Bool} {source : σ} {opinion : τ}
    (drawn : attempt draw judge state more = .ok (place, verdict, source, opinion)) :
    judge (state.removal.blanked place) state.judge = .ok (verdict, opinion) := by
  simp only [attempt, bind, Except.bind, pure, Except.pure] at drawn
  cases judged : judge (state.removal.blanked
      (draw state.removal.candidates.size more state.source).1) state.judge with
  | error e => simp [judged] at drawn
  | ok outcome =>
      simp only [judged, Except.ok.injEq, Prod.mk.injEq] at drawn
      obtain ⟨rfl, rfl, -, rfl⟩ := drawn
      exact judged

theorem attempt_failed {more : 0 < state.removal.candidates.size} {e : ε}
    (drawn : attempt draw judge state more = .error e) :
    ∃ place, judge (state.removal.blanked place) state.judge = .error e := by
  simp only [attempt, bind, Except.bind, pure, Except.pure] at drawn
  refine ⟨(draw state.removal.candidates.size more state.source).1, ?_⟩
  cases judged : judge (state.removal.blanked
      (draw state.removal.candidates.size more state.source).1) state.judge with
  | error failure => simpa [judged] using drawn
  | ok outcome => simp [judged] at drawn

/-! ### The branches of a run -/

section Branches

variable {place : Fin state.removal.candidates.size} {source : σ} {opinion : τ}

theorem run_failed {e : ε} (more : state.removal.GoesOn target)
    (drawn : attempt draw judge state more.2 = .error e) :
    run draw judge target maxTries state = .error e := by
  rw [run, dif_pos more, drawn]

theorem run_accepted (more : state.removal.GoesOn target)
    (drawn : attempt draw judge state more.2 = .ok (place, true, source, opinion)) :
    run draw judge target maxTries state =
      (run draw judge target maxTries ⟨state.removal.accept place, source, opinion⟩).map
        fun removed => { removed with
          log := .clueRemoved (state.removal.candidate place)
            (state.removal.accept place).remaining :: removed.log } := by
  rw [run, dif_pos more, drawn]
  dsimp only
  cases run draw judge target maxTries ⟨state.removal.accept place, source, opinion⟩ <;> rfl

theorem run_rejected (more : state.removal.GoesOn target)
    (drawn : attempt draw judge state more.2 = .ok (place, false, source, opinion))
    (again : (state.removal.reject place).failures < maxTries) :
    run draw judge target maxTries state =
      run draw judge target maxTries ⟨state.removal.reject place, source, opinion⟩ := by
  rw [run, dif_pos more, drawn]
  exact if_pos again

theorem run_stopped (more : state.removal.GoesOn target)
    (drawn : attempt draw judge state more.2 = .ok (place, false, source, opinion))
    (enough : maxTries ≤ (state.removal.reject place).failures) :
    run draw judge target maxTries state = .ok {
      clues := (state.removal.reject place).clues
      log :=
        [.removalStopped state.removal.remaining target (state.removal.reject place).failures,
          .puzzleReady state.removal.remaining]
      source
      judge := opinion } := by
  rw [run, dif_pos more, drawn]
  exact if_neg (Nat.not_lt.mpr enough)

theorem run_ready (few : ¬ state.removal.GoesOn target) :
    run draw judge target maxTries state = .ok {
      clues := state.removal.clues
      log := [.puzzleReady state.removal.remaining]
      source := state.source
      judge := state.judge } := by
  rw [run, dif_neg few]

end Branches

/-- A run goes on after a draw as it would from there, apart from what was reported before. -/
theorem Follows.run_eq (step : Follows draw judge target maxTries state next) : ∃ events,
    run draw judge target maxTries state = (run draw judge target maxTries next).map
      fun removed => { removed with log := events ++ removed.log } := by
  cases step with
  | accepted more drawn =>
      exact ⟨[_], run_accepted more drawn⟩
  | rejected more drawn again =>
      refine ⟨[], (run_rejected more drawn again).trans ?_⟩
      simp only [List.nil_append]
      cases run draw judge target maxTries _ <;> rfl

theorem run_eq_of_reaches
    (steps : Relation.ReflTransGen (Follows draw judge target maxTries) state next) : ∃ events,
    run draw judge target maxTries state = (run draw judge target maxTries next).map
      fun removed => { removed with log := events ++ removed.log } := by
  induction steps using Relation.ReflTransGen.head_induction_on with
  | refl =>
      refine ⟨[], ?_⟩
      simp only [List.nil_append]
      cases run draw judge target maxTries next <;> rfl
  | head step _ ih =>
      obtain ⟨first, same⟩ := step.run_eq
      obtain ⟨others, later⟩ := ih
      refine ⟨first ++ others, same.trans ?_⟩
      rw [later]
      cases run draw judge target maxTries next with
      | error e => rfl
      | ok removed => simp only [Except.map, List.append_assoc]

theorem Ends.run_eq {outcome : Except ε (Removed σ τ)}
    (ends : Ends draw judge target maxTries state outcome) :
    run draw judge target maxTries state = outcome := by
  cases ends with
  | ready few => exact run_ready few
  | stopped more drawn enough => exact run_stopped more drawn enough
  | failed more drawn => exact run_failed more drawn

/-- After some draws there is one after which the removal does not go on. -/
theorem exists_last (draw : Draw σ) (judge : Judge τ ε) (target maxTries : Nat)
    (state : RemovalState σ τ) : ∃ last outcome,
      Relation.ReflTransGen (Follows draw judge target maxTries) state last ∧
      Ends draw judge target maxTries last outcome := by
  -- The cases are the branches of the run: a draw after which it goes on comes before all others.
  induction state using run.induct draw judge target maxTries with
  | case1 state _ more e drawn => exact ⟨state, _, .refl, .failed more drawn⟩
  | case2 state _ more place source opinion drawn _ ih =>
      obtain ⟨last, outcome, steps, ends⟩ := ih
      exact ⟨last, outcome, steps.head (.accepted more drawn), ends⟩
  | case3 state _ more place source opinion drawn _ again ih =>
      obtain ⟨last, outcome, steps, ends⟩ := ih
      exact ⟨last, outcome, steps.head (.rejected more drawn again), ends⟩
  | case4 state _ more place source opinion drawn _ enough =>
      exact ⟨state, _, .refl, .stopped more drawn (Nat.le_of_not_lt enough)⟩
  | case5 state _ few => exact ⟨state, _, .refl, .ready few⟩

/-- A run comes to its end by draws after each of which it goes on. -/
theorem exists_end (draw : Draw σ) (judge : Judge τ ε) (target maxTries : Nat)
    (state : RemovalState σ τ) : ∃ last outcome events,
      Relation.ReflTransGen (Follows draw judge target maxTries) state last ∧
      Ends draw judge target maxTries last outcome ∧ run draw judge target maxTries state =
        outcome.map fun removed => { removed with log := events ++ removed.log } := by
  obtain ⟨last, outcome, steps, ends⟩ := exists_last draw judge target maxTries state
  obtain ⟨events, same⟩ := run_eq_of_reaches steps
  rw [ends.run_eq] at same
  exact ⟨last, outcome, events, steps, ends, same⟩

/-- A draw keeps the candidates the cells that have a clue. -/
theorem Follows.sound {grid : Board} (step : Follows draw judge target maxTries state next)
    (h : state.removal.Sound grid) : next.removal.Sound grid := by
  cases step with
  | accepted more drawn => exact h.accept _
  | rejected more drawn again => exact h.reject _

theorem reaches_sound {grid : Board}
    (steps : Relation.ReflTransGen (Follows draw judge target maxTries) state next)
    (h : state.removal.Sound grid) : next.removal.Sound grid := by
  induction steps with
  | refl => exact h
  | tail _ step ih => exact step.sound ih

/-- No clue is removed when no more than the target are left. -/
theorem Follows.enough {least : Nat} (step : Follows draw judge target maxTries state next)
    (low : least ≤ target) (h : least ≤ state.removal.remaining) :
    least ≤ next.removal.remaining := by
  cases step with
  | accepted more drawn =>
      have left : least ≤ state.removal.remaining - 1 := by
        have := more.1
        omega
      exact left
  | rejected more drawn again => exact h

end RemovalState

end ExactCover
