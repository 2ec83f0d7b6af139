import ExactCover.Proofs.DiagonalBoxes
import ExactCover.Proofs.RemovalCalls

/-! # Rejections are final

With more clues a board still has the one completion that it had with fewer, as long as the further
clues are digits of it. In the course of a removal clues only go, so that a clue that could not be
removed once can never be removed later.
-/

namespace ExactCover

namespace Board

variable {board more other grid : Board}

theorem agreesWith_iff : board.agreesWith other = true ↔
    ∀ cell, board.get cell ≠ 0 → other.get cell = board.get cell := by
  refine ⟨fun agrees cell real => ?_, agreesWith_of_keeps⟩
  have here := List.all_eq_true.mp agrees cell (List.mem_finRange cell)
  rw [Bool.or_eq_true, beq_iff_eq, beq_iff_eq] at here
  exact (here.resolve_left real).symm

theorem agreesWith_refl (board : Board) : board.agreesWith board = true :=
  agreesWith_of_keeps fun _ _ => rfl

theorem agreesWith_trans (first : board.agreesWith more = true)
    (second : more.agreesWith other = true) : board.agreesWith other = true := by
  rw [agreesWith_iff] at first second ⊢
  intro cell real
  have held := first cell real
  exact (second cell (held ▸ real)).trans held

theorem agreesWith_put_zero (board : Board) (cell : CellIndex) :
    (board.put cell 0).agreesWith board = true := by
  rw [agreesWith_iff]
  intro place real
  rw [get_put] at real ⊢
  split
  · rename_i same
    exact absurd (if_pos same) real
  · rfl

/-- Blanking the same cell keeps clues among clues. -/
theorem put_zero_agreesWith_put_zero (agrees : board.agreesWith more = true) (cell : CellIndex) :
    (board.put cell 0).agreesWith (more.put cell 0) = true := by
  rw [agreesWith_iff] at agrees ⊢
  intro place real
  rw [get_put] at real ⊢
  rw [get_put]
  split
  · rfl
  · rename_i differs
    rw [if_neg differs] at real
    exact agrees place real

/-- Clues of the grid may be added to a board that has the grid as its only completion. -/
theorem HasOnly.of_agreesWith (h : board.HasOnly grid) (agrees : board.agreesWith more = true)
    (within : more.agreesWith grid = true) : more.HasOnly grid := by
  rw [agreesWith_iff] at agrees within
  refine ⟨⟨h.1.1, within⟩, fun other completion => h.2 other ⟨completion.1, fun cell real => ?_⟩⟩
  have held := agrees cell real
  exact (completion.2 cell (held ▸ real)).trans held

end Board

namespace RemovalState

open Relation

variable {σ τ ε : Type} {draw : Draw σ} {judge : Judge τ ε} {grid : Board}
  {target maxTries : Nat} {calls before between after : List (Call ε)} {call other : Call ε}
  {cell : CellIndex}

/-! ### What the judge said -/

/-- Each of the calls was answered by the judge. -/
def AnsweredBy (judge : Judge τ ε) (calls : List (Call ε)) : Prop :=
  ∀ call ∈ calls, ∃ opinion, call.answer = (judge call.shown opinion).map Prod.fst

theorem AnsweredBy.judged {board : Board} {opinion later : τ × List (Call ε)} {verdict : Bool}
    (h : AnsweredBy judge opinion.2)
    (judged : judge.recording board opinion = .ok (verdict, later)) : AnsweredBy judge later.2 := by
  rw [recording_eq_ok judged]
  intro call member
  rcases List.mem_append.mp member with earlier | last
  · exact h call earlier
  · rw [List.mem_singleton.mp last]
    refine ⟨opinion.1, ?_⟩
    unfold Judge.recording at judged
    cases answer : judge board opinion.1 with
    | error e =>
        rw [answer] at judged
        cases judged
    | ok decided =>
        rw [answer] at judged
        cases judged
        rfl

theorem AnsweredBy.reaches {state next : RemovalState σ (τ × List (Call ε))}
    (h : AnsweredBy judge state.judge.2)
    (steps : ReflTransGen (Follows draw judge.recording target maxTries) state next) :
    AnsweredBy judge next.judge.2 := by
  induction steps with
  | refl => exact h
  | tail _ step ih =>
      cases step with
      | accepted more drawn => exact ih.judged (attempt_judged drawn)
      | rejected more drawn again => exact ih.judged (attempt_judged drawn)

theorem run_answeredBy {source : σ} {opinion : τ} {removed : Removed σ (τ × List (Call ε))}
    (run : run draw judge.recording target maxTries ⟨.start grid, source, opinion, []⟩ =
      .ok removed) : AnsweredBy judge removed.judge.2 := by
  obtain ⟨last, outcome, events, steps, ends, ended⟩ := exists_end draw judge.recording target
    maxTries ⟨.start grid, source, opinion, []⟩
  have none : AnsweredBy judge ([] : List (Call ε)) := fun call member => nomatch member
  have answered : AnsweredBy judge last.judge.2 := none.reaches steps
  rw [run] at ended
  cases ends with
  | ready few =>
      cases ended
      exact answered
  | stopped more drawn enough =>
      cases ended
      exact answered.judged (attempt_judged drawn)
  | failed more drawn => cases ended

end RemovalState

variable {ε : Type} {grid : Board} {target maxTries : Nat}
  {calls before between after : List (Call ε)} {call other : Call ε} {cell : CellIndex}

/-! ### Calls for one cell -/

/-- The call comes from a draw of this cell: it shows the board that was accepted last without the
    clue there. -/
def Draws (grid : Board) (before : List (Call ε)) (call : Call ε) (cell : CellIndex) : Prop :=
  (lastAccepted grid before).get cell ≠ 0 ∧ call.shown = (lastAccepted grid before).put cell 0

theorem Draws.unique {one two : CellIndex} (first : Draws grid before call one)
    (second : Draws grid before call two) : one = two := by
  by_contra differs
  have blank : call.shown.get one = 0 := by rw [first.2, Board.get_put, if_pos rfl]
  rw [second.2, Board.get_put, if_neg (Ne.symm differs)] at blank
  exact first.1 blank

namespace Course

theorem existsUnique_draws (h : Course grid target maxTries calls)
    (split : calls = before ++ call :: after) : ∃! cell, Draws grid before call cell := by
  obtain ⟨cell, real, shown⟩ := (h before call after split).shown
  exact ⟨cell, ⟨real, shown⟩, fun other also => also.unique ⟨real, shown⟩⟩

theorem of_append (h : Course grid target maxTries (before ++ after)) :
    Course grid target maxTries before := by
  intro first call rest split
  refine h first call (rest ++ after) ?_
  rw [split, List.append_assoc, List.cons_append]

/-- The boards that are accepted have fewer and fewer clues. -/
theorem lastAccepted_agreesWith (h : Course grid target maxTries (before ++ after)) :
    (lastAccepted grid (before ++ after)).agreesWith (lastAccepted grid before) = true := by
  induction after using List.reverseRecOn with
  | nil =>
      rw [List.append_nil]
      exact Board.agreesWith_refl _
  | append_singleton after last ih =>
      rw [← List.append_assoc] at h ⊢
      have earlier := ih h.of_append
      rw [lastAccepted_concat]
      split
      · obtain ⟨cell, _, shown⟩ := (h _ last [] rfl).shown
        rw [shown]
        exact Board.agreesWith_trans (Board.agreesWith_put_zero _ cell) earlier
      · exact earlier

theorem agreesWith_grid (h : Course grid target maxTries calls) :
    (lastAccepted grid calls).agreesWith grid = true := by
  have whole : Course grid target maxTries ([] ++ calls) := h
  exact whole.lastAccepted_agreesWith

end Course

/-- Every call comes from a draw of one cell. A cell that was rejected is rejected whenever it is
    drawn again, and the clues that are left in the end still have its digit. -/
def RejectsForGood (grid : Board) (calls : List (Call ε)) (clues : Board) : Prop :=
  ∀ before call after, calls = before ++ call :: after →
    (∃! cell, Draws grid before call cell) ∧
    ∀ cell, Draws grid before call cell → call.answer = .ok false →
      (∀ between other rest, after = between ++ other :: rest →
        Draws grid (before ++ call :: between) other cell → other.answer = .ok false) ∧
      clues.get cell ≠ 0 ∧ clues.get cell = grid.get cell

namespace Generator

variable {calls before between after : List (Call Error)} {call other : Call Error}

theorem answer_cases (answered : RemovalState.AnsweredBy judge calls) (member : call ∈ calls) :
    (call.answer = .ok true ∧ ∃ grid, call.shown.HasOnly grid) ∨
      call.answer = .ok false ∧ ∀ grid, ¬ call.shown.HasOnly grid := by
  obtain ⟨opinion, answer⟩ := answered call member
  rcases judge_cases call.shown opinion with ⟨accepts, only⟩ | ⟨rejects, several⟩
  · left
    rw [answer, accepts]
    exact ⟨rfl, only⟩
  · right
    rw [answer, rejects]
    refine ⟨rfl, fun grid only => ?_⟩
    have found := Board.uniqueCompletion_eq_ok_iff.mpr (Board.grids_eq_singleton_iff.mpr only)
    rw [several] at found
    cases found

/-- A cell that was rejected is rejected when it is drawn again, because the board that is shown
    then has no clue that the first one did not have. -/
theorem rejects_again (isGrid : grid.IsGrid)
    (course : Course grid target maxTries (before ++ call :: (between ++ [other])))
    (answered : RemovalState.AnsweredBy judge (before ++ call :: (between ++ [other])))
    (drawn : Draws grid before call cell) (rejects : call.answer = .ok false)
    (again : Draws grid (before ++ call :: between) other cell) : other.answer = .ok false := by
  have split : before ++ call :: (between ++ [other]) = (before ++ call :: between) ++ [other] := by
    rw [List.append_assoc, List.cons_append]
  have first : call ∈ before ++ call :: (between ++ [other]) := by simp
  have last : other ∈ before ++ call :: (between ++ [other]) := by simp
  rcases answer_cases answered last with ⟨_, found, only⟩ | ⟨rejected, _⟩
  · rw [split] at course
    have earlier := course.of_append
    have fewer := Board.put_zero_agreesWith_put_zero earlier.lastAccepted_agreesWith cell
    rw [← again.2, ← drawn.2] at fewer
    have within : call.shown.agreesWith grid = true := by
      rw [drawn.2]
      exact Board.agreesWith_trans (Board.agreesWith_put_zero _ cell)
        earlier.of_append.agreesWith_grid
    have completion : other.shown.IsCompletion grid :=
      ⟨isGrid, Board.agreesWith_iff.mp (Board.agreesWith_trans fewer within)⟩
    obtain rfl := only.2 grid completion
    rcases answer_cases answered first with ⟨accepts, _⟩ | ⟨_, none⟩
    · rw [rejects] at accepts
      cases accepts
    · exact absurd (only.of_agreesWith fewer within) (none grid)
  · exact rejected

/-- The clue of a cell that was rejected stays. -/
theorem get_lastAccepted_ne_zero (isGrid : grid.IsGrid)
    (course : Course grid target maxTries (before ++ call :: after))
    (answered : RemovalState.AnsweredBy judge (before ++ call :: after))
    (drawn : Draws grid before call cell) (rejects : call.answer = .ok false) :
    (lastAccepted grid (before ++ call :: after)).get cell ≠ 0 := by
  induction after using List.reverseRecOn with
  | nil =>
      rw [lastAccepted_concat, Call.accepts, rejects]
      exact drawn.1
  | append_singleton after last ih =>
      have split : before ++ call :: (after ++ [last]) = (before ++ call :: after) ++ [last] := by
        rw [List.append_assoc, List.cons_append]
      have whole := course
      rw [split] at whole
      have stays := ih whole.of_append fun call member =>
        answered call (split ▸ List.mem_append_left _ member)
      rw [split, lastAccepted_concat]
      split
      · rename_i accepts
        obtain ⟨place, real, shown⟩ := (whole _ last [] rfl).shown
        have elsewhere : place ≠ cell := by
          rintro rfl
          have rejected := rejects_again isGrid course answered drawn rejects ⟨real, shown⟩
          rw [Call.accepts, rejected] at accepts
          cases accepts
        rw [shown, Board.get_put, if_neg elsewhere]
        exact stays
      · exact stays

theorem rejectsForGood (isGrid : grid.IsGrid) (course : Course grid target maxTries calls)
    (answered : RemovalState.AnsweredBy judge calls) :
    RejectsForGood grid calls (lastAccepted grid calls) := by
  intro before call after split
  refine ⟨course.existsUnique_draws split, fun cell drawn rejects => ?_⟩
  subst split
  have stays := get_lastAccepted_ne_zero isGrid course answered drawn rejects
  refine ⟨fun between other rest later again => ?_, stays, ?_⟩
  · subst later
    have first : before ++ call :: (between ++ other :: rest) =
        (before ++ call :: (between ++ [other])) ++ rest := by simp
    rw [first] at course answered
    exact rejects_again isGrid course.of_append
      (fun call member => answered call (List.mem_append_left rest member)) drawn rejects again
  · exact (Board.agreesWith_iff.mp course.agreesWith_grid cell stays).symm

/-- The record of a removal from a grid says that rejections are for good. -/
theorem exists_record {σ : Type} (isGrid : grid.IsGrid) (draw : Draw σ) (target maxTries : Nat)
    (source : σ) : ∃ calls removed,
      RemovalState.run draw judge target maxTries ⟨.start grid, source, ()⟩ = .ok removed ∧
      RemovalState.run draw judge.recording target maxTries ⟨.start grid, source, (), []⟩ =
        withCalls calls (.ok removed) ∧ RejectsForGood grid calls removed.clues := by
  obtain ⟨removed, run, _⟩ := run_hasOnly isGrid draw target maxTries source
  obtain ⟨calls, recorded, _, course, closes⟩ :=
    RemovalState.exists_course isGrid.get_ne_zero draw judge target maxTries source ()
  rw [run] at recorded closes
  have answered : RemovalState.AnsweredBy judge calls := RemovalState.run_answeredBy recorded
  refine ⟨calls, removed, run, recorded, ?_⟩
  rw [closes.2.1]
  exact rejectsForGood isGrid course answered

/-- A board with more of the digits of a grid has the grid as its one completion when the clues do.
    So rejections are final in a removal, whatever is drawn, and in the making of a puzzle. -/
theorem rejections_final :
    (∀ clues more grid : Board, clues.agreesWith more = true →
      clues.uniqueCompletion = .ok grid → more.agreesWith grid = true →
        more.uniqueCompletion = .ok grid) ∧
    (∀ (σ : Type) (draw : Draw σ) (source : σ) (grid : Board), grid.IsGrid →
      ∀ target maxTries, ∃ calls removed,
        RemovalState.run draw judge target maxTries ⟨.start grid, source, ()⟩ = .ok removed ∧
        RemovalState.run draw judge.recording target maxTries ⟨.start grid, source, (), []⟩ =
          withCalls calls (.ok removed) ∧ RejectsForGood grid calls removed.clues) ∧
    ∀ (generator : Generator) (target : Nat), ∃ grid after calls removed made later,
      generator.filledBoard = .ok (grid, after) ∧
      RemovalState.run RandomSource.below judge.recording target after.maxTries
        ⟨.start grid, after.source, (), []⟩ = withCalls calls (.ok removed) ∧
      generator.withClues target = .ok (made, later) ∧ made.puzzle.clues = removed.clues ∧
      RejectsForGood grid calls made.puzzle.clues := by
  refine ⟨fun clues more grid agrees one within => ?_, ?_, fun generator target => ?_⟩
  · have only := Board.grids_eq_singleton_iff.mp (Board.uniqueCompletion_eq_ok_iff.mp one)
    exact Board.uniqueCompletion_eq_ok_iff.mpr
      (Board.grids_eq_singleton_iff.mpr (only.of_agreesWith agrees within))
  · intro σ draw source grid isGrid target maxTries
    exact exists_record isGrid draw target maxTries source
  · obtain ⟨grid, after, filled, isGrid, _⟩ := exists_filledBoard generator
    obtain ⟨calls, removed, run, recorded, finals⟩ :=
      exists_record isGrid RandomSource.below target after.maxTries after.source
    obtain ⟨_, made, later, again, puzzle, clues, _⟩ := exists_made target filled
    obtain rfl := Except.ok.inj (run.symm.trans again)
    exact ⟨grid, after, calls, removed, made, later, filled, recorded, puzzle, clues,
      clues ▸ finals⟩

theorem exists_rejects (rejected : 0 < rejectedLast calls) :
    ∃ before call, calls = before ++ [call] ∧ call.answer = .ok false := by
  rcases List.eq_nil_or_concat calls with rfl | ⟨before, call, rfl⟩
  · cases rejected
  · rw [List.concat_eq_append, rejectedLast_concat] at rejected
    refine ⟨before, call, List.concat_eq_append, ?_⟩
    obtain ⟨shown, answer⟩ := call
    rcases answer with e | (verdict | verdict)
    · cases rejected
    · rfl
    · cases rejected

/-- A removal that is to leave no clue ends with a rejection, since a blank board has more than one
    completion. -/
theorem shiftedRows_rejects : ∃ (before : List (Call Error)) (call : Call Error) (cell : CellIndex)
    (removed : Removed Unit Unit),
    RemovalState.run RemovalState.drawFirst judge.recording 0 1
        ⟨.start Board.shiftedRows, (), (), []⟩ = withCalls (before ++ [call]) (.ok removed) ∧
      Draws Board.shiftedRows before call cell ∧ call.answer = .ok false ∧
      removed.clues.get cell = Board.shiftedRows.get cell := by
  have isGrid : Board.shiftedRows.IsGrid := Board.isGrid_iff.mp (by decide +kernel)
  obtain ⟨calls, removed, run, recorded, finals⟩ :=
    rejections_final.2.1 Unit RemovalState.drawFirst () Board.shiftedRows isGrid 0 1
  obtain ⟨_, again, only, _⟩ := run_hasOnly isGrid RemovalState.drawFirst 0 1 ()
  obtain rfl := Except.ok.inj (run.symm.trans again)
  obtain ⟨_, same, _, course, closes⟩ :=
    RemovalState.exists_course isGrid.get_ne_zero RemovalState.drawFirst judge 0 1 () ()
  rw [run] at same closes
  obtain rfl : calls = _ := by
    have equal := recorded.symm.trans same
    simp only [withCalls, Except.ok.injEq, Removed.mk.injEq, Prod.mk.injEq] at equal
    exact equal.2.2.2.2
  have rejected : 0 < rejectedLast calls := by
    rcases closes.1 with none | many
    · rw [← closes.2.1, Board.clueCount_eq, Nat.min_eq_left (Nat.zero_le 81),
        List.length_eq_zero_iff, List.filter_eq_nil_iff] at none
      have blank : ∀ cell, removed.clues.get cell = 0 := by simpa using none
      have other : removed.clues.IsCompletion gridOfSeven :=
        ⟨gridOfSeven_completes.1, fun cell real => absurd (blank cell) real⟩
      exact absurd (only.2 _ other) (by decide +kernel)
    · exact many
  obtain ⟨before, call, rfl, rejects⟩ := exists_rejects rejected
  obtain ⟨⟨cell, drawn, _⟩, stays⟩ := finals before call [] rfl
  exact ⟨before, call, cell, removed, recorded, drawn, rejects, (stays cell drawn rejects).2.2⟩

end Generator

end ExactCover
