import ExactCover.Proofs.GridRules

/-! # What a removal shows its judge

A judge that records its calls decides as before, so that the calls of a removal can be read off the
record. Each of them shows the board that was accepted last without one more of its clues. The
removal ends as soon as few enough clues are left, as many calls in a row as allowed were rejected,
or the judge has failed, and not before.
-/

namespace ExactCover

variable {σ τ ε : Type}

/-- A board that was shown to a judge, and what the judge said. -/
structure Call (ε : Type) where
  shown : Board
  answer : Except ε Bool

namespace Call

def accepts (call : Call ε) : Bool := call.answer matches .ok true

def rejects (call : Call ε) : Bool := call.answer matches .ok false

end Call

/-- The judge that also keeps a record of its calls, which a failure hands on. -/
def Judge.recording (judge : Judge τ ε) : Judge (τ × List (Call ε)) (ε × List (Call ε)) :=
  fun board noted =>
    match judge board noted.1 with
    | .ok (verdict, opinion) => .ok (verdict, opinion, noted.2 ++ [⟨board, .ok verdict⟩])
    | .error e => .error (e, noted.2 ++ [⟨board, .error e⟩])

/-- What comes of a removal together with the record of its calls. -/
def withCalls (calls : List (Call ε)) :
    Except ε (Removed σ τ) → Except (ε × List (Call ε)) (Removed σ (τ × List (Call ε)))
  | .ok removed => .ok ⟨removed.clues, removed.log, removed.source, removed.judge, calls⟩
  | .error e => .error (e, calls)

/-- The board that was accepted last, and the grid before there is one. -/
def lastAccepted (grid : Board) (calls : List (Call ε)) : Board :=
  calls.foldl (fun last call => if call.accepts then call.shown else last) grid

/-- How many calls in a row were rejected in the end. -/
def rejectedLast (calls : List (Call ε)) : Nat := (calls.rtakeWhile Call.rejects).length

/-- No further call is to follow: few enough clues are left, or as many calls in a row as allowed
    were rejected. -/
def Enough (grid : Board) (target maxTries : Nat) (calls : List (Call ε)) : Prop :=
  (lastAccepted grid calls).clueCount = min target 81 ∨ max 1 maxTries ≤ rejectedLast calls

/-- A call that may follow others. -/
structure Fits (grid : Board) (target maxTries : Nat) (before : List (Call ε)) (call : Call ε) :
    Prop where
  goes_on : ¬ Enough grid target maxTries before
  answered : ∀ earlier ∈ before, ∃ verdict, earlier.answer = .ok verdict
  shown : ∃ cell, (lastAccepted grid before).get cell ≠ 0 ∧
    call.shown = (lastAccepted grid before).put cell 0

/-- Calls each of which may follow those before it. -/
def Course (grid : Board) (target maxTries : Nat) (calls : List (Call ε)) : Prop :=
  ∀ before call after, calls = before ++ call :: after → Fits grid target maxTries before call

/-- How calls close: a removal that succeeds has made enough of them, and one that fails has failed
    with the last of them. -/
def Closes (grid : Board) (target maxTries : Nat) (calls : List (Call ε)) :
    Except ε (Removed σ τ) → Prop
  | .ok removed => Enough grid target maxTries calls ∧
      removed.clues = lastAccepted grid calls ∧
      ∀ call ∈ calls, ∃ verdict, call.answer = .ok verdict
  | .error e => ∃ before shown, calls = before ++ [⟨shown, .error e⟩]

variable {grid : Board} {target maxTries : Nat} {calls : List (Call ε)} {call : Call ε}

theorem withCalls_eq_ok {result : Except ε (Removed σ τ)} {noted : Removed σ (τ × List (Call ε))}
    (same : withCalls calls result = .ok noted) :
    ∃ removed, result = .ok removed ∧ removed.clues = noted.clues ∧ calls = noted.judge.2 := by
  cases result with
  | error e => cases same
  | ok removed =>
      cases same
      exact ⟨removed, rfl, rfl, rfl⟩

theorem withCalls_eq_error {result : Except ε (Removed σ τ)} {e : ε} {later : List (Call ε)}
    (same : withCalls calls result = .error (e, later)) : result = .error e ∧ calls = later := by
  cases result with
  | error failure =>
      cases same
      exact ⟨rfl, rfl⟩
  | ok removed => cases same

theorem lastAccepted_concat : lastAccepted grid (calls ++ [call]) =
    if call.accepts then call.shown else lastAccepted grid calls := by
  rw [lastAccepted, List.foldl_append]
  rfl

theorem rejectedLast_concat : rejectedLast (calls ++ [call]) =
    if call.rejects then rejectedLast calls + 1 else 0 := by
  unfold rejectedLast
  split
  · rename_i rejects
    rw [List.rtakeWhile_concat_pos _ _ _ rejects, List.length_append, List.length_singleton]
  · rename_i answer
    rw [List.rtakeWhile_concat_neg _ _ _ answer, List.length_nil]

theorem Course.nil : Course grid target maxTries ([] : List (Call ε)) := by
  intro before call after split
  exact absurd split (by simp)

theorem Course.concat (h : Course grid target maxTries calls)
    (fits : Fits grid target maxTries calls call) :
    Course grid target maxTries (calls ++ [call]) := by
  intro before other after split
  rcases List.eq_nil_or_concat after with rfl | ⟨rest, last, rfl⟩
  · obtain ⟨rfl, rfl⟩ := List.append_inj' split rfl |>.imp_right List.head_eq_of_cons_eq
    exact fits
  · rw [List.concat_eq_append, ← List.cons_append, ← List.append_assoc] at split
    exact h before other rest (List.append_inj' split rfl).1

namespace RemovalState

open Relation

variable {draw : Draw σ} {judge : Judge τ ε}

/-! ### The record -/

/-- The same removal for a judge that has a record of calls. -/
def noting (state : RemovalState σ τ) (calls : List (Call ε)) :
    RemovalState σ (τ × List (Call ε)) :=
  ⟨state.removal, state.source, state.judge, calls⟩

theorem recording_eq_ok {board : Board} {opinion : τ × List (Call ε)} {verdict : Bool}
    {after : τ × List (Call ε)} (judged : judge.recording board opinion = .ok (verdict, after)) :
    after.2 = opinion.2 ++ [⟨board, .ok verdict⟩] := by
  unfold Judge.recording at judged
  cases answer : judge board opinion.1 with
  | error e =>
      rw [answer] at judged
      cases judged
  | ok decided =>
      rw [answer] at judged
      cases judged
      rfl

theorem recording_eq_error {board : Board} {opinion : τ × List (Call ε)} {e : ε}
    {after : List (Call ε)} (judged : judge.recording board opinion = .error (e, after)) :
    after = opinion.2 ++ [⟨board, .error e⟩] := by
  unfold Judge.recording at judged
  cases answer : judge board opinion.1 with
  | error failure =>
      rw [answer] at judged
      cases judged
      rfl
  | ok decided =>
      rw [answer] at judged
      cases judged

theorem attempt_recording_ok {state : RemovalState σ τ} {more : 0 < state.removal.candidates.size}
    {place : Fin state.removal.candidates.size} {verdict : Bool} {source : σ} {opinion : τ}
    (calls : List (Call ε))
    (drawn : attempt draw judge state more = .ok (place, verdict, source, opinion)) :
    attempt draw judge.recording (state.noting calls) more =
      .ok (place, verdict, source, opinion,
        calls ++ [⟨state.removal.blanked place, .ok verdict⟩]) := by
  simp only [attempt, noting, Judge.recording, bind, Except.bind, pure, Except.pure] at drawn ⊢
  cases judged : judge (state.removal.blanked
      (draw state.removal.candidates.size more state.source).1) state.judge with
  | error e => simp [judged] at drawn
  | ok outcome =>
      simp only [judged, Except.ok.injEq, Prod.mk.injEq] at drawn
      obtain ⟨rfl, rfl, rfl, rfl⟩ := drawn
      rfl

theorem attempt_recording_error {state : RemovalState σ τ}
    {more : 0 < state.removal.candidates.size} {e : ε} (calls : List (Call ε))
    (drawn : attempt draw judge state more = .error e) : ∃ later,
    attempt draw judge.recording (state.noting calls) more =
      .error (e, later) := by
  simp only [attempt, noting, Judge.recording, bind, Except.bind, pure, Except.pure] at drawn ⊢
  cases judged : judge (state.removal.blanked
      (draw state.removal.candidates.size more state.source).1) state.judge with
  | error failure =>
      simp only [judged, Except.error.injEq] at drawn
      obtain rfl := drawn
      exact ⟨_, rfl⟩
  | ok outcome => simp [judged] at drawn

/-- Recording its calls does not change what a judge decides. -/
theorem run_recording (draw : Draw σ) (judge : Judge τ ε) (target maxTries : Nat)
    (state : RemovalState σ τ) (calls : List (Call ε)) : ∃ later,
      run draw judge.recording target maxTries (state.noting calls) =
        withCalls later (run draw judge target maxTries state) := by
  induction state using run.induct draw judge target maxTries generalizing calls with
  | case1 state _ more e drawn =>
      have goesOn : (state.noting calls).removal.GoesOn target := more
      obtain ⟨later, failed⟩ := attempt_recording_error calls drawn
      refine ⟨later, (run_failed goesOn failed).trans ?_⟩
      rw [run_failed more drawn]
      rfl
  | case2 state _ more place source opinion drawn _ ih =>
      have goesOn : (state.noting calls).removal.GoesOn target := more
      obtain ⟨later, same⟩ := ih (calls ++ [⟨state.removal.blanked place, .ok true⟩])
      refine ⟨later, (run_accepted goesOn (attempt_recording_ok calls drawn)).trans ?_⟩
      rw [run_accepted more drawn]
      refine (congrArg (Except.map _) same).trans ?_
      cases run draw judge target maxTries ⟨state.removal.accept place, source, opinion⟩ <;> rfl
  | case3 state _ more place source opinion drawn _ again ih =>
      have goesOn : (state.noting calls).removal.GoesOn target := more
      obtain ⟨later, same⟩ := ih (calls ++ [⟨state.removal.blanked place, .ok false⟩])
      refine ⟨later, (run_rejected goesOn (attempt_recording_ok calls drawn) again).trans ?_⟩
      rw [run_rejected more drawn again]
      exact same
  | case4 state _ more place source opinion drawn _ enough =>
      have goesOn : (state.noting calls).removal.GoesOn target := more
      have stops := Nat.le_of_not_lt enough
      refine ⟨calls ++ [⟨state.removal.blanked place, .ok false⟩],
        (run_stopped goesOn (attempt_recording_ok calls drawn) stops).trans ?_⟩
      rw [run_stopped more drawn stops]
      rfl
  | case5 state _ few =>
      have done : ¬ (state.noting calls).removal.GoesOn target := few
      refine ⟨calls, (run_ready done).trans ?_⟩
      rw [run_ready few]
      rfl

/-! ### The loop heads of a recorded removal -/

/-- A removal between two draws with the record of the calls so far. -/
structure Recorded (grid : Board) (target maxTries : Nat)
    (state : RemovalState σ (τ × List (Call ε))) : Prop where
  sound : state.removal.Sound grid
  clues : state.removal.clues = lastAccepted grid state.judge.2
  failures : state.removal.failures = rejectedLast state.judge.2
  few : state.removal.failures < max 1 maxTries
  enough : min target 81 ≤ state.removal.remaining
  fresh : state.removal.failures = 0 ∨ target < state.removal.remaining
  /-- At most as many calls as allowed are made for every clue that was removed. -/
  count : state.judge.2.length ≤
    (81 - state.removal.remaining) * max 1 maxTries + state.removal.failures
  course : Course grid target maxTries state.judge.2
  answered : ∀ call ∈ state.judge.2, ∃ verdict, call.answer = .ok verdict

theorem recorded_start (filled : ∀ cell, grid.get cell ≠ 0) (target maxTries : Nat) (source : σ)
    (opinion : τ) :
    Recorded (ε := ε) grid target maxTries ⟨.start grid, source, opinion, []⟩ where
  sound := Removal.start_sound filled
  clues := rfl
  failures := rfl
  few := Nat.lt_of_lt_of_le Nat.zero_lt_one (Nat.le_max_left 1 maxTries)
  enough := Nat.min_le_right target 81
  fresh := .inl rfl
  count := Nat.zero_le _
  course := Course.nil
  answered := by simp

namespace Recorded

variable {state next : RemovalState σ (τ × List (Call ε))}

theorem clueCount (h : Recorded grid target maxTries state) :
    (lastAccepted grid state.judge.2).clueCount = state.removal.remaining := by
  rw [← h.clues, ← h.sound.size_candidates, h.sound.remaining]

/-- A further draw shows the clues without one of them. -/
theorem fits (h : Recorded grid target maxTries state) (more : state.removal.GoesOn target)
    (place : Fin state.removal.candidates.size) (answer : Except ε Bool) :
    Fits grid target maxTries state.judge.2 ⟨state.removal.blanked place, answer⟩ where
  goes_on := by
    have many := more.1
    have few := h.few
    rw [Enough, h.clueCount, ← h.failures]
    omega
  answered := h.answered
  shown := by
    rw [← h.clues]
    exact ⟨_, (h.sound.mem_candidates _).mp (Array.getElem_mem_toList place.isLt), rfl⟩

/-- There is room for the call of a further draw. -/
theorem length_lt (h : Recorded grid target maxTries state) (more : state.removal.GoesOn target) :
    state.judge.2.length + 1 ≤ (81 - (state.removal.remaining - 1)) * max 1 maxTries := by
  have most := state.removal.clues.clueCount_le
  rw [← h.sound.size_candidates, ← h.sound.remaining] at most
  have left := more.1
  calc state.judge.2.length + 1
      ≤ (81 - state.removal.remaining) * max 1 maxTries + max 1 maxTries := by
        have := h.count
        have := h.few
        omega
    _ = (81 - state.removal.remaining + 1) * max 1 maxTries := (Nat.succ_mul _ _).symm
    _ = (81 - (state.removal.remaining - 1)) * max 1 maxTries := by
        congr 1
        omega

/-- The room for the call of a further draw is within that for all calls. -/
theorem length_le (h : Recorded grid target maxTries state) (more : state.removal.GoesOn target) :
    state.judge.2.length + 1 ≤ (81 - min target 81) * max 1 maxTries := by
  refine (h.length_lt more).trans (Nat.mul_le_mul_right _ ?_)
  have left := more.1
  omega

theorem answered_concat (h : Recorded grid target maxTries state) (shown : Board)
    (verdict : Bool) : ∀ call ∈ state.judge.2 ++ [⟨shown, .ok verdict⟩],
      ∃ verdict, call.answer = .ok verdict := by
  intro call member
  rcases List.mem_append.mp member with earlier | last
  · exact h.answered call earlier
  · rw [List.mem_singleton.mp last]
    exact ⟨verdict, rfl⟩

theorem follows (h : Recorded grid target maxTries state)
    (step : Follows draw judge.recording target maxTries state next) :
    Recorded grid target maxTries next := by
  have sound := step.sound h.sound
  have enough := step.enough (Nat.min_le_left target 81) h.enough
  cases step with
  | @accepted place source noted more drawn =>
      have record : noted.2 = _ := recording_eq_ok (attempt_judged drawn)
      constructor
      case sound => exact sound
      case enough => exact enough
      case clues =>
        rw [record, lastAccepted_concat]
        rfl
      case failures =>
        rw [record, rejectedLast_concat]
        rfl
      case few => exact Nat.lt_of_lt_of_le Nat.zero_lt_one (Nat.le_max_left 1 maxTries)
      case fresh => exact .inl rfl
      case count =>
        rw [record, List.length_append]
        exact h.length_lt more
      case course =>
        rw [record]
        exact h.course.concat (h.fits more _ _)
      case answered =>
        rw [record]
        exact h.answered_concat _ _
  | @rejected place source noted more drawn again =>
      have record : noted.2 = _ := recording_eq_ok (attempt_judged drawn)
      constructor
      case sound => exact sound
      case enough => exact enough
      case clues =>
        rw [record, lastAccepted_concat, Removal.clues_reject]
        exact h.clues
      case failures =>
        rw [record, rejectedLast_concat, ← h.failures]
        rfl
      case few => exact Nat.lt_of_lt_of_le again (Nat.le_max_right 1 maxTries)
      case fresh => exact .inr more.1
      case count =>
        rw [record, List.length_append]
        exact Nat.succ_le_succ h.count
      case course =>
        rw [record]
        exact h.course.concat (h.fits more _ _)
      case answered =>
        rw [record]
        exact h.answered_concat _ _

theorem reaches (h : Recorded grid target maxTries state)
    (steps : ReflTransGen (Follows draw judge.recording target maxTries) state next) :
    Recorded grid target maxTries next := by
  induction steps with
  | refl => exact h
  | tail _ step ih => exact ih.follows step

end Recorded

/-- The calls that a removal makes, and how they close. -/
theorem exists_course (filled : ∀ cell, grid.get cell ≠ 0) (draw : Draw σ) (judge : Judge τ ε)
    (target maxTries : Nat) (source : σ) (opinion : τ) : ∃ calls,
      run draw judge.recording target maxTries ⟨.start grid, source, opinion, []⟩ =
        withCalls calls (run draw judge target maxTries ⟨.start grid, source, opinion⟩) ∧
      calls.length ≤ (81 - min target 81) * max 1 maxTries ∧ Course grid target maxTries calls ∧
      Closes grid target maxTries calls
        (run draw judge target maxTries ⟨.start grid, source, opinion⟩) := by
  obtain ⟨calls, same⟩ :=
    run_recording draw judge target maxTries ⟨.start grid, source, opinion⟩ []
  refine ⟨calls, same, ?_⟩
  obtain ⟨last, outcome, events, steps, ends, ended⟩ := exists_end draw judge.recording target
    maxTries (noting ⟨.start grid, source, opinion⟩ [])
  have recorded := (recorded_start filled target maxTries source opinion).reaches steps
  replace same := same.symm.trans ended
  cases ends with
  | ready few =>
      obtain ⟨removed, succeeds, clues, rfl⟩ := withCalls_eq_ok same
      rw [recorded.sound.goesOn_iff, Nat.not_lt] at few
      have unfailing := recorded.fresh.resolve_right (Nat.not_lt.mpr few)
      have most := last.removal.clues.clueCount_le
      rw [← recorded.sound.size_candidates, ← recorded.sound.remaining] at most
      have reached : last.removal.remaining = min target 81 :=
        Nat.le_antisymm (Nat.le_min.mpr ⟨few, most⟩) recorded.enough
      rw [succeeds]
      refine ⟨?_, recorded.course, .inl (recorded.clueCount.trans reached),
        clues.trans recorded.clues, recorded.answered⟩
      have count := recorded.count
      rwa [unfailing, reached] at count
  | @stopped place source noted more drawn enough =>
      obtain ⟨removed, succeeds, clues, rfl⟩ := withCalls_eq_ok same
      have record : noted.2 = _ := recording_eq_ok (attempt_judged drawn)
      simp only [record] at clues ⊢
      rw [succeeds]
      refine ⟨?_, recorded.course.concat (recorded.fits more place _), .inr ?_, clues.trans ?_,
        recorded.answered_concat _ _⟩
      · rw [List.length_append]
        exact recorded.length_le more
      · rw [rejectedLast_concat, ← recorded.failures]
        exact Nat.max_le.mpr ⟨Nat.le_add_left 1 _, enough⟩
      · rw [lastAccepted_concat, Removal.clues_reject]
        exact recorded.clues
  | @failed e more drawn =>
      obtain ⟨failure, later⟩ := e
      obtain ⟨fails, rfl⟩ := withCalls_eq_error same
      obtain ⟨place, judged⟩ := attempt_failed drawn
      rw [fails, recording_eq_error judged]
      refine ⟨?_, recorded.course.concat (recorded.fits more place _), _, _, rfl⟩
      rw [List.length_append]
      exact recorded.length_le more

/-- A removal that allows no failed draw is one that allows a single one. -/
theorem run_zero (draw : Draw σ) (judge : Judge τ ε) (target : Nat) (state : RemovalState σ τ) :
    run draw judge target 0 state = run draw judge target 1 state := by
  induction state using run.induct draw judge target 1 with
  | case1 state _ more e drawn => rw [run_failed more drawn, run_failed more drawn]
  | case2 state _ more place source opinion drawn _ ih =>
      rw [run_accepted more drawn, run_accepted more drawn, ih]
  | case3 state _ more place source opinion drawn rejected again ih =>
      exact absurd again (Nat.not_lt.mpr (Nat.le_add_left 1 _))
  | case4 state _ more place source opinion drawn rejected enough =>
      rw [run_stopped more drawn (Nat.zero_le _), run_stopped more drawn (Nat.not_lt.mp enough)]
  | case5 state _ few => rw [run_ready few, run_ready few]

/-- The calls before which enough were made are all calls of a removal that succeeds. -/
theorem enough_iff {result : Except ε (Removed σ τ)} (course : Course grid target maxTries calls)
    (closes : Closes grid target maxTries calls result) {before after : List (Call ε)}
    (split : calls = before ++ after) :
    Enough grid target maxTries before ↔ after = [] ∧ ∃ removed, result = .ok removed := by
  cases after with
  | cons call after =>
      constructor
      · exact fun enough => absurd enough (course before call after split).goes_on
      · rintro ⟨impossible, _⟩
        cases impossible
  | nil =>
      rw [List.append_nil] at split
      subst split
      cases result with
      | ok removed => exact ⟨fun _ => ⟨rfl, removed, rfl⟩, fun _ => closes.1⟩
      | error e =>
          obtain ⟨before, shown, rfl⟩ := closes
          have goesOn := (course before _ [] rfl).goes_on
          constructor
          · -- The call that failed neither accepts a board nor rejects one.
            rintro (few | rejected)
            · rw [lastAccepted_concat] at few
              exact absurd (.inl few) goesOn
            · rw [rejectedLast_concat] at rejected
              have one := (Nat.le_max_left 1 maxTries).trans rejected
              cases one
          · rintro ⟨_, _, impossible⟩
            cases impossible

/-- A failure of the judge is what the removal comes to, without a further call. -/
theorem failed_of_answer {result : Except ε (Removed σ τ)}
    (course : Course grid target maxTries calls) (closes : Closes grid target maxTries calls result)
    {before after : List (Call ε)} {e : ε} (split : calls = before ++ call :: after)
    (answer : call.answer = .error e) : after = [] ∧ result = .error e := by
  have last : after = [] := by
    cases after with
    | nil => rfl
    | cons next after =>
        have further := split.trans (List.append_cons before call (next :: after))
        obtain ⟨verdict, decided⟩ := (course _ next after further).answered call (by simp)
        rw [answer] at decided
        cases decided
  subst last
  cases result with
  | ok removed =>
      obtain ⟨verdict, decided⟩ := closes.2.2 call (by simp [split])
      rw [answer] at decided
      cases decided
  | error failure =>
      obtain ⟨_, shown, closed⟩ := closes
      obtain ⟨_, same⟩ := List.append_inj' (split.symm.trans closed) rfl
      cases same
      cases answer
      exact ⟨rfl, rfl⟩

/-- A removal from a filled grid, whatever is drawn and whatever the judge says. At every loop head
    the candidates are the cells that have a clue, each of them once and as many as are said to be
    left, and the clues agree with the grid. Every call shows the board that was accepted last
    without one more of its clues. There is a limit to the calls; the removal succeeds as soon as
    few enough clues are left or enough calls in a row were rejected, with the board that was
    accepted last, and it fails as soon as the judge does. -/
theorem removal_calls (filled : ∀ cell, grid.get cell ≠ 0) (draw : Draw σ) (judge : Judge τ ε)
    (target maxTries : Nat) (source : σ) (opinion : τ) :
    (∀ head, ReflTransGen (Follows draw judge target maxTries) ⟨.start grid, source, opinion⟩ head →
      (∃ events, run draw judge target maxTries ⟨.start grid, source, opinion⟩ =
        (run draw judge target maxTries head).map
          fun removed => { removed with log := events ++ removed.log }) ∧
      head.removal.candidates.toList.Nodup ∧
      (∀ cell, cell ∈ head.removal.candidates.toList ↔ head.removal.clues.get cell ≠ 0) ∧
      head.removal.remaining = head.removal.candidates.size ∧
      head.removal.remaining = head.removal.clues.clueCount ∧
      head.removal.clues.agreesWith grid = true ∧
      (target < head.removal.remaining → 0 < head.removal.candidates.size)) ∧
    (∃ calls, run draw judge.recording target maxTries ⟨.start grid, source, opinion, []⟩ =
        withCalls calls (run draw judge target maxTries ⟨.start grid, source, opinion⟩) ∧
      calls.length ≤ (81 - min target 81) * max 1 maxTries ∧
      (∀ before call after, calls = before ++ call :: after →
        ∃ cell, (lastAccepted grid before).get cell ≠ 0 ∧
          call.shown = (lastAccepted grid before).put cell 0) ∧
      (∀ before after, calls = before ++ after → (Enough grid target maxTries before ↔
        after = [] ∧ ∃ removed,
          run draw judge target maxTries ⟨.start grid, source, opinion⟩ = .ok removed)) ∧
      (∀ removed, run draw judge target maxTries ⟨.start grid, source, opinion⟩ = .ok removed →
        removed.clues = lastAccepted grid calls) ∧
      (∀ before call after e, calls = before ++ call :: after → call.answer = .error e →
        after = [] ∧ run draw judge target maxTries ⟨.start grid, source, opinion⟩ = .error e) ∧
      ∀ e, run draw judge target maxTries ⟨.start grid, source, opinion⟩ = .error e →
        ∃ before shown, calls = before ++ [⟨shown, .error e⟩]) ∧
    ∀ state : RemovalState σ τ, run draw judge target 0 state = run draw judge target 1 state := by
  refine ⟨fun head steps => ?_, ?_, run_zero draw judge target⟩
  · have sound := reaches_sound steps (Removal.start_sound filled)
    exact ⟨run_eq_of_reaches steps, sound.nodup, sound.mem_candidates, sound.remaining,
      sound.remaining.trans sound.size_candidates, Board.agreesWith_of_keeps sound.keeps,
      fun more => (sound.goesOn_iff.mpr more).2⟩
  · obtain ⟨calls, same, count, course, closes⟩ :=
      exists_course filled draw judge target maxTries source opinion
    refine ⟨calls, same, count,
      fun before call after split => (course before call after split).shown,
      fun before after => enough_iff course closes, fun removed succeeds => ?_,
      fun before call after e => failed_of_answer course closes, fun e fails => ?_⟩
    · rw [succeeds] at closes
      exact closes.2.1
    · rw [fails] at closes
      exact closes

/-- A source that always draws the first place. -/
def drawFirst : Draw Unit := fun _ positive _ => (⟨0, positive⟩, ())

/-- A judge that accepts no board. -/
def refuseAll : Judge Unit Error := fun _ _ => .ok (false, ())

/-- A grid keeps all its clues when no board is accepted. -/
theorem shiftedRows_stays : ∃ (calls : List (Call Error)) (removed : Removed Unit Unit),
    run drawFirst refuseAll 80 1 ⟨.start Board.shiftedRows, (), ()⟩ = .ok removed ∧
      removed.clues = lastAccepted Board.shiftedRows calls ∧ calls.length ≤ 1 := by
  have filled : ∀ cell, Board.shiftedRows.get cell ≠ 0 := by decide +kernel
  obtain ⟨calls, _, count, _, _, clues, _⟩ :=
    (removal_calls filled drawFirst refuseAll 80 1 () ()).2.1
  have goesOn : (Removal.start Board.shiftedRows).GoesOn 80 := by decide
  have stops : run drawFirst refuseAll 80 1 ⟨.start Board.shiftedRows, (), ()⟩ = .ok _ :=
    run_stopped goesOn rfl (Nat.le_refl 1)
  exact ⟨calls, _, stops, clues _ stops, count⟩

end RemovalState

end ExactCover
