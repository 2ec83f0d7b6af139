import ExactCover.Proofs.Counters
import ExactCover.Proofs.Solutions

/-! # A search link by link

The steps of a search, a call of it and the closing of it, with every act on the graph described by
its links. A call goes through its loop without a bound on the turns; that a call has come back is
all that is said.

A row is only tried if it is a row of the matrix, and what is taken off the rows being tried is the
row that was put there when its node was tried.
-/

namespace ExactCover

namespace Search

/-- Stops trying the row of a frame's node, if any. -/
inductive Leaves (graph : Graph) : List Nat → Frame → Graph → List Nat → Prop where
  | idle {chosen : List Nat} {column : Node} : Leaves graph chosen ⟨column, none⟩ graph chosen
  | undone {chosen : List Nat} {column node : Node} {row : Nat} {after : Graph}
      (named : graph.rowOf node = .ok (some row)) (undoes : graph.UncoversRow node after) :
      Leaves graph (row :: chosen) ⟨column, some node⟩ after chosen

/-- Goes one level down. -/
inductive Descends : Search → Event → Search → Prop where
  | solved {graph : Graph} {tally : Tally} {frames : List Frame} {chosen : List Nat} {phase : Phase}
      (choice : graph.chooseColumn = .ok none)
      (named : ∀ clue ∈ graph.clueNodes, ∃ row, graph.rowOf clue = .ok row) :
      Descends ⟨graph, tally, frames, chosen, phase⟩ (.found (graph.clueRows ++ chosen.reverse))
        ⟨graph, { tally with solutions := tally.solutions + 1 }, frames, chosen, phase⟩
  | deadEnd {graph : Graph} {tally : Tally} {frames : List Frame} {chosen : List Nat} {phase : Phase}
      {column : Node} (choice : graph.chooseColumn = .ok (some column))
      (none : graph.countOf column = .ok 0) :
      Descends ⟨graph, tally, frames, chosen, phase⟩ .busy
        ⟨graph, { tally with deadEnds := tally.deadEnds + 1 }, frames, chosen, phase⟩
  | opened {graph after : Graph} {tally : Tally} {frames : List Frame} {chosen : List Nat}
      {phase : Phase} {column : Node} {count : Nat}
      (choice : graph.chooseColumn = .ok (some column))
      (some : graph.countOf column = .ok (count + 1)) (covers : graph.Covers column after) :
      Descends ⟨graph, tally, frames, chosen, phase⟩ .busy
        ⟨after, { tally with maxDepth := max tally.maxDepth (frames.length + 1) },
          ⟨column, .none⟩ :: frames, chosen, phase⟩

/-- One turn of the loop of a call. -/
inductive Steps : Search → Event → Search → Prop where
  | spent {graph : Graph} {tally : Tally} {chosen : List Nat} {phase : Phase} :
      Steps ⟨graph, tally, [], chosen, phase⟩ .spent ⟨graph, tally, [], chosen, .done⟩
  | closed {graph under after : Graph} {tally : Tally} {frame : Frame} {below : List Frame}
      {chosen left : List Nat} {phase : Phase} (leaves : Leaves graph chosen frame under left)
      (down : under.down (frame.trying.getD frame.column) = .ok frame.column)
      (uncovers : under.Uncovers frame.column after) :
      Steps ⟨graph, tally, frame :: below, chosen, phase⟩ .busy ⟨after, tally, below, left, .running⟩
  | tried {graph under covered : Graph} {tally : Tally} {frame : Frame} {below : List Frame}
      {chosen left : List Nat} {phase : Phase} {node : Node} {row : Nat} {event : Event}
      {after : Search} (leaves : Leaves graph chosen frame under left)
      (down : under.down (frame.trying.getD frame.column) = .ok node)
      (further : node ≠ frame.column) (named : under.rowOf node = .ok (some row))
      (covers : under.CoversRow node covered)
      (descends : Descends ⟨covered, { tally with rowsTried := tally.rowsTried + 1 },
        ⟨frame.column, some node⟩ :: below, row :: left, .running⟩ event after) :
      Steps ⟨graph, tally, frame :: below, chosen, phase⟩ event after

/-- The loop of a call comes to its end after so many turns. -/
inductive Loops : Nat → Search → Option (List Nat) → Search → Prop where
  | found {search after : Search} {rows : List Nat} (step : Steps search (.found rows) after) :
      Loops 1 search (some rows) after
  | spent {search after : Search} (step : Steps search .spent after) : Loops 1 search none after
  | busy {turns : Nat} {search middle after : Search} {item : Option (List Nat)}
      (step : Steps search .busy middle) (rest : Loops turns middle item after) :
      Loops (turns + 1) search item after

/-- A call comes back after so many turns of its loop. -/
inductive Returns : Nat → Search → Option (List Nat) → Search → Prop where
  | done {search : Search} (ended : search.phase = .done) : Returns 0 search none search
  | running {turns : Nat} {search after : Search} {item : Option (List Nat)}
      (begun : search.phase = .running) (loops : Loops turns search item after) :
      Returns turns search item after
  | clash {search : Search} (unopened : search.phase = .fresh)
      (clash : search.graph.isConsistent = false) :
      Returns 0 search none { search with phase := .done }
  | found {search after : Search} {rows : List Nat} (unopened : search.phase = .fresh)
      (consistent : search.graph.isConsistent = true)
      (descends : Descends { search with phase := .running } (.found rows) after) :
      Returns 0 search (some rows) after
  | begins {turns : Nat} {search middle after : Search} {item : Option (List Nat)}
      (unopened : search.phase = .fresh) (consistent : search.graph.isConsistent = true)
      (descends : Descends { search with phase := .running } .busy middle)
      (loops : Loops turns middle item after) : Returns turns search item after

/-- Undoes the covers of open columns, the newest first. -/
inductive Unwinds : List Frame → Graph → Graph → Prop where
  | nil (graph : Graph) : Unwinds [] graph graph
  | idle {graph middle after : Graph} {column : Node} {below : List Frame}
      (uncovers : graph.Uncovers column middle) (rest : Unwinds below middle after) :
      Unwinds (⟨column, none⟩ :: below) graph after
  | undone {graph under middle after : Graph} {column node : Node} {below : List Frame}
      (undoes : graph.UncoversRow node under) (uncovers : under.Uncovers column middle)
      (rest : Unwinds below middle after) : Unwinds (⟨column, some node⟩ :: below) graph after

/-! ### One course only -/

variable {search after after' : Search} {event event' : Event} {item item' : Option (List Nat)}
  {turns turns' : Nat}

theorem Leaves.unique {graph one two : Graph} {chosen left left' : List Nat} {frame : Frame}
    (first : Leaves graph chosen frame one left) (second : Leaves graph chosen frame two left') :
    one = two ∧ left = left' := by
  cases first with
  | idle =>
      cases second with
      | idle => exact ⟨rfl, rfl⟩
  | undone named undoes =>
      cases second with
      | undone named' undoes' => exact ⟨Graph.UncoversRow.rightUnique _ undoes undoes', rfl⟩

theorem Descends.unique (first : Descends search event after)
    (second : Descends search event' after') : event = event' ∧ after = after' := by
  cases first with
  | solved choice named => cases second <;> simp_all
  | deadEnd choice none => cases second <;> simp_all
  | opened choice some covers =>
      cases second with
      | opened choice' some' covers' =>
          obtain rfl := Option.some.inj (Except.ok.inj (choice.symm.trans choice'))
          obtain rfl := Graph.Covers.rightUnique _ covers covers'
          exact ⟨rfl, rfl⟩
      | _ => simp_all

theorem Steps.unique (first : Steps search event after) (second : Steps search event' after') :
    event = event' ∧ after = after' := by
  cases first with
  | spent =>
      cases second with
      | spent => exact ⟨rfl, rfl⟩
  | closed leaves down uncovers =>
      cases second with
      | closed leaves' down' uncovers' =>
          obtain ⟨rfl, rfl⟩ := leaves.unique leaves'
          obtain rfl := Graph.Uncovers.rightUnique _ uncovers uncovers'
          exact ⟨rfl, rfl⟩
      | tried leaves' down' further named covers descends =>
          obtain ⟨rfl, rfl⟩ := leaves.unique leaves'
          exact absurd (Except.ok.inj (down'.symm.trans down)) further
  | tried leaves down further named covers descends =>
      cases second with
      | closed leaves' down' uncovers' =>
          obtain ⟨rfl, rfl⟩ := leaves.unique leaves'
          exact absurd (Except.ok.inj (down.symm.trans down')) further
      | tried leaves' down' further' named' covers' descends' =>
          obtain ⟨rfl, rfl⟩ := leaves.unique leaves'
          obtain rfl := Except.ok.inj (down.symm.trans down')
          obtain rfl := Option.some.inj (Except.ok.inj (named.symm.trans named'))
          obtain rfl := Graph.CoversRow.rightUnique _ covers covers'
          exact descends.unique descends'

theorem Loops.unique (first : Loops turns search item after) (second : Loops turns' search item' after') :
    turns = turns' ∧ item = item' ∧ after = after' := by
  induction first generalizing turns' with
  | found step =>
      cases second with
      | found step' =>
          obtain ⟨same, rfl⟩ := step.unique step'
          cases same
          exact ⟨rfl, rfl, rfl⟩
      | spent step' => cases (step.unique step').1
      | busy step' rest => cases (step.unique step').1
  | spent step =>
      cases second with
      | found step' => cases (step.unique step').1
      | spent step' => exact ⟨rfl, rfl, (step.unique step').2⟩
      | busy step' rest => cases (step.unique step').1
  | busy step rest ih =>
      cases second with
      | found step' => cases (step.unique step').1
      | spent step' => cases (step.unique step').1
      | busy step' rest' =>
          obtain ⟨_, rfl⟩ := step.unique step'
          obtain ⟨rfl, rfl, rfl⟩ := ih rest'
          exact ⟨rfl, rfl, rfl⟩

/-- A call has one course only. -/
theorem Returns.unique (first : Returns turns search item after)
    (second : Returns turns' search item' after') : turns = turns' ∧ item = item' ∧ after = after' := by
  cases first with
  | done ended => cases second <;> simp_all
  | running begun loops =>
      cases second with
      | running _ loops' => exact loops.unique loops'
      | _ => simp_all
  | clash unopened clash => cases second <;> simp_all
  | found unopened consistent descends =>
      cases second with
      | found _ _ descends' =>
          obtain ⟨same, rfl⟩ := descends.unique descends'
          cases same
          exact ⟨rfl, rfl, rfl⟩
      | begins _ _ descends' loops' => cases (descends.unique descends').1
      | _ => simp_all
  | begins unopened consistent descends loops =>
      cases second with
      | found _ _ descends' => cases (descends.unique descends').1
      | begins _ _ descends' loops' =>
          obtain ⟨_, rfl⟩ := descends.unique descends'
          exact loops.unique loops'
      | _ => simp_all

end Search

namespace Graph

/-- The first nodes of forced rows are nodes of the graph. -/
def CluesNamed (graph : Graph) : Prop := ∀ clue ∈ graph.clueNodes, ∃ row, graph.rowOf clue = .ok row

theorem CluesNamed.congr {graph other : Graph} (h : graph.CluesNamed)
    (same : other.labels = graph.labels) : other.CluesNamed := by
  have numbers : other.rowNumbers = graph.rowNumbers := congrArg (·.2.1) same
  have clues : other.clueNodes = graph.clueNodes := congrArg (·.2.2.2.1) same
  simpa only [CluesNamed, rowOf, numbers, clues] using h

end Graph

namespace SearchStack

open IncidenceMatrix AlgorithmX Search

variable {matrix : IncidenceMatrix} {base covered live : List Nat} {start graph : Graph}
  {levels : List Level} {tally : Tally} {phase : Phase} {n : Nat} {event : Event}

theorem descends {search after : Search} (h : search.graph.Represents matrix covered)
    (named : search.graph.CluesNamed) (run : search.descend = .ok (event, after)) : Descends search event after := by
  obtain ⟨graph, tally, frames, chosen, phase⟩ := search
  have choice : graph.chooseColumn = .ok _ := h.chooseColumn_eq
  cases picked : pick matrix (matrix.liveColumns covered) (matrix.liveColumns covered) with
  | none =>
      rw [picked, Option.map_none] at choice
      simp only [Search.descend, choice, bind, Except.bind, pure, Except.pure, Except.ok.injEq,
        Prod.mk.injEq] at run
      obtain ⟨rfl, rfl⟩ := run
      exact .solved choice named
  | some column =>
      rw [picked, Option.map_some] at choice
      have alive := pick_mem picked
      have counts := h.shows.counts (mem_liveColumns.mp alive).1
      have counted : graph.countOf (Graph.header column) =
          .ok (matrix.rowsUnder covered column).length := by
        simp only [Graph.countOf, counts]
      obtain ⟨opened, turned, linked, _⟩ := h.cover_undoable alive
      cases size : (matrix.rowsUnder covered column).length with
      | zero =>
          rw [size] at counted
          simp only [Search.descend, choice, counted, bind, Except.bind, pure, Except.pure, if_true,
            Except.ok.injEq, Prod.mk.injEq] at run
          obtain ⟨rfl, rfl⟩ := run
          exact .deadEnd choice counted
      | succ count =>
          rw [size] at counted
          have covers : graph.cover (Graph.header column) = .ok _ := turned.forward graph.updates
          simp only [Search.descend, choice, counted, covers, bind, Except.bind, pure, Except.pure,
            Nat.succ_ne_zero, if_false, Except.ok.injEq, Prod.mk.injEq] at run
          obtain ⟨rfl, rfl⟩ := run
          exact .opened choice counted (linked.forward graph.updates)

namespace Stands

theorem uncovers {column : Nat} {pending : List Nat} {after : Graph}
    (h : Stands matrix base start (⟨column, live, none, pending⟩ :: levels) graph)
    (run : (graph.withUpdates n).uncover (Graph.header column) = .ok after) :
    (graph.withUpdates n).Uncovers (Graph.header column) after := by
  cases h with
  | opened below _ alive lives _ turned _ =>
      obtain ⟨other, turned', linked, _⟩ := below.represents.cover_undoable (lives ▸ alive)
      obtain rfl := Except.ok.inj ((turned.back n).symm.trans run)
      exact (linked.congr (turned'.after_eq turned)).back n

theorem uncoversRow {column row : Nat} {pending : List Nat} {after : Graph}
    (h : Stands matrix base start (⟨column, live, some row, pending⟩ :: levels) graph)
    (run : (graph.withUpdates n).uncoverRow (matrix.layout.node row column) = .ok after) :
    (graph.withUpdates n).rowOf (matrix.layout.node row column) = .ok (some row) ∧
      (graph.withUpdates n).UncoversRow (matrix.layout.node row column) after := by
  cases h with
  | tried below turned represents =>
      obtain ⟨sets, alive⟩ := below.mates_live (List.mem_append_right _ List.mem_cons_self)
      obtain ⟨other, turned', linked, _⟩ := below.represents.coverRow_undoable sets alive
      obtain rfl := Except.ok.inj ((turned.back n).symm.trans run)
      refine ⟨?_, (linked.congr (turned'.after_eq turned)).back n⟩
      simp only [Graph.rowOf, (represents.withUpdates n).shows.rowNumbers (mem_entries.mpr sets)]

theorem leaves {column : Nat} {trying : Option Nat} {pending left : List Nat} {after : Graph}
    (h : Stands matrix base start (⟨column, live, trying, pending⟩ :: levels) graph)
    (run : Search.leaveRow (graph.withUpdates n) (chosen (⟨column, live, trying, pending⟩ :: levels))
      (Level.frame matrix ⟨column, live, trying, pending⟩) = .ok (after, left)) :
    Leaves (graph.withUpdates n) (chosen (⟨column, live, trying, pending⟩ :: levels))
      (Level.frame matrix ⟨column, live, trying, pending⟩) after left := by
  cases trying with
  | none =>
      obtain ⟨rfl, rfl⟩ := Prod.mk.inj (Except.ok.inj run)
      exact .idle
  | some row =>
      simp only [Search.leaveRow, Level.frame, Option.map_some] at run
      obtain ⟨under, undone, same⟩ := exists_of_bind_eq_ok run
      obtain ⟨rfl, rfl⟩ := Prod.mk.inj (Except.ok.inj same)
      obtain ⟨named, undoes⟩ := h.uncoversRow undone
      exact .undone named undoes

theorem unwinds (h : Stands matrix base start levels graph) (n : Nat) :
    Unwinds (levels.map (Level.frame matrix)) (graph.withUpdates n) (start.withUpdates n) := by
  induction h with
  | bottom => exact .nil _
  | opened below settled alive lives rows turned represents ih =>
      have whole := Stands.opened below settled alive lives rows turned represents
      exact .idle (whole.uncovers (turned.back n)) ih
  | tried below turned represents ih =>
      have whole := Stands.tried below turned represents
      cases ih with
      | idle uncovers rest => exact .undone (whole.uncoversRow (turned.back n)).2 uncovers rest

/-- A step that a search makes is a turn of the loop of a call. -/
theorem steps (h : Stands matrix base start levels graph)
    (named : start.CluesNamed) {after : Search}
    (run : (state matrix levels (graph.withUpdates n) tally phase).step = .ok (event, after)) :
    Steps (state matrix levels (graph.withUpdates n) tally phase) event after := by
  cases levels with
  | nil =>
      obtain ⟨rfl, rfl⟩ := Prod.mk.inj (Except.ok.inj run)
      exact .spent
  | cons level below =>
      obtain ⟨column, live, trying, pending⟩ := level
      obtain ⟨under, done, stands, left⟩ := h.leave
      obtain ⟨leaves, down⟩ := left n
      have linked := h.leaves leaves
      simp only [state, List.map_cons, Search.step, leaves, bind, Except.bind] at run
      cases pending with
      | nil =>
          simp only [List.map_nil, List.headD_nil] at down
          simp only [Level.frame, down, if_true] at run
          obtain ⟨last, undone, same⟩ := exists_of_bind_eq_ok run
          obtain ⟨rfl, rfl⟩ := Prod.mk.inj (Except.ok.inj same)
          exact .closed linked down (stands.uncovers undone)
      | cons row rest =>
          have member : row ∈ done ++ row :: rest := List.mem_append_right done List.mem_cons_self
          obtain ⟨sets, alive⟩ := stands.mates_live member
          have apart : matrix.layout.node row column ≠ Graph.header column :=
            Nat.ne_of_gt (matrix.layout.header_lt_node (get_inside sets).2)
          have number : (under.withUpdates n).rowOf (matrix.layout.node row column) =
              .ok (some row) := by
            have listed := (stands.represents.withUpdates n).shows.rowNumbers (mem_entries.mpr sets)
            simp only [Graph.rowOf, listed]
          obtain ⟨covered, turned, covers, represents⟩ :=
            stands.represents.coverRow_undoable sets alive
          simp only [List.map_cons, List.headD_cons] at down
          simp only [Level.frame, down, if_neg apart, Search.tryRow, number, turned.forward, bind,
            Except.bind] at run
          refine .tried linked down apart number (covers.forward n) ?_
          refine descends (represents.withUpdates _) ?_ run
          exact named.congr (turned.labels.trans stands.labels)

/-- The loop of a call that comes to its end within a bound. -/
theorem loops (h : Stands matrix base start levels graph) (named : start.CluesNamed) {limit : Nat}
    {item : Option (List Nat)} {after : Search}
    (run : Search.stepsWithin limit (state matrix levels (graph.withUpdates n) tally phase) =
      .ok (item, after)) :
    ∃ turns ≤ limit, Loops turns (state matrix levels (graph.withUpdates n) tally phase) item after := by
  induction limit generalizing levels graph n tally phase with
  | zero => simp [Search.stepsWithin] at run
  | succ limit ih =>
      cases levels with
      | nil =>
          obtain ⟨rfl, rfl⟩ := Prod.mk.inj (Except.ok.inj run)
          exact ⟨1, Nat.le_add_left 1 limit, .spent .spent⟩
      | cons level below =>
          obtain ⟨visit, next, made⟩ := step_cons matrix level below
          obtain ⟨middle, stands, one⟩ := h.step made
          have step := h.steps named (one n tally phase)
          simp only [Search.stepsWithin, one] at run
          rcases eventAfter_cases start.clueRows next visit with ⟨event, _⟩ | ⟨event, _⟩
          · simp only [event] at run step
            obtain ⟨turns, few, rest⟩ := ih stands run
            exact ⟨turns + 1, Nat.succ_le_succ few, .busy step rest⟩
          · simp only [event, Except.ok.injEq, Prod.mk.injEq] at run step
            obtain ⟨rfl, rfl⟩ := run
            exact ⟨1, Nat.le_add_left 1 limit, .found step⟩

end Stands

namespace Finds

variable {search after : Search} {rest : List (List Nat)}

/-- A call of a search comes back. -/
theorem returns (h : Finds matrix base start search rest) (named : start.CluesNamed)
    {item : Option (List Nat)} (run : search.next = .ok (item, after)) :
    ∃ turns ≤ Search.stepLimit start, Returns turns search item after := by
  cases h with
  | done stands n tally =>
      obtain ⟨rfl, rfl⟩ := Prod.mk.inj (Except.ok.inj run)
      exact ⟨0, Nat.zero_le _, .done rfl⟩
  | running stands bounded n tally =>
      obtain ⟨turns, few, loops⟩ := stands.loops named run
      exact ⟨turns, stands.stepLimit_eq n ▸ few, .running rfl loops⟩
  | fresh represents n tally =>
      have phase : (state matrix [] (start.withUpdates n) tally .fresh).phase = .fresh := rfl
      cases consistent : start.isConsistent with
      | false =>
          have clash : (start.withUpdates n).isConsistent = false := consistent
          simp only [Search.next, state, Search.start, clash, Bool.false_eq_true, if_false,
            Except.ok.injEq, Prod.mk.injEq] at run
          obtain ⟨rfl, rfl⟩ := run
          exact ⟨0, Nat.zero_le _, .clash rfl consistent⟩
      | true =>
          obtain ⟨visit, levels, graph, stands, _, _, starts⟩ := Comes.start_eq represents consistent
          have begins : (state matrix [] (start.withUpdates n) tally .fresh).start =
              (state matrix [] (start.withUpdates n) tally .running).descend := if_pos consistent
          have down := descends (represents.withUpdates n) named (begins.symm.trans (starts n tally))
          simp only [Search.next, phase, starts] at run
          cases visit with
          | solved depth =>
              obtain ⟨rfl, rfl⟩ := Prod.mk.inj (Except.ok.inj run)
              exact ⟨0, Nat.zero_le _, .found phase consistent down⟩
          | deadEnd depth | opened depth =>
              obtain ⟨turns, few, loops⟩ := stands.loops named run
              exact ⟨turns, stands.stepLimit_eq _ ▸ few, .begins phase consistent down loops⟩

theorem unwinds (h : Finds matrix base start search rest) :
    Unwinds search.frames search.graph (start.withUpdates search.graph.updates) := by
  cases h with
  | fresh represents n tally => exact .nil _
  | running stands bounded n tally => exact stands.unwinds n
  | done stands n tally => exact stands.unwinds n

end Finds

end SearchStack

end ExactCover
