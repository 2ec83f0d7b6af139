import ExactCover.Proofs.LinkedSearch
import ExactCover.Proofs.SolverCounters

/-! # The calls of a solver link by link

Every call of a search comes back, wherever earlier calls and searches have left the solver, and
takes no step that could fail. After the last exact cover a search stays as it is.
-/

namespace ExactCover

open IncidenceMatrix SearchStack

namespace Search

variable {search after : Search} {turns : Nat} {item : Option (List Nat)}

theorem Loops.ended (h : Loops turns search item after) (none : item = none) :
    after.phase = .done := by
  induction h with
  | found step => cases none
  | spent step =>
      cases step with
      | spent => rfl
      | tried leaves down further named covers descends => cases descends
  | busy step rest ih => exact ih none

/-- A call without an answer ends the search. -/
theorem Returns.ended (h : Returns turns search none after) : after.phase = .done := by
  cases h with
  | done ended => exact ended
  | running begun loops => exact loops.ended rfl
  | clash unopened clash => rfl
  | begins unopened consistent descends loops => exact loops.ended rfl

/-- A search that has ended answers no call and stays as it is. -/
theorem pull_done (ended : search.phase = .done) (n : Nat) :
    search.pull n = .ok (List.replicate n none, search) := by
  induction n with
  | zero => rfl
  | succ n ih =>
      simp only [pull, next, ended, ih, bind, Except.bind, pure, Except.pure, List.replicate_succ]

/-- The answers of calls that are made one after the other. -/
inductive Calls : Search → List (Option (List Nat)) → Search → Prop where
  | nil (search : Search) : Calls search [] search
  | cons {turns : Nat} {search middle after : Search} {item : Option (List Nat)}
      {items : List (Option (List Nat))} (first : Returns turns search item middle)
      (rest : Calls middle items after) : Calls search (item :: items) after

/-- The covers that up to so many calls find. -/
inductive Takes : Nat → Search → List (List Nat) → Search → Prop where
  | enough (search : Search) : Takes 0 search [] search
  | ended {n turns : Nat} {search after : Search} (last : Returns turns search none after) :
      Takes (n + 1) search [] after
  | found {n turns : Nat} {search middle after : Search} {rows : List Nat} {covers : List (List Nat)}
      (first : Returns turns search (some rows) middle) (rest : Takes n middle covers after) :
      Takes (n + 1) search (rows :: covers) after

/-- The covers that calls find until one finds none. -/
inductive Collects : Search → List (List Nat) → Search → Prop where
  | ended {turns : Nat} {search after : Search} (last : Returns turns search none after) :
      Collects search [] after
  | found {turns : Nat} {search middle after : Search} {rows : List Nat} {covers : List (List Nat)}
      (first : Returns turns search (some rows) middle) (rest : Collects middle covers after) :
      Collects search (rows :: covers) after

/-- Fewer covers than were asked for are all that there are. -/
theorem Takes.collects {n : Nat} {covers : List (List Nat)} (h : Takes n search covers after)
    (few : covers.length < n) : Collects search covers after := by
  induction h with
  | enough search => exact absurd few (Nat.not_lt_zero _)
  | ended last => exact .ended last
  | found first rest ih => exact .found first (ih (Nat.lt_of_succ_lt_succ few))

end Search

namespace SearchStack.Finds

open Search

variable {matrix : IncidenceMatrix} {base : List Nat} {start : Graph} {search after : Search}
  {rest covers : List (List Nat)} {items : List (Option (List Nat))} {n : Nat}

theorem call (h : Finds matrix base start search rest) (named : start.CluesNamed) :
    ∃ turns after, search.next = .ok (rest.head?, after) ∧ turns ≤ Search.stepLimit start ∧
      Returns turns search rest.head? after ∧ Finds matrix base start after rest.tail := by
  obtain ⟨after, run, finds⟩ := h.next
  obtain ⟨turns, few, returns⟩ := h.returns named run
  exact ⟨turns, after, run, few, returns, finds⟩

theorem calls (h : Finds matrix base start search rest) (named : start.CluesNamed)
    (run : search.pull n = .ok (items, after)) : Calls search items after := by
  induction n generalizing search rest items with
  | zero =>
      obtain ⟨rfl, rfl⟩ := Prod.mk.inj (Except.ok.inj run)
      exact .nil search
  | succ n ih =>
      obtain ⟨item, middle, more, rfl, one, further⟩ := Search.pull_succ_iff.mp run
      obtain ⟨turns, next, call, _, returns, finds⟩ := h.call named
      obtain ⟨rfl, rfl⟩ := Prod.mk.inj (Except.ok.inj (call.symm.trans one))
      exact .cons returns (ih finds further)

theorem takes (h : Finds matrix base start search rest) (named : start.CluesNamed)
    (run : search.take n = .ok (covers, after)) : Takes n search covers after := by
  induction n generalizing search rest covers with
  | zero =>
      obtain ⟨rfl, rfl⟩ := Prod.mk.inj (Except.ok.inj run)
      exact .enough search
  | succ n ih =>
      obtain ⟨turns, middle, call, _, returns, finds⟩ := h.call named
      obtain ⟨answer, one, run⟩ := exists_of_bind_eq_ok run
      obtain rfl := Except.ok.inj (call.symm.trans one)
      cases rest with
      | nil =>
          obtain ⟨rfl, rfl⟩ := Prod.mk.inj (Except.ok.inj run)
          exact .ended returns
      | cons rows rest =>
          obtain ⟨⟨more, last⟩, further, run⟩ := exists_of_bind_eq_ok run
          obtain ⟨rfl, rfl⟩ := Prod.mk.inj (Except.ok.inj run)
          exact .found returns (ih finds further)

end SearchStack.Finds

namespace Graph

/-- The graph of a matrix, with its forced rows committed link by link. -/
theorem ofMatrix_linked (matrix : IncidenceMatrix) (forced : List Nat) : ∃ linked start base,
    link matrix forced = .ok linked ∧ ofMatrix matrix forced = .ok start ∧
      CommitsClues linked.clueNodes [] linked start ∧ start.Represents matrix base ∧
      start.CluesNamed := by
  obtain ⟨linked, built, represents, clues, clear, _⟩ := link_represents matrix forced
  have proper : ∀ row ∈ matrix.forcedRows forced, matrix.rowAt row ≠ [] :=
    fun row member => (mem_forcedRows.mp member).2
  obtain ⟨after, added, _, _, represents, labels, run, commits⟩ := commitClues_eq represents clear
    (by simp : ∀ column, header column ∈ ([] : List Node) ↔ column ∈ ([] : List Nat)) proper
  have settled := represents.withClash (matrix.commitRows (matrix.forcedRows forced) []).2
  refine ⟨linked, _, _, built, ?_, clues ▸ commits, settled, ?_⟩
  · simp only [ofMatrix, built, clues, bind, Except.bind]
    exact run
  · intro clue member
    have kept : after.clueNodes = (matrix.forcedRows forced).map matrix.firstNode :=
      (congrArg (·.2.2.2.1) labels).trans clues
    obtain ⟨row, listed, rfl⟩ := List.mem_map.mp (kept ▸ member)
    exact ⟨_, settled.rowOf_firstNode (proper row listed)⟩

end Graph

namespace Solver

open Search

/-- What calls of a search that is opened on a solver lead to. A search may be closed at any time,
    and another one opened on the solver. -/
inductive Reaches (solver : Solver) : Search → Prop where
  | opened : Reaches solver solver.search
  | called {search after : Search} {item : Option (List Nat)} (before : Reaches solver search)
      (call : search.next = .ok (item, after)) : Reaches solver after
  | reopened {search : Search} {other : Solver} (before : Reaches solver search)
      (closed : close search = .ok other) : Reaches solver other.search

variable {matrix : IncidenceMatrix} {base : List Nat} {start : Graph} {solver : Solver}
  {search : Search}

theorem Reaches.finds (h : solver.Reaches search) (rests : solver.Rests start)
    (represents : start.Represents matrix base) : ∃ rest,
      Finds matrix base start search rest ∧ rest.length ≤ (emitted matrix base start).length := by
  induction h with
  | opened => exact ⟨_, rests.finds represents, Nat.le_refl _⟩
  | called before call ih =>
      obtain ⟨rest, finds, few⟩ := ih
      obtain ⟨after, run, further⟩ := finds.next
      obtain ⟨_, rfl⟩ := Prod.mk.inj (Except.ok.inj (run.symm.trans call))
      refine ⟨rest.tail, further, ?_⟩
      rw [List.length_tail]
      omega
  | @reopened search other before closed ih =>
      obtain ⟨rest, finds, _⟩ := ih
      obtain rfl := Except.ok.inj (finds.close.symm.trans closed)
      have rests : Rests ⟨start.withUpdates search.graph.updates, search.tally⟩ start := rfl
      exact ⟨_, rests.finds represents, Nat.le_refl _⟩

/-- Every call of a search comes back and has one course only, in which every loop around a ring
    comes to its end, and so does closing the search. Only so many calls find an exact cover, and
    after one that finds none the search stays as it is. -/
theorem calls_come_back (matrix : IncidenceMatrix) (forced : List Nat) :
    ∃ solver, ofMatrix matrix forced = .ok solver ∧ ∃ bound, ∀ search, solver.Reaches search →
      (∃ turns item after, search.next = .ok (item, after) ∧ turns ≤ bound ∧
        Returns turns search item after ∧
        ∀ turns' item' after', Returns turns' search item' after' →
          turns' = turns ∧ item' = item ∧ after' = after) ∧
      (∃ graph, Unwinds search.frames search.graph graph ∧
        close search = .ok ⟨graph, search.tally⟩) ∧
      (∀ n, ∃ items after, search.pull n = .ok (items, after) ∧ items.countP (·.isSome) ≤ bound) ∧
      ∀ after, search.next = .ok (none, after) → ∀ n,
        after.pull n = .ok (List.replicate n none, after) := by
  obtain ⟨linked, start, base, _, built, _, represents, named⟩ := Graph.ofMatrix_linked matrix forced
  have rests : (ofGraph start).Rests start := rfl
  refine ⟨ofGraph start, ofMatrix_eq_ok built, Search.stepLimit start, fun search reached => ?_⟩
  obtain ⟨rest, finds, few⟩ := reached.finds rests represents
  obtain ⟨turns, after, run, bounded, returns, _⟩ := finds.call named
  refine ⟨⟨turns, _, after, run, bounded, returns, ?_⟩, ⟨_, finds.unwinds, finds.close⟩, fun n => ?_, ?_⟩
  · intro turns' item' after' other
    exact other.unique returns
  · obtain ⟨last, items, _⟩ := finds.pull n
    refine ⟨_, last, items, ?_⟩
    calc ((List.range n).map (rest[·]?)).countP (·.isSome) = min n rest.length :=
          countP_isSome_answers rest n
      _ ≤ rest.length := Nat.min_le_right n rest.length
      _ ≤ (emitted matrix base start).length := few
      _ ≤ Search.stepLimit start := (length_emitted_lt represents).le
  · intro last none n
    obtain ⟨nothing, rfl⟩ := Prod.mk.inj (Except.ok.inj (run.symm.trans none))
    exact pull_done (nothing ▸ returns).ended n

/-- What a solver goes through to answer a request. A search of its own is closed afterwards, and
    one of a copy is dropped with the copy. -/
inductive Serves (solver : Solver) : Request → Answer × Solver → Prop where
  | pull {n : Nat} {search : Search} {items : List (Option (List Nat))} {graph : Graph}
      (calls : Calls solver.search items search) (many : items.length = n)
      (unwinds : Unwinds search.frames search.graph graph) :
      Serves solver (.pull n) (.calls items, ⟨graph, search.tally⟩)
  | first {n : Nat} {search : Search} {covers : List (List Nat)} {graph : Graph}
      (takes : Takes n solver.search covers search)
      (unwinds : Unwinds search.frames search.graph graph) :
      Serves solver (.first n) (.covers covers, ⟨graph, search.tally⟩)
  | all {search : Search} {covers : List (List Nat)} {graph : Graph}
      (collects : Collects solver.search covers search)
      (unwinds : Unwinds search.frames search.graph graph) :
      Serves solver .all (.covers covers, ⟨graph, search.tally⟩)
  | copy {n : Nat} {search : Search} {items : List (Option (List Nat))}
      (calls : Calls solver.search items search) (many : items.length = n) :
      Serves solver (.copy n) (.calls items, solver)

/-- Requests that are served one after the other. -/
inductive ServesAll : Solver → List Request → List (Answer × Solver) → Prop where
  | nil (solver : Solver) : ServesAll solver [] []
  | cons {solver after : Solver} {request : Request} {answer : Answer} {requests : List Request}
      {outcomes : List (Answer × Solver)} (first : Serves solver request (answer, after))
      (rest : ServesAll after requests outcomes) :
      ServesAll solver (request :: requests) ((answer, after) :: outcomes)

theorem serves (rests : solver.Rests start) (represents : start.Represents matrix base)
    (named : start.CluesNamed) (request : Request) : ∃ answer after,
      solver.answer request = .ok (answer, after) ∧ Serves solver request (answer, after) ∧
        after.Rests start := by
  have finds := rests.finds represents
  cases request with
  | pull n =>
      obtain ⟨search, run, ends⟩ := finds.pull n
      refine ⟨_, _, ?_, .pull (finds.calls named run) (by simp) ends.unwinds, rfl⟩
      simp only [answer, pull, run, ends.close, bind, Except.bind, pure, Except.pure]
  | first n =>
      obtain ⟨search, run, ends⟩ := finds.take n
      refine ⟨_, _, ?_, .first (finds.takes named run) ends.unwinds, rfl⟩
      simp only [answer, first, run, ends.close, bind, Except.bind, pure, Except.pure]
  | all =>
      obtain ⟨search, run, ends⟩ := finds.take (Search.stepLimit solver.graph)
      have few := rests.length_emitted_lt represents
      rw [List.take_of_length_le few.le] at run
      refine ⟨_, _, ?_, .all ((finds.takes named run).collects few) ends.unwinds, rfl⟩
      simp only [answer, all, first, run, ends.close, bind, Except.bind, pure, Except.pure]
  | copy n =>
      obtain ⟨search, run, ends⟩ := finds.pull n
      refine ⟨_, solver, ?_, .copy (finds.calls named run) (by simp), rests⟩
      simp only [answer, run, bind, Except.bind, pure, Except.pure]

theorem servesAll (rests : solver.Rests start) (represents : start.Represents matrix base)
    (named : start.CluesNamed) (requests : List Request) : ∃ outcomes,
      solver.answers requests = .ok outcomes ∧ ServesAll solver requests outcomes := by
  induction requests generalizing solver with
  | nil => exact ⟨[], rfl, .nil solver⟩
  | cons request requests ih =>
      obtain ⟨answer, after, run, serves, still⟩ := serves rests represents named request
      obtain ⟨outcomes, more, rest⟩ := ih still
      refine ⟨(answer, after) :: outcomes, ?_, .cons serves rest⟩
      simp only [answers, run, more, bind, Except.bind, pure, Except.pure]

/-- The graph of a matrix is built, the columns of its forced rows are covered and requests are
    served, in whatever order they are made, without a step that goes wrong. -/
theorem served_link_by_link (matrix : IncidenceMatrix) (forced : List Nat) : ∃ linked solver,
    Graph.link matrix forced = .ok linked ∧ Graph.Links matrix forced linked ∧
      ofMatrix matrix forced = .ok solver ∧
      Graph.CommitsClues linked.clueNodes [] linked solver.graph ∧ ∀ requests, ∃ outcomes,
        solver.answers requests = .ok outcomes ∧ ServesAll solver requests outcomes := by
  obtain ⟨linked, start, base, run, built, commits, represents, named⟩ :=
    Graph.ofMatrix_linked matrix forced
  have rests : (ofGraph start).Rests start := rfl
  exact ⟨linked, ofGraph start, run, Graph.links_of_link run, ofMatrix_eq_ok built, commits,
    servesAll rests represents named⟩

end Solver

end ExactCover
