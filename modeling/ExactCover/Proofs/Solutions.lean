import ExactCover.Proofs.Enumeration

/-! # The exact covers that a solver finds

A solver for a matrix finds every exact cover that has the forced rows, each once, in the order of
the search without links. Whatever has been asked of it before, its graph is the one it was built
with, so that every enumeration starts over with the same covers.
-/

namespace ExactCover

open IncidenceMatrix AlgorithmX SearchStack

variable {matrix : IncidenceMatrix} {base forced : List Nat} {start : Graph}

namespace Graph

/-- The graph of compatible forced rows is consistent and has their columns covered. -/
theorem ofMatrix_compatible (compatible : matrix.Compatible (matrix.forcedRows forced)) :
    ∃ start, ofMatrix matrix forced = .ok start ∧ start.isConsistent = true ∧
      start.clueRows = matrix.forcedRows forced ∧
      start.Represents matrix ((matrix.forcedRows forced).flatMap matrix.rowAt) := by
  obtain ⟨start, built, represents, clues, clash⟩ := ofMatrix_represents matrix forced
  have clear := commitRows_nil_iff.mpr compatible
  rw [commitRows_fst clear, List.nil_append] at represents
  exact ⟨start, built, isConsistent_iff.mpr (clash.trans clear), clues, represents⟩

/-- Each of the headers is live when its turn comes to be covered. -/
def LiveInTurn (graph : Graph) : List Node → Prop
  | [] => True
  | header :: rest =>
      (∃ live, graph.liveHeaders = .ok live ∧ header ∈ live) ∧
        ∀ next, graph.cover header = .ok next → next.LiveInTurn rest

theorem Represents.coverAll_inTurn {graph : Graph} {covered further : List Nat}
    (h : graph.Represents matrix covered) (turns : graph.LiveInTurn (further.map header)) :
    ∃ after, graph.coverAll (further.map header) = .ok after ∧ after.labels = graph.labels ∧
      after.Represents matrix (covered ++ further) := by
  induction further generalizing graph covered with
  | nil => exact ⟨graph, rfl, rfl, (List.append_nil covered).symm ▸ h⟩
  | cons column further ih =>
      obtain ⟨⟨live, ring, member⟩, later⟩ := turns
      have headers : graph.liveHeaders = .ok ((matrix.liveColumns covered).map header) :=
        h.shows.root_ring.ring_eq
      rw [← Except.ok.inj (headers.symm.trans ring)] at member
      have alive := (List.mem_map_of_injective Nat.succ_injective).mp member
      obtain ⟨middle, turned, represents⟩ := h.cover_reversible alive
      obtain ⟨after, run, labels, ends⟩ :=
        ih (represents.withUpdates (graph.updates + _)) (later _ turned.run)
      refine ⟨after, ?_, labels.trans turned.labels, ?_⟩
      · rw [List.map_cons, coverAll, List.foldlM_cons, turned.run]
        exact run
      · rwa [List.append_assoc, List.singleton_append] at ends

end Graph

namespace Solver

/-- A solver on a graph that has been searched before. -/
def Rests (solver : Solver) (start : Graph) : Prop :=
  solver.graph = start.withUpdates solver.graph.updates

variable {solver : Solver} {covers : List (List Nat)}

theorem Rests.finds (rests : solver.Rests start) (represents : start.Represents matrix base) :
    Finds matrix base start solver.search (emitted matrix base start) := by
  have same : solver.search =
      state matrix [] (start.withUpdates solver.graph.updates) solver.tally .fresh := by
    rw [← rests]
    rfl
  rw [same]
  exact .fresh represents _ _

/-- A search of the solver finds fewer covers than it may make steps. -/
theorem Rests.length_emitted_lt (rests : solver.Rests start)
    (represents : start.Represents matrix base) :
    (emitted matrix base start).length < Search.stepLimit solver.graph := by
  rw [rests]
  exact SearchStack.length_emitted_lt represents

theorem pull_eq (rests : solver.Rests start) (represents : start.Represents matrix base)
    (n : Nat) : ∃ after, after.Rests start ∧
      solver.pull n = .ok ((List.range n).map ((emitted matrix base start)[·]?), after) := by
  obtain ⟨search, run, finds⟩ := (rests.finds represents).pull n
  refine ⟨⟨start.withUpdates search.graph.updates, search.tally⟩, rfl, ?_⟩
  simp only [pull, run, finds.close, bind, Except.bind, pure, Except.pure]

theorem first_eq (rests : solver.Rests start) (represents : start.Represents matrix base)
    (n : Nat) : ∃ after, after.Rests start ∧
      solver.first n = .ok ((emitted matrix base start).take n, after) := by
  obtain ⟨search, run, finds⟩ := (rests.finds represents).take n
  refine ⟨⟨start.withUpdates search.graph.updates, search.tally⟩, rfl, ?_⟩
  simp only [first, run, finds.close, bind, Except.bind, pure, Except.pure]

theorem all_eq (rests : solver.Rests start) (represents : start.Represents matrix base) :
    ∃ after, after.Rests start ∧ solver.all = .ok (emitted matrix base start, after) := by
  obtain ⟨after, rests', run⟩ := first_eq rests represents (Search.stepLimit solver.graph)
  rw [List.take_of_length_le (rests.length_emitted_lt represents).le] at run
  exact ⟨after, rests', run⟩

/-- A solver for a matrix finds the covers that have the forced rows. -/
theorem ofMatrix_emits (matrix : IncidenceMatrix) (forced : List Nat) :
    ∃ solver base, ofMatrix matrix forced = .ok solver ∧ solver.Rests solver.graph ∧
      solver.graph.Represents matrix base ∧
      emitted matrix base solver.graph = matrix.coversWith forced := by
  obtain ⟨start, built, represents, clues, clash⟩ := Graph.ofMatrix_represents matrix forced
  refine ⟨ofGraph start, _, ofMatrix_eq_ok built, rfl, represents, ?_⟩
  have consistent : start.isConsistent = true ↔ matrix.Compatible (matrix.forcedRows forced) := by
    rw [Graph.isConsistent_iff, clash, commitRows_nil_iff]
  change emitted matrix _ start = _
  unfold emitted coversWith
  by_cases compatible : matrix.Compatible (matrix.forcedRows forced)
  · have clear := commitRows_nil_iff.mpr compatible
    rw [if_pos (consistent.mpr compatible), if_pos compatible, clues, commitRows_fst clear,
      List.nil_append]
  · rw [if_neg (mt consistent.mp compatible), if_neg compatible]

/-- A search that is opened on a new solver finds the covers that have the forced rows. -/
theorem ofMatrix_finds (matrix : IncidenceMatrix) (forced : List Nat) :
    ∃ solver base, ofMatrix matrix forced = .ok solver ∧
      Finds matrix base solver.graph solver.search (matrix.coversWith forced) := by
  obtain ⟨solver, base, built, rests, represents, same⟩ := ofMatrix_emits matrix forced
  exact ⟨solver, base, built, same ▸ rests.finds represents⟩

/-- A solver finds all exact covers that have the forced rows, each of them once. -/
theorem all_exact_covers (matrix : IncidenceMatrix) (forced : List Nat) :
    ∃ solver covers after, ofMatrix matrix forced = .ok solver ∧
      solver.all = .ok (covers, after) ∧
      (∀ rows ∈ covers, matrix.IsExactCover rows ∧ matrix.forcedRows forced ⊆ rows) ∧
      (∀ chosen, matrix.IsExactCover chosen → matrix.forcedRows forced ⊆ chosen →
        ∃! i : Fin covers.length, ∀ row, row ∈ covers[i] ↔ row ∈ chosen) ∧
      (¬ matrix.Compatible (matrix.forcedRows forced) → covers = []) ∧
      (matrix.columns = 0 → covers = [[]]) := by
  obtain ⟨solver, base, built, rests, represents, same⟩ := ofMatrix_emits matrix forced
  obtain ⟨after, _, run⟩ := all_eq rests represents
  rw [same] at run
  refine ⟨solver, _, after, built, run, fun rows => isExactCover_of_mem, ?_, ?_, ?_⟩
  · exact fun chosen => existsUnique_coversWith
  · exact fun clash => if_neg clash
  · exact fun none => coversWith_of_columns_eq_zero none

/-- The calls of a search of a consistent graph, on which further live columns may have been
    covered, answer with the covers of the search without links in their order. -/
theorem pull_eq_recursion (matrix : IncidenceMatrix) (forced : List Nat)
    (compatible : matrix.Compatible (matrix.forcedRows forced)) :
    ∃ start, Graph.ofMatrix matrix forced = .ok start ∧ start.isConsistent = true ∧
      ∀ further, start.LiveInTurn (further.map Graph.header) →
        let covered := (matrix.forcedRows forced).flatMap matrix.rowAt ++ further
        let found := (tree matrix (matrix.liveColumns covered)).covers.map
          (matrix.forcedRows forced ++ ·)
        ∃ graph, start.coverAll (further.map Graph.header) = .ok graph ∧ ∀ n, ∃ search solver,
          (ofGraph graph).search.pull n = .ok ((List.range n).map (found[·]?), search) ∧
          (ofGraph graph).pull n = .ok ((List.range n).map (found[·]?), solver) := by
  obtain ⟨start, built, consistent, clues, represents⟩ := Graph.ofMatrix_compatible compatible
  refine ⟨start, built, consistent, fun further turns => ?_⟩
  obtain ⟨graph, run, labels, represents⟩ := represents.coverAll_inTurn turns
  have still : graph.isConsistent = true := (Graph.isConsistent_congr labels).trans consistent
  have same : graph.clueRows = matrix.forcedRows forced := (Graph.clueRows_congr labels).trans clues
  have finds : (ofGraph graph).Rests graph := rfl
  refine ⟨graph, run, fun n => ?_⟩
  obtain ⟨solver, _, items⟩ := pull_eq finds represents n
  obtain ⟨search, calls, _⟩ := (finds.finds represents).pull n
  rw [emitted, if_pos still, same] at items calls
  exact ⟨search, solver, calls, items⟩

/-- One row sets the columns 0 and 1, and 2 and 3 are set by one row each and by one together. -/
def pairs : IncidenceMatrix := ⟨4, #[[0, 1], [2], [3], [2, 3]], by decide, by decide⟩

/-- With row 0 forced and column 2 covered, rows 0 and 2 are what is found. -/
theorem pull_pairs : ∃ start graph, Graph.ofMatrix pairs [0] = .ok start ∧
    start.coverAll [Graph.header 2] = .ok graph ∧ ∀ n, ∃ search,
      (ofGraph graph).search.pull n = .ok ((List.range n).map ([[0, 2]][·]?), search) := by
  obtain ⟨start, built, _, follows⟩ := pull_eq_recursion pairs [0] (by decide)
  have headers : (Graph.ofMatrix pairs [0]).bind Graph.liveHeaders = .ok [3, 4] := by
    decide +kernel
  rw [built] at headers
  have turns : start.LiveInTurn ([2].map Graph.header) :=
    ⟨⟨_, headers, by decide⟩, fun _ _ => trivial⟩
  obtain ⟨graph, covered, items⟩ := follows [2] turns
  have opened : (tree pairs [3]).covers = [[2]] := by
    have picked : pick pairs [3] [3] = some 3 := by decide
    have rows : openRows pairs [3] 3 = [2] := by decide
    have leaf : (tree pairs (without pairs [3] 2)).covers = [[]] := covers_tree_none (by decide)
    rw [covers_tree_some picked, rows, List.flatMap_singleton, leaf]
    rfl
  refine ⟨start, graph, built, covered, fun n => ?_⟩
  obtain ⟨search, _, calls, _⟩ := items n
  have live : pairs.liveColumns ((pairs.forcedRows [0]).flatMap pairs.rowAt ++ [2]) = [3] := by
    decide
  have clues : pairs.forcedRows [0] = [0] := by decide
  rw [live, opened, clues] at calls
  exact ⟨search, calls⟩

/-- What can be asked of a solver. -/
inductive Request where
  /-- To open a search, call it so many times and close it. -/
  | pull (n : Nat)
  /-- The first so many covers. -/
  | first (n : Nat)
  /-- All covers. -/
  | all
  /-- To copy the solver and call a search of the copy so many times. -/
  | copy (n : Nat)

/-- What a solver answers. -/
inductive Answer where
  | calls (items : List (Option (List Nat)))
  | covers (covers : List (List Nat))

/-- The answer to a request, with the solver afterwards. -/
def answer (solver : Solver) : Request → Except Fault (Answer × Solver)
  | .pull n => do
      let (items, after) ← solver.pull n
      return (.calls items, after)
  | .first n => do
      let (covers, after) ← solver.first n
      return (.covers covers, after)
  | .all => do
      let (covers, after) ← solver.all
      return (.covers covers, after)
  | .copy n => do
      let (items, _) ← solver.search.pull n
      return (.calls items, solver)

/-- The answers to requests that are made one after the other, each with the solver then. -/
def answers (solver : Solver) : List Request → Except Fault (List (Answer × Solver))
  | [] => .ok []
  | request :: rest => do
      let (answer, after) ← solver.answer request
      return (answer, after) :: (← after.answers rest)

/-- The answer that is due when the covers are these. -/
def Request.due (covers : List (List Nat)) : Request → Answer
  | .pull n => .calls ((List.range n).map (covers[·]?))
  | .first n => .covers (covers.take n)
  | .all => .covers covers
  | .copy n => .calls ((List.range n).map (covers[·]?))

theorem answer_eq (rests : solver.Rests start) (represents : start.Represents matrix base)
    (request : Request) : ∃ after, after.Rests start ∧
      solver.answer request = .ok (request.due (emitted matrix base start), after) := by
  cases request with
  | pull n =>
      obtain ⟨after, still, run⟩ := pull_eq rests represents n
      exact ⟨after, still, by simp only [answer, run, bind, Except.bind]; rfl⟩
  | first n =>
      obtain ⟨after, still, run⟩ := first_eq rests represents n
      exact ⟨after, still, by simp only [answer, run, bind, Except.bind]; rfl⟩
  | all =>
      obtain ⟨after, still, run⟩ := all_eq rests represents
      exact ⟨after, still, by simp only [answer, run, bind, Except.bind]; rfl⟩
  | copy n =>
      obtain ⟨search, run, _⟩ := (rests.finds represents).pull n
      exact ⟨solver, rests, by simp only [answer, run, bind, Except.bind]; rfl⟩

theorem answers_eq (rests : solver.Rests start) (represents : start.Represents matrix base)
    (requests : List Request) : ∃ outcomes, solver.answers requests = .ok outcomes ∧
      List.Forall₂ (fun request outcome => outcome.1 = request.due (emitted matrix base start) ∧
        outcome.2.Rests start) requests outcomes := by
  induction requests generalizing solver with
  | nil => exact ⟨[], rfl, .nil⟩
  | cons request requests ih =>
      obtain ⟨after, still, run⟩ := answer_eq rests represents request
      obtain ⟨outcomes, more, each⟩ := ih still
      refine ⟨(request.due (emitted matrix base start), after) :: outcomes, ?_,
        .cons ⟨rfl, still⟩ each⟩
      simp only [answers, run, more, bind, Except.bind, pure, Except.pure]

/-- Whatever is asked of a solver and in whatever order, each request is answered from the same
    covers, and afterwards the graph differs from the first one in the updates at most. -/
theorem answers_from_same_covers (matrix : IncidenceMatrix) (forced : List Nat) :
    ∃ solver, ofMatrix matrix forced = .ok solver ∧ ∀ requests, ∃ outcomes,
      solver.answers requests = .ok outcomes ∧
      List.Forall₂ (fun request outcome => outcome.1 = request.due (matrix.coversWith forced) ∧
        outcome.2.graph = solver.graph.withUpdates outcome.2.graph.updates) requests outcomes := by
  obtain ⟨solver, base, built, rests, represents, same⟩ := ofMatrix_emits matrix forced
  refine ⟨solver, built, fun requests => ?_⟩
  rw [← same]
  exact answers_eq rests represents requests

end Solver

end ExactCover
