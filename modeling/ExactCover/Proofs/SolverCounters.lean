import ExactCover.Proofs.Counters
import ExactCover.Proofs.CoverHistory
import ExactCover.Proofs.Solutions

/-! # What a solver counts

The statistics of a solver are those of the places of the search tree that its searches have come
to. A call comes to the places up to the next cover and no further. Enumerations that run to their
end come to all places, so that each of them counts the same.
-/

namespace ExactCover

open IncidenceMatrix AlgorithmX SearchStack SearchTree

variable {matrix : IncidenceMatrix} {base forced : List Nat} {start : Graph}

/-- Calls answer with a cover as long as there is one. -/
theorem countP_isSome_answers {α : Type} (found : List α) (calls : Nat) :
    ((List.range calls).map (found[·]?)).countP Option.isSome = min calls found.length := by
  induction found generalizing calls with
  | nil => simp [List.countP_eq_zero]
  | cons first rest ih =>
      cases calls with
      | zero => rw [Nat.zero_min]; rfl
      | succ calls =>
          rw [List.range_succ_eq_map, List.map_cons, List.countP_cons_of_pos rfl, List.map_map,
            List.length_cons, Nat.succ_min_succ, ← ih]
          rfl

/-- As many calls as there are covers asked for end in the same search, and one more than there
    are covers when too many are asked for. -/
theorem SearchStack.Finds.take_eq_pull {search : Search} {rest : List (List Nat)}
    (h : Finds matrix base start search rest) (n : Nat) : ∃ items after left,
      search.pull (min n (rest.length + 1)) = .ok (items, after) ∧
        search.take n = .ok (items.reduceOption, after) ∧ Finds matrix base start after left := by
  induction n generalizing search rest with
  | zero => exact ⟨[], search, rest, by rw [Nat.zero_min]; rfl, rfl, h⟩
  | succ n ih =>
      obtain ⟨after, run, finds⟩ := h.next
      cases rest with
      | nil =>
          refine ⟨[none], after, _, ?_, ?_, finds⟩
          · rw [List.length_nil, Nat.zero_add, Nat.min_eq_right (Nat.succ_pos n)]
            exact Search.pull_succ_iff.mpr ⟨none, after, [], rfl, run, rfl⟩
          · simp only [Search.take, run, List.head?_nil, bind, Except.bind, pure, Except.pure]
            rfl
      | cons rows rest =>
          obtain ⟨items, last, left, calls, covers, ends⟩ := ih finds
          refine ⟨some rows :: items, last, left, ?_, ?_, ends⟩
          · rw [List.length_cons, Nat.succ_min_succ]
            exact Search.pull_succ_iff.mpr ⟨some rows, after, items, rfl, run, calls⟩
          · simp only [Search.take, run, covers, List.head?_cons, bind, Except.bind, pure,
              Except.pure, List.reduceOption_cons_of_some]

/-- The updates of a new graph are those of the covers for forced rows. -/
theorem Graph.ofMatrix_updates {start : Graph}
    (compatible : matrix.Compatible (matrix.forcedRows forced))
    (built : Graph.ofMatrix matrix forced = .ok start) :
    start.updates = matrix.coverCosts [] ((matrix.forcedRows forced).flatMap matrix.rowAt) := by
  have clear := commitRows_nil_iff.mpr compatible
  obtain ⟨_, graph, same, _⟩ := Graph.ofMatrix_nested matrix forced
  rw [built, commitRows_fst clear, List.nil_append] at same
  rw [Except.ok.inj same]
  rfl

namespace Solver

variable {solver : Solver}

/-- What a search counts stays when it is closed. -/
theorem pull_stats (rests : solver.Rests start) (represents : start.Represents matrix base)
    (consistent : start.isConsistent) (calls : Nat) :
    let visits := (tree matrix (matrix.liveColumns base)).visits 0
    let costs := (tree matrix (matrix.liveColumns base)).costs matrix base 0
    let items := (List.range calls).map ((emitted matrix base start)[·]?)
    ∃ search after, solver.search.pull calls = .ok (items, search) ∧
      solver.pull calls = .ok (items, after) ∧ after.stats = search.stats ∧
      search.stats = solver.stats.add
        (.fromRoot (visits.take (reach calls visits)) (costs.take (reach calls visits))) := by
  intro visits costs items
  obtain ⟨search, run, finds⟩ := (rests.finds represents).pull calls
  have fresh : solver.search =
      state matrix [] (start.withUpdates solver.graph.updates) solver.tally .fresh := by
    rw [← rests]
    rfl
  refine ⟨search, ⟨start.withUpdates search.graph.updates, search.tally⟩, run, ?_, rfl, ?_⟩
  · simp only [pull, run, finds.close, bind, Except.bind, pure, Except.pure]
    rfl
  · rw [fresh] at run
    exact Comes.pull_fresh represents consistent calls run

/-- The first covers leave the solver as the calls do that find them. -/
theorem first_eq_pull (rests : solver.Rests start) (represents : start.Represents matrix base)
    (n : Nat) : ∃ items after,
      solver.pull (min n ((emitted matrix base start).length + 1)) = .ok (items, after) ∧
        solver.first n = .ok (items.reduceOption, after) := by
  obtain ⟨items, search, _, calls, covers, finds⟩ := (rests.finds represents).take_eq_pull n
  refine ⟨items, ⟨start.withUpdates search.graph.updates, search.tally⟩, ?_, ?_⟩
  · simp only [pull, calls, finds.close, bind, Except.bind, pure, Except.pure]
  · simp only [first, covers, finds.close, bind, Except.bind, pure, Except.pure]

/-- An enumeration to the end counts every place of the tree. -/
theorem pull_all_stats (rests : solver.Rests start) (represents : start.Represents matrix base)
    (consistent : start.isConsistent) {calls : Nat}
    (all : (emitted matrix base start).length < calls) : ∃ items after,
      solver.pull calls = .ok (items, after) ∧ after.stats = solver.stats.add
        (.fromRoot ((tree matrix (matrix.liveColumns base)).visits 0)
          ((tree matrix (matrix.liveColumns base)).costs matrix base 0)) := by
  obtain ⟨search, after, _, run, same, stats⟩ := pull_stats rests represents consistent calls
  refine ⟨_, after, run, same.trans (stats.trans ?_)⟩
  rw [emitted, if_pos consistent, List.length_map, ← countP_visits 0] at all
  rw [reach_of_lt all, List.take_length, List.take_of_length_le (length_costs ..).le]

theorem all_stats (rests : solver.Rests start) (represents : start.Represents matrix base)
    (consistent : start.isConsistent) : ∃ covers after,
      solver.all = .ok (covers, after) ∧ after.stats = solver.stats.add
        (.fromRoot ((tree matrix (matrix.liveColumns base)).visits 0)
          ((tree matrix (matrix.liveColumns base)).costs matrix base 0)) := by
  have few := rests.length_emitted_lt represents
  obtain ⟨items, after, run, found⟩ :=
    first_eq_pull rests represents (Search.stepLimit solver.graph)
  rw [Nat.min_eq_right (Nat.succ_le_of_lt few)] at run
  obtain ⟨_, _, again, stats⟩ := pull_all_stats rests represents consistent (Nat.lt_succ_self _)
  cases run.symm.trans again
  exact ⟨_, after, found, stats⟩

/-- The statistics of a solver are those of the search tree up to where its calls have come. The
    first covers are found by as many calls, and each enumeration that runs to its end counts the
    whole tree, whatever has been asked before. -/
theorem counts_tree (matrix : IncidenceMatrix) (forced : List Nat)
    (compatible : matrix.Compatible (matrix.forcedRows forced)) :
    let covered := (matrix.forcedRows forced).flatMap matrix.rowAt
    let tree := tree matrix (matrix.liveColumns covered)
    let visits := tree.visits 0
    let costs := tree.costs matrix covered 0
    let total := tree.covers.length
    ∃ solver, ofMatrix matrix forced = .ok solver ∧
      solver.stats = ⟨.zero, matrix.coverCosts [] covered⟩ ∧
      (∀ calls, ∃ items search after,
        solver.search.pull calls = .ok (items, search) ∧ solver.pull calls = .ok (items, after) ∧
        search.stats = solver.stats.add
          (.fromRoot (visits.take (reach calls visits)) (costs.take (reach calls visits))) ∧
        search.stats.solutions = items.countP Option.isSome ∧ after.stats = search.stats) ∧
      (∀ n, ∃ items after, solver.pull (min n (total + 1)) = .ok (items, after) ∧
        solver.first n = .ok (items.reduceOption, after)) ∧
      solver.first 0 = .ok ([], solver) ∧
      ∀ requests, ∃ outcomes, solver.answers requests = .ok outcomes ∧
        ∀ used ∈ solver :: outcomes.map Prod.snd,
          (∃ covers after, used.all = .ok (covers, after) ∧
            after.stats = used.stats.add (.fromRoot visits costs)) ∧
          ∀ calls, total < calls → ∃ items after, used.pull calls = .ok (items, after) ∧
            after.stats = used.stats.add (.fromRoot visits costs) := by
  intro covered tree visits costs total
  obtain ⟨start, built, consistent, _, represents⟩ := Graph.ofMatrix_compatible compatible
  have updates := Graph.ofMatrix_updates compatible built
  have rests : (ofGraph start).Rests start := rfl
  have many : (emitted matrix covered start).length = total := by
    rw [emitted, if_pos consistent, List.length_map]
  refine ⟨ofGraph start, ofMatrix_eq_ok built, ?_, fun calls => ?_, fun n => ?_, rfl,
    fun requests => ?_⟩
  · exact congrArg (Statistics.mk .zero) updates
  · obtain ⟨search, after, run, closed, same, stats⟩ :=
      pull_stats rests represents consistent calls
    refine ⟨_, search, after, run, closed, stats, ?_, same⟩
    rw [stats, countP_isSome_answers, many]
    calc 0 + (visits.take (reach calls visits)).countP Visit.isSolved
        = min calls (visits.countP Visit.isSolved) := by rw [Nat.zero_add, countP_take_reach]
      _ = min calls total := by rw [countP_visits]
  · rw [← many]
    exact first_eq_pull rests represents n
  · obtain ⟨outcomes, run, each⟩ := answers_eq rests represents requests
    refine ⟨outcomes, run, fun used listed => ?_⟩
    have still : used.Rests start := by
      rcases List.mem_cons.mp listed with rfl | listed
      · exact rests
      · have resting := ((List.forall₂_and_left _ _).mp (each.imp fun _ _ => And.symm).flip).1
        obtain ⟨outcome, member, rfl⟩ := List.mem_map.mp listed
        exact resting outcome member
    rw [← many]
    exact ⟨all_stats still represents consistent,
      fun calls more => pull_all_stats still represents consistent more⟩

/-- Column 1 is opened first, where row 0 leads to a dead end and row 2 to a cover. -/
def branching : IncidenceMatrix :=
  ⟨4, #[[0, 1], [0], [1, 2], [0, 2], [3]], by decide, by decide⟩

theorem tree_branching : tree branching [0, 1, 2] =
    .branch 1 [(0, .branch 2 []), (2, .branch 0 [(1, .solved)])] := by
  have root : pick branching [0, 1, 2] [0, 1, 2] = some 1 := by decide
  have rows : openRows branching [0, 1, 2] 1 = [0, 2] := by decide
  have first : without branching [0, 1, 2] 0 = [2] := by decide
  have second : without branching [0, 1, 2] 2 = [0] := by decide
  have stuck : tree branching [2] = .branch 2 [] := tree_of_some (by decide)
  have last : tree branching [0] = .branch 0 [(1, tree branching [])] := tree_of_some (by decide)
  have leaf : tree branching [] = .solved := tree_of_none rfl
  rw [tree_of_some root, rows, List.map_cons, List.map_cons, List.map_nil, first, second, stuck,
    last, leaf]

/-- The first call tries three rows in two columns. -/
theorem counts_branching : branching.Compatible (branching.forcedRows [4]) ∧
    ∃ solver items search, ofMatrix branching [4] = .ok solver ∧
      solver.search.pull 1 = .ok (items, search) ∧ search.stats = ⟨⟨3, 1, 2, 1⟩, 4⟩ := by
  have compatible : branching.Compatible (branching.forcedRows [4]) := by decide
  obtain ⟨solver, built, initial, calls, _⟩ := counts_tree branching [4] compatible
  obtain ⟨items, search, _, run, _, stats, _⟩ := calls 1
  have live : branching.liveColumns ((branching.forcedRows [4]).flatMap branching.rowAt) =
      [0, 1, 2] := by decide
  rw [live, tree_branching, initial] at stats
  refine ⟨compatible, solver, items, search, built, run, stats.trans ?_⟩
  decide

end Solver

end ExactCover
