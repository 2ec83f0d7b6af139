import ExactCover.Proofs.Enumeration

/-! # What a search counts

A search comes to the places of its tree one after the other, and stops at the leaf that it answers
with. Its counters say which places it has come to: they are those of the places before that leaf
and the leaf itself. The updates are those of the covers made on the way.
-/

namespace ExactCover

open IncidenceMatrix AlgorithmX

namespace SearchTree

namespace Visit

def isSolved : Visit → Bool
  | .solved _ => true
  | .deadEnd _ => false
  | .opened _ => false

def isDeadEnd : Visit → Bool
  | .solved _ => false
  | .deadEnd _ => true
  | .opened _ => false

/-- The number of columns open after a visit that opens one. -/
def opening : Visit → Nat
  | .solved _ => 0
  | .deadEnd _ => 0
  | .opened depth => depth

end Visit

/-- The most columns that are open at once. -/
def deepest (visits : List Visit) : Nat := (visits.map Visit.opening).foldr max 0

/-- How many of the places to come have been visited when so many calls have returned. A call
    returns from the next leaf that is solved, or when no place is left. -/
def reach : Nat → List Visit → Nat
  | 0, _ => 0
  | _ + 1, [] => 0
  | calls + 1, visit :: rest => reach (if visit.isSolved then calls else calls + 1) rest + 1

mutual

/-- The updates made in coming to each place of a tree, in the order of the search, when these
    columns have been covered on the way: those of the row that leads there, which are given, and
    those of opening a column there. -/
def costs (matrix : IncidenceMatrix) (covered : List Nat) (arrival : Nat) : SearchTree → List Nat
  | .solved => [arrival]
  | .branch _ [] => [arrival]
  | .branch column (first :: rest) => (arrival + matrix.coverCost covered column) ::
      costsOf matrix (covered ++ [column]) column (first :: rest)

/-- The updates made in coming to each place when these rows of an open column are tried. -/
def costsOf (matrix : IncidenceMatrix) (covered : List Nat) (column : Nat) :
    List (Nat × SearchTree) → List Nat
  | [] => []
  | (row, below) :: rest => costs matrix (covered ++ matrix.mates row column)
      (matrix.coverCosts covered (matrix.mates row column)) below ++
        costsOf matrix covered column rest

end

theorem deepest_append (one two : List Visit) :
    deepest (one ++ two) = max (deepest one) (deepest two) := by
  induction one with
  | nil => exact (Nat.zero_max _).symm
  | cons visit one ih =>
      simp only [deepest, List.cons_append, List.map_cons, List.foldr_cons] at ih ⊢
      rw [ih, max_assoc]

/-- The first of several calls comes to its leaf, and the others go on from there. -/
theorem reach_succ (calls : Nat) (visits : List Visit) :
    reach (calls + 1) visits = reach 1 visits + reach calls (visits.drop (reach 1 visits)) := by
  induction visits with
  | nil => cases calls <;> rfl
  | cons visit rest ih =>
      cases solved : visit.isSolved with
      | true => simp only [reach, solved, if_true, Nat.zero_add, List.drop_one, List.tail_cons,
          Nat.add_comm]
      | false =>
          simp only [reach, solved, Bool.false_eq_true, if_false, Nat.zero_add, ih,
            List.drop_succ_cons]
          omega

/-- More calls than there are leaves that are solved come to all places. -/
theorem reach_of_lt {calls : Nat} {visits : List Visit}
    (more : visits.countP Visit.isSolved < calls) : reach calls visits = visits.length := by
  induction visits generalizing calls with
  | nil => cases calls <;> rfl
  | cons visit rest ih =>
      cases calls with
      | zero => exact absurd more (Nat.not_lt_zero _)
      | succ calls =>
          cases solved : visit.isSolved with
          | true =>
              rw [List.countP_cons_of_pos solved] at more
              rw [reach, solved, if_pos rfl, ih (Nat.lt_of_succ_lt_succ more), List.length_cons]
          | false =>
              rw [List.countP_cons_of_neg (by simp [solved])] at more
              rw [reach, solved, if_neg Bool.false_ne_true, ih more, List.length_cons]

/-- Each call comes to one leaf that is solved, as long as there is one. -/
theorem countP_take_reach (calls : Nat) (visits : List Visit) :
    (visits.take (reach calls visits)).countP Visit.isSolved =
      min calls (visits.countP Visit.isSolved) := by
  induction visits generalizing calls with
  | nil => simp
  | cons visit rest ih =>
      cases calls with
      | zero => rw [reach, List.take_zero, List.countP_nil, Nat.zero_min]
      | succ calls =>
          cases solved : visit.isSolved with
          | true =>
              rw [reach, solved, if_pos rfl, List.take_succ_cons, List.countP_cons_of_pos solved,
                List.countP_cons_of_pos solved, ih, Nat.succ_min_succ]
          | false =>
              rw [reach, solved, if_neg Bool.false_ne_true, List.take_succ_cons,
                List.countP_cons_of_neg (by simp [solved]),
                List.countP_cons_of_neg (by simp [solved]), ih]

mutual

theorem countP_visits (depth : Nat) : ∀ tree : SearchTree,
    (tree.visits depth).countP Visit.isSolved = tree.covers.length
  | .solved => rfl
  | .branch _ [] => rfl
  | .branch _ (first :: rest) => countP_visitsOf (depth + 1) (first :: rest)

theorem countP_visitsOf (depth : Nat) : ∀ options : List (Nat × SearchTree),
    (visitsOf depth options).countP Visit.isSolved = (coversOf options).length
  | [] => rfl
  | (_, below) :: rest => by
      have first := countP_visits depth below
      have others := countP_visitsOf depth rest
      rw [visitsOf, coversOf, List.countP_append, List.length_append, List.length_map, first, others]

end

mutual

theorem length_costs (matrix : IncidenceMatrix) (covered : List Nat) (arrival depth : Nat) :
    ∀ tree : SearchTree, (tree.costs matrix covered arrival).length = (tree.visits depth).length
  | .solved => rfl
  | .branch _ [] => rfl
  | .branch column (first :: rest) =>
      congrArg (· + 1) (length_costsOf matrix (covered ++ [column]) column (depth + 1) (first :: rest))

theorem length_costsOf (matrix : IncidenceMatrix) (covered : List Nat) (column depth : Nat) :
    ∀ options : List (Nat × SearchTree),
      (costsOf matrix covered column options).length = (visitsOf depth options).length
  | [] => rfl
  | (row, below) :: rest => by
      have first := length_costs matrix (covered ++ matrix.mates row column)
        (matrix.coverCosts covered (matrix.mates row column)) depth below
      have others := length_costsOf matrix covered column depth rest
      rw [costsOf, visitsOf, List.length_append, List.length_append, first, others]

end

end SearchTree

open SearchTree

namespace Statistics

/-- What two pieces of work count together. -/
def add (stats more : Statistics) : Statistics where
  rowsTried := stats.rowsTried + more.rowsTried
  solutions := stats.solutions + more.solutions
  maxDepth := max stats.maxDepth more.maxDepth
  deadEnds := stats.deadEnds + more.deadEnds
  updates := stats.updates + more.updates

/-- What counts for places of a tree, a row being tried for each of them. -/
def ofVisits (visits : List Visit) (costs : List Nat) : Statistics where
  rowsTried := visits.length
  solutions := visits.countP Visit.isSolved
  maxDepth := deepest visits
  deadEnds := visits.countP Visit.isDeadEnd
  updates := costs.sum

/-- What counts for places from the root on, for which no row is tried. -/
def fromRoot (visits : List Visit) (costs : List Nat) : Statistics :=
  { ofVisits visits costs with rowsTried := visits.length - 1 }

theorem add_assoc (one two three : Statistics) :
    (one.add two).add three = one.add (two.add three) := by
  simp only [add, Nat.add_assoc, max_assoc]

theorem add_ofVisits_nil (stats : Statistics) : stats.add (ofVisits [] []) = stats := by
  simp [add, ofVisits, deepest]

theorem add_fromRoot_nil (stats : Statistics) : stats.add (fromRoot [] []) = stats :=
  stats.add_ofVisits_nil

theorem ofVisits_append (one two : List Visit) (three four : List Nat) :
    ofVisits (one ++ two) (three ++ four) = (ofVisits one three).add (ofVisits two four) := by
  simp only [ofVisits, add, List.length_append, List.countP_append, List.sum_append,
    deepest_append]

/-- A step that comes to a place counts this place. -/
theorem add_visit (tally : Tally) (n : Nat) (visit : Visit) (cost : Nat) :
    add ⟨tally, n⟩ (ofVisits [visit] [cost]) =
      ⟨SearchStack.tallyAfter tally (some visit), n + cost⟩ := by
  cases visit <;> simp [add, ofVisits, SearchStack.tallyAfter, Tally.visit, Visit.isSolved,
    Visit.isDeadEnd, deepest, Visit.opening]

theorem add_root (tally : Tally) (n : Nat) (visit : Visit) (cost : Nat) (rest : List Visit)
    (costs : List Nat) : add ⟨tally, n⟩ (fromRoot (visit :: rest) (cost :: costs)) =
      add ⟨tally.visit visit, n + cost⟩ (ofVisits rest costs) := by
  cases visit with
  | solved depth =>
      simp [add, fromRoot, ofVisits, Tally.visit, Visit.isSolved, Visit.isDeadEnd, deepest,
        Visit.opening, List.countP_cons]
      omega
  | deadEnd depth =>
      simp [add, fromRoot, ofVisits, Tally.visit, Visit.isSolved, Visit.isDeadEnd, deepest,
        Visit.opening, List.countP_cons]
      omega
  | opened depth =>
      simp [add, fromRoot, ofVisits, Tally.visit, Visit.isSolved, Visit.isDeadEnd, deepest,
        Visit.opening, max_assoc]
      omega

end Statistics

theorem Search.pull_succ_iff {search after : Search} {items : List (Option (List Nat))}
    {calls : Nat} : search.pull (calls + 1) = .ok (items, after) ↔
    ∃ item middle more, items = item :: more ∧ search.next = .ok (item, middle) ∧
      middle.pull calls = .ok (more, after) := by
  constructor
  · intro run
    simp only [Search.pull, bind, Except.bind, pure, Except.pure] at run
    cases one : search.next with
    | error fault => simp [one] at run
    | ok found =>
        obtain ⟨item, middle⟩ := found
        simp only [one] at run
        cases rest : middle.pull calls with
        | error fault => simp [rest] at run
        | ok found =>
            obtain ⟨more, last⟩ := found
            simp only [rest, Except.ok.injEq, Prod.mk.injEq] at run
            exact ⟨item, middle, more, run.1.symm, rfl, run.2 ▸ rest⟩
  · rintro ⟨item, middle, more, rfl, one, rest⟩
    simp only [Search.pull, one, rest, bind, Except.bind, pure, Except.pure]

namespace SearchStack

variable {matrix : IncidenceMatrix} {base live : List Nat} {start graph : Graph}
  {levels later : List Level} {tally : Tally} {phase : Phase} {n : Nat}

/-- The places that a stack has yet to come to. -/
def visits (matrix : IncidenceMatrix) : List Level → List Visit
  | [] => []
  | level :: below =>
      visitsOf (below.length + 1) (options matrix level.live level.pending) ++ visits matrix below

/-- The updates that it makes in coming to each of them. -/
def costs (matrix : IncidenceMatrix) (base : List Nat) : List Level → List Nat
  | [] => []
  | level :: below => costsOf matrix (coveredBy matrix base below ++ [level.column]) level.column
      (options matrix level.live level.pending) ++ costs matrix base below

theorem visits_descend (matrix : IncidenceMatrix) (live : List Nat) (levels : List Level) :
    (descend matrix live levels).1 :: visits matrix (descend matrix live levels).2 =
      (tree matrix live).visits levels.length ++ visits matrix levels := by
  cases picked : pick matrix live live with
  | none =>
      rw [descend_solved picked, tree_of_none picked]
      rfl
  | some column =>
      rw [tree_of_some picked]
      cases opened : openRows matrix live column with
      | nil =>
          rw [descend_deadEnd picked opened]
          rfl
      | cons row rest =>
          rw [descend_opened picked opened]
          rfl

/-- Coming to a place makes the updates of the way there, and those of opening a column. -/
theorem costs_descend (matrix : IncidenceMatrix) (base : List Nat) (levels : List Level)
    (arrival : Nat) :
    let covered := coveredBy matrix base levels
    (arrival + openCost matrix covered) ::
        costs matrix base (descend matrix (matrix.liveColumns covered) levels).2 =
      (tree matrix (matrix.liveColumns covered)).costs matrix covered arrival ++
        costs matrix base levels := by
  intro covered
  cases picked : pick matrix (matrix.liveColumns covered) (matrix.liveColumns covered) with
  | none =>
      rw [descend_solved picked, tree_of_none picked, openCost, picked]
      rfl
  | some column =>
      rw [tree_of_some picked, openCost, picked, Option.map_some, Option.getD_some]
      cases opened : openRows matrix (matrix.liveColumns covered) column with
      | nil =>
          have fresh := (mem_liveColumns.mp (pick_mem picked)).2
          rw [descend_deadEnd picked opened, coverCost_eq_zero fresh opened]
          rfl
      | cons row rest =>
          rw [descend_opened picked opened]
          rfl

/-- A step comes to the first of the places to come, or to none of them. -/
theorem visits_step {visit : Option Visit} (made : step matrix levels = some (visit, later)) :
    visits matrix levels = visit.toList ++ visits matrix later := by
  rcases step_cases made with ⟨column, live, trying, rfl, rfl⟩ |
    ⟨column, live, trying, row, rest, below, rfl, rfl, rfl⟩
  · rfl
  · rw [Option.toList_some, List.singleton_append, visits_descend]
    simp [visits, options, visitsOf]

namespace Stands

theorem costs_step {visit : Option Visit} (h : Stands matrix base start levels graph)
    (made : SearchStack.step matrix levels = some (visit, later)) : costs matrix base levels =
      (visit.map fun _ => stepCost matrix base levels).toList ++ costs matrix base later := by
  rcases step_cases made with ⟨column, live, trying, rfl, rfl⟩ |
    ⟨column, live, trying, row, rest, below, rfl, rfl, rfl⟩
  · rfl
  -- Without the row being tried, the stack shows which columns stay live below the next one.
  · obtain ⟨_, done, stands, _⟩ := h.leave
    have lives : without matrix live row = matrix.liveColumns
        (coveredBy matrix base (⟨column, live, some row, rest⟩ :: below)) :=
      stands.lives_below (List.mem_append_right done List.mem_cons_self)
    have came := costs_descend matrix base (⟨column, live, some row, rest⟩ :: below)
      (matrix.coverCosts (coveredBy matrix base below ++ [column]) (matrix.mates row column))
    simp only [← lives] at came
    rw [Option.map_some, Option.toList_some, List.singleton_append]
    refine Eq.trans ?_ came.symm
    simp [costs, options, costsOf, coveredBy]

end Stands

/-- A search that has made its first call, with the places that it has yet to come to and the
    updates that it makes in coming to them. -/
inductive Comes (matrix : IncidenceMatrix) (base : List Nat) (start : Graph) :
    Search → List Visit → List Nat → Prop where
  | running {levels : List Level} {graph : Graph} (stands : Stands matrix base start levels graph)
      (n : Nat) (tally : Tally) :
      Comes matrix base start (state matrix levels (graph.withUpdates n) tally .running)
        (visits matrix levels) (costs matrix base levels)
  | done (graph : Graph) (tally : Tally) :
      Comes matrix base start (state matrix [] graph tally .done) [] []

variable {search after : Search} {item : Option (List Nat)} {items : List (Option (List Nat))}
  {places : List Visit} {spent : List Nat} {limit : Nat}

theorem event_eq (rows : List Nat) (visit : Visit) :
    visit.event rows = if visit.isSolved then .found rows else .busy := by
  cases visit <;> rfl

/-- The steps of a call come to the places up to the next leaf that is solved. -/
theorem Stands.counts (h : Stands matrix base start levels graph)
    (run : Search.stepsWithin limit (state matrix levels (graph.withUpdates n) tally phase) =
      .ok (item, after)) :
    let reached := reach 1 (visits matrix levels)
    Comes matrix base start after ((visits matrix levels).drop reached)
        ((costs matrix base levels).drop reached) ∧
      after.stats = Statistics.add ⟨tally, n⟩ (.ofVisits ((visits matrix levels).take reached)
        ((costs matrix base levels).take reached)) := by
  -- The bound on the steps is what the recursion goes down on; the stack changes with each step.
  induction limit generalizing levels graph n tally phase with
  | zero => exact absurd run (by simp [Search.stepsWithin])
  | succ limit ih =>
      cases levels with
      | nil =>
          cases run
          exact ⟨.done _ tally, (Statistics.add_ofVisits_nil _).symm⟩
      | cons level below =>
          obtain ⟨visit, next, made⟩ := step_cons matrix level below
          obtain ⟨final, stands, step⟩ := h.step made
          rw [visits_step made, h.costs_step made]
          simp only [Search.stepsWithin, step] at run
          cases visit with
          | none =>
              have free : stepCost matrix base (level :: below) = 0 := by
                rcases step_cases made with ⟨_, _, _, same, _⟩ | ⟨_, _, _, _, _, _, _, same, _⟩
                · rw [same]
                  rfl
                · exact absurd same (Option.some_ne_none _).symm
              rw [free] at run
              exact ih stands run
          | some visit =>
              simp only [eventAfter, event_eq] at run
              simp only [Option.toList_some, Option.map_some, List.singleton_append, reach]
              cases solved : visit.isSolved with
              | true =>
                  rw [solved] at run
                  cases run
                  rw [if_pos rfl, reach, List.take_succ_cons, List.take_succ_cons, List.take_zero,
                    List.take_zero, Statistics.add_visit]
                  exact ⟨.running stands _ _, rfl⟩
              | false =>
                  rw [solved] at run
                  obtain ⟨comes, stats⟩ := ih stands run
                  refine ⟨comes, ?_⟩
                  rw [← Statistics.add_visit, Statistics.add_assoc, ← Statistics.ofVisits_append]
                    at stats
                  exact stats

namespace Comes

theorem next (h : Comes matrix base start search places spent)
    (run : search.next = .ok (item, after)) :
    Comes matrix base start after (places.drop (reach 1 places)) (spent.drop (reach 1 places)) ∧
      after.stats = search.stats.add (.ofVisits (places.take (reach 1 places))
        (spent.take (reach 1 places))) := by
  cases h with
  | running stands n tally => exact stands.counts run
  | done graph tally =>
      cases run
      exact ⟨.done graph tally, (Statistics.add_ofVisits_nil _).symm⟩

theorem pull (h : Comes matrix base start search places spent) (calls : Nat)
    (run : search.pull calls = .ok (items, after)) :
    after.stats = search.stats.add (.ofVisits (places.take (reach calls places))
      (spent.take (reach calls places))) := by
  induction calls generalizing search places spent items with
  | zero =>
      cases run
      rw [reach, List.take_zero, List.take_zero, Statistics.add_ofVisits_nil]
  | succ calls ih =>
      obtain ⟨item, middle, more, rfl, one, rest⟩ := Search.pull_succ_iff.mp run
      obtain ⟨comes, stats⟩ := h.next one
      rw [reach_succ, List.take_add, List.take_add, Statistics.ofVisits_append, ← Statistics.add_assoc, ← stats]
      exact ih comes rest

/-- A search of a consistent graph starts at the root. -/
theorem start_eq (represents : start.Represents matrix base) (consistent : start.isConsistent) :
    ∃ visit levels graph, Stands matrix base start levels graph ∧
      (tree matrix (matrix.liveColumns base)).visits 0 = visit :: visits matrix levels ∧
      (tree matrix (matrix.liveColumns base)).costs matrix base 0 =
        openCost matrix base :: costs matrix base levels ∧
      ∀ n tally, (state matrix [] (start.withUpdates n) tally .fresh).start =
        .ok (visit.event start.clueRows, state matrix levels
          (graph.withUpdates (n + openCost matrix base)) (tally.visit visit) .running) := by
  have settled : ∀ level ∈ ([] : List Level), level.trying ≠ none := by simp
  obtain ⟨graph, stands, down⟩ := (Stands.bottom represents).descend settled rfl
  have places := visits_descend matrix (matrix.liveColumns base) []
  have updates := costs_descend matrix base [] 0
  refine ⟨(SearchStack.descend matrix (matrix.liveColumns base) []).1, _, graph, stands, ?_, ?_,
    fun n tally => ?_⟩
  · exact (places.trans (List.append_nil _)).symm
  · refine (List.append_nil _).symm.trans (updates.symm.trans ?_)
    rw [Nat.zero_add]
    rfl
  · have begins : (state matrix [] (start.withUpdates n) tally .fresh).start =
        (state matrix [] (start.withUpdates n) tally .running).descend := if_pos consistent
    rw [begins, down]
    simp only [chosen, List.filterMap_nil, List.reverse_nil, List.append_nil]
    rfl

/-- The calls of a search from the start come to the places of the tree from its root on. -/
theorem pull_fresh (represents : start.Represents matrix base) (consistent : start.isConsistent)
    (calls : Nat)
    (run : (state matrix [] (start.withUpdates n) tally .fresh).pull calls = .ok (items, after)) :
    let visits := (tree matrix (matrix.liveColumns base)).visits 0
    let costs := (tree matrix (matrix.liveColumns base)).costs matrix base 0
    after.stats = Statistics.add ⟨tally, n⟩ (.fromRoot (visits.take (reach calls visits))
      (costs.take (reach calls visits))) := by
  intro visits costs
  cases calls with
  | zero =>
      cases run
      rw [reach, List.take_zero, List.take_zero, Statistics.add_fromRoot_nil]
      rfl
  | succ calls =>
      obtain ⟨visit, levels, graph, stands, places, updates, starts⟩ :=
        start_eq represents consistent
      have comes := Comes.running stands (n + openCost matrix base) (tally.visit visit)
      change visits = _ at places
      change costs = _ at updates
      rw [places, updates, reach, List.take_succ_cons, List.take_succ_cons,
        Statistics.add_root]
      obtain ⟨item, middle, more, rfl, one, rest⟩ := Search.pull_succ_iff.mp run
      have fresh : (state matrix [] (start.withUpdates n) tally .fresh).phase = .fresh := rfl
      simp only [Search.next, fresh, starts, event_eq] at one
      cases solved : visit.isSolved with
      | true =>
          rw [solved] at one
          cases one
          exact comes.pull calls rest
      | false =>
          -- The call has passed the root and goes on like one of a running search.
          rw [solved] at one
          exact comes.pull (calls + 1) (Search.pull_succ_iff.mpr ⟨item, middle, more, rfl, one, rest⟩)

end Comes

end SearchStack

end ExactCover
