import ExactCover.Proofs.SearchRun

/-! # What the calls of a search answer

A search yields the covers of its stack one at a time. A call steps until the next of them is
found, within the bound that the size of the graph gives, and closing the search between any two
calls gives the starting graph back.
-/

namespace ExactCover

open IncidenceMatrix AlgorithmX

variable {matrix : IncidenceMatrix} {base live : List Nat} {start graph : Graph}
  {levels : List Level}

theorem Graph.Represents.stepLimit_eq (h : graph.Represents matrix base) :
    Search.stepLimit graph = (matrix.layout.size + 2) ^ (matrix.columns + 2) := by
  rw [Search.stepLimit, Graph.size, h.shows.horizontal_size, h.columns]
  rfl

namespace SearchStack

/-- The cover that a step yields, if any. -/
def yieldedBy (next : List Level) : Option SearchTree.Visit → List (List Nat)
  | none => []
  | some visit => yielded (visit, next)

theorem step_cons (matrix : IncidenceMatrix) (level : Level) (below : List Level) :
    ∃ visit next, step matrix (level :: below) = some (visit, next) := by
  obtain ⟨column, live, trying, pending⟩ := level
  cases pending with
  | nil => exact ⟨none, below, rfl⟩
  | cons row rest => exact ⟨_, _, rfl⟩

/-- A step uses up one unit of work and yields the first of the covers, or leaves them all. -/
theorem covers_step {visit : Option SearchTree.Visit} {next : List Level}
    (made : step matrix levels = some (visit, next)) :
    covers matrix levels = yieldedBy next visit ++ covers matrix next ∧
      work matrix levels = work matrix next + 1 := by
  rcases step_cases made with ⟨column, live, trying, rfl, rfl⟩ |
    ⟨column, live, trying, row, rest, below, rfl, rfl, rfl⟩
  · exact close_step
  · exact try_step

/-- A step goes on and yields nothing, or it finds the rows being tried. -/
theorem eventAfter_cases (clues : List Nat) (next : List Level) (visit : Option SearchTree.Visit) :
    eventAfter (clues ++ (chosen next).reverse) visit = .busy ∧ yieldedBy next visit = [] ∨
      eventAfter (clues ++ (chosen next).reverse) visit = .found (clues ++ (chosen next).reverse) ∧
        yieldedBy next visit = [(chosen next).reverse] := by
  cases visit with
  | none => exact .inl ⟨rfl, rfl⟩
  | some visit =>
      cases visit with
      | solved depth => exact .inr ⟨rfl, rfl⟩
      | deadEnd depth => exact .inl ⟨rfl, rfl⟩
      | opened depth => exact .inl ⟨rfl, rfl⟩

/-- Steps within a bound above the work that is left find the next cover, or that there is none. -/
theorem Stands.stepsWithin (h : Stands matrix base start levels graph) {limit : Nat}
    (enough : work matrix levels < limit) (n : Nat) (tally : Tally) (phase : Phase) :
    ∃ next after m tally', Stands matrix base start next after ∧
      covers matrix next = (covers matrix levels).tail ∧ work matrix next ≤ work matrix levels ∧
      Search.stepsWithin limit (state matrix levels (graph.withUpdates n) tally phase) =
        .ok ((covers matrix levels).head?.map (start.clueRows ++ ·),
          state matrix next (after.withUpdates m) tally'
            (if covers matrix levels = [] then .done else .running)) := by
  induction limit generalizing levels graph n tally phase with
  | zero => exact absurd enough (Nat.not_lt_zero _)
  | succ limit ih =>
      cases levels with
      | nil => exact ⟨[], graph, n, tally, h, rfl, Nat.le_refl _, rfl⟩
      | cons level below =>
          obtain ⟨visit, next, made⟩ := step_cons matrix level below
          obtain ⟨found, used⟩ := covers_step made
          obtain ⟨after, stands, run⟩ := h.step made
          have fewer : work matrix next < limit := by omega
          rcases eventAfter_cases start.clueRows next visit with ⟨event, same⟩ | ⟨event, same⟩
          · obtain ⟨last, final, m, tally', ends, rest, less, steps⟩ :=
              ih stands fewer (n + stepCost matrix base (level :: below)) (tallyAfter tally visit)
                .running
            rw [same, List.nil_append] at found
            refine ⟨last, final, m, tally', ends, found ▸ rest, by omega, ?_⟩
            simp only [Search.stepsWithin, run, event, found, steps]
          · rw [same, List.singleton_append] at found
            refine ⟨next, after, n + stepCost matrix base (level :: below), tallyAfter tally visit,
              stands, found ▸ rfl, by omega, ?_⟩
            simp only [Search.stepsWithin, run, event, found, List.head?_cons, Option.map_some,
              reduceCtorEq, if_false]

theorem Stands.start_represents (h : Stands matrix base start levels graph) :
    start.Represents matrix base := by
  induction h with
  | bottom represents => exact represents
  | opened _ _ _ _ _ _ _ ih => exact ih
  | tried _ _ _ ih => exact ih

/-- The bound on the steps is the same for all graphs of a search. -/
theorem Stands.stepLimit_eq (h : Stands matrix base start levels graph) (n : Nat) :
    Search.stepLimit (graph.withUpdates n) = Search.stepLimit start :=
  (h.represents.withUpdates n).stepLimit_eq.trans h.start_represents.stepLimit_eq.symm

theorem tree_lt_stepLimit (h : graph.Represents matrix base) (covered : List Nat) :
    (tree matrix (matrix.liveColumns covered)).work + 1 < Search.stepLimit graph := by
  have bound := work_tree_lt matrix (matrix.liveColumns covered)
  have few : (matrix.liveColumns covered).length < matrix.columns + 2 := by
    have shorter := List.length_filter_le (· ∉ covered) (List.range matrix.columns)
    rw [List.length_range] at shorter
    exact Nat.lt_of_le_of_lt shorter (Nat.lt_add_of_pos_right Nat.two_pos)
  have more : matrix.layout.entries.length + 2 ≤ matrix.layout.size + 2 := by
    rw [Layout.size]
    omega
  rw [h.stepLimit_eq]
  calc (tree matrix (matrix.liveColumns covered)).work + 1
      ≤ (matrix.layout.entries.length + 2) ^ (matrix.liveColumns covered).length := bound
    _ ≤ (matrix.layout.size + 2) ^ (matrix.liveColumns covered).length :=
        Nat.pow_le_pow_left more _
    _ < (matrix.layout.size + 2) ^ (matrix.columns + 2) :=
        Nat.pow_lt_pow_right (Nat.lt_add_of_pos_left (Nat.succ_pos _)) few

/-- The covers that a search of a graph finds, when these columns are covered in it. -/
def emitted (matrix : IncidenceMatrix) (base : List Nat) (start : Graph) : List (List Nat) :=
  if start.isConsistent then
    (tree matrix (matrix.liveColumns base)).covers.map (start.clueRows ++ ·)
  else []

theorem length_emitted_lt (represents : start.Represents matrix base) :
    (emitted matrix base start).length < Search.stepLimit start := by
  have bound := tree_lt_stepLimit represents base
  unfold emitted
  split
  · rw [List.length_map]
    exact Nat.lt_of_le_of_lt (SearchTree.length_covers_le _) bound
  · exact Nat.zero_lt_of_lt bound

/-- A search of a graph, with the covers that it has yet to find. -/
inductive Finds (matrix : IncidenceMatrix) (base : List Nat) (start : Graph) :
    Search → List (List Nat) → Prop where
  | fresh (represents : start.Represents matrix base) (n : Nat) (tally : Tally) :
      Finds matrix base start (state matrix [] (start.withUpdates n) tally .fresh)
        (emitted matrix base start)
  | running {levels : List Level} {graph : Graph} (stands : Stands matrix base start levels graph)
      (bounded : work matrix levels < Search.stepLimit start) (n : Nat) (tally : Tally) :
      Finds matrix base start (state matrix levels (graph.withUpdates n) tally .running)
        ((covers matrix levels).map (start.clueRows ++ ·))
  | done {levels : List Level} {graph : Graph} (stands : Stands matrix base start levels graph)
      (n : Nat) (tally : Tally) :
      Finds matrix base start (state matrix levels (graph.withUpdates n) tally .done) []

namespace Finds

variable {search : Search} {rest : List (List Nat)}

theorem of_steps (stands : Stands matrix base start levels graph)
    (bounded : work matrix levels < Search.stepLimit start) (n : Nat) (tally : Tally)
    (phase : Phase) : ∃ after,
      Search.stepsWithin (Search.stepLimit start)
          (state matrix levels (graph.withUpdates n) tally phase) =
        .ok ((covers matrix levels).head?.map (start.clueRows ++ ·), after) ∧
      Finds matrix base start after ((covers matrix levels).tail.map (start.clueRows ++ ·)) := by
  obtain ⟨next, after, m, tally', ends, remain, less, run⟩ :=
    stands.stepsWithin bounded n tally phase
  refine ⟨_, run, ?_⟩
  split
  · rename_i none
    rw [none]
    exact .done ends m tally'
  · rw [← remain]
    exact .running ends (Nat.lt_of_le_of_lt less bounded) m tally'

/-- The first call goes down from the bottom. -/
theorem first_call (represents : start.Represents matrix base) (consistent : start.isConsistent)
    (n : Nat) (tally : Tally) {leaves : List (List Nat)}
    (found : leaves = (tree matrix (matrix.liveColumns base)).covers) :
    ∃ after, (state matrix [] (start.withUpdates n) tally .fresh).next =
        .ok (leaves.head?.map (start.clueRows ++ ·), after) ∧
      Finds matrix base start after (leaves.tail.map (start.clueRows ++ ·)) := by
  have settled : ∀ level ∈ ([] : List Level), level.trying ≠ none := by simp
  have lives : matrix.liveColumns base = matrix.liveColumns (coveredBy matrix base []) := rfl
  obtain ⟨below, stands, run⟩ := (Stands.bottom represents).descend settled lives
  have below_covers := covers_descend matrix (matrix.liveColumns base) []
  have below_work := work_descend matrix (matrix.liveColumns base) []
  have kept := chosen_descend matrix (matrix.liveColumns base) []
  have limit := tree_lt_stepLimit represents base
  have begins : (state matrix [] (start.withUpdates n) tally .fresh).start =
      (state matrix [] (start.withUpdates n) tally .running).descend := if_pos consistent
  have running : (state matrix [] (start.withUpdates n) tally .fresh).phase = .fresh := rfl
  specialize run n tally .running
  rw [← kept] at run
  generalize SearchStack.descend matrix (matrix.liveColumns base) [] = down at *
  obtain ⟨visit, levels⟩ := down
  have bounded : work matrix levels < Search.stepLimit start := by
    change work matrix levels = _ + 0 at below_work
    omega
  have split : leaves = yieldedBy levels (some visit) ++ covers matrix levels := by
    rw [found]
    simpa [covers, chosen, yieldedBy] using below_covers.symm
  change _ = Except.ok (eventAfter (start.clueRows ++ (chosen levels).reverse) (some visit), _) at run
  rcases eventAfter_cases start.clueRows levels (some visit) with ⟨event, quiet⟩ | ⟨event, quiet⟩
  · rw [quiet, List.nil_append] at split
    obtain ⟨after, steps, finds⟩ :=
      of_steps stands bounded (n + openCost matrix (coveredBy matrix base [])) (tally.visit visit)
        .running
    rw [← stands.stepLimit_eq (n + openCost matrix (coveredBy matrix base []))] at steps
    refine ⟨after, ?_, split ▸ finds⟩
    simp only [Search.next, running, begins, run, event, split]
    exact steps
  · rw [quiet, List.singleton_append] at split
    subst split
    refine ⟨_, ?_, .running stands bounded (n + openCost matrix (coveredBy matrix base []))
      (tally.visit visit)⟩
    simp only [Search.next, running, begins, run, event, List.head?_cons, Option.map_some]

/-- A call finds the first of the covers, or that there is none. -/
theorem next (h : Finds matrix base start search rest) :
    ∃ after, search.next = .ok (rest.head?, after) ∧ Finds matrix base start after rest.tail := by
  cases h with
  | done stands n tally => exact ⟨_, rfl, .done stands n tally⟩
  | @running levels graph stands bounded n tally =>
      obtain ⟨after, run, finds⟩ := of_steps stands bounded n tally .running
      rw [List.head?_map, ← List.map_tail]
      refine ⟨after, ?_, finds⟩
      rw [← run, ← stands.stepLimit_eq n]
      rfl
  | fresh represents n tally =>
      unfold emitted
      split
      · rename_i consistent
        rw [List.head?_map, ← List.map_tail]
        exact first_call represents consistent n tally rfl
      · rename_i clash
        refine ⟨state matrix [] (start.withUpdates n) tally .done, ?_, .done (.bottom represents) n tally⟩
        have clash : (start.withUpdates n).isConsistent = false := Bool.eq_false_iff.mpr clash
        simp only [Search.next, state, Search.start, clash, if_false, Bool.false_eq_true, List.head?_nil]

/-- Closing a search gives back the graph it has started from. -/
theorem close (h : Finds matrix base start search rest) :
    Solver.close search = .ok ⟨start.withUpdates search.graph.updates, search.tally⟩ := by
  cases h with
  | fresh represents n tally => rfl
  | running stands bounded n tally =>
      simp only [Solver.close, state, stands.unwind, bind, Except.bind, pure, Except.pure]
      rfl
  | done stands n tally =>
      simp only [Solver.close, state, stands.unwind, bind, Except.bind, pure, Except.pure]
      rfl

theorem take (h : Finds matrix base start search rest) (n : Nat) :
    ∃ after, search.take n = .ok (rest.take n, after) ∧
      Finds matrix base start after (rest.drop n) := by
  induction n generalizing search rest with
  | zero => exact ⟨search, rfl, h⟩
  | succ n ih =>
      obtain ⟨after, run, finds⟩ := h.next
      cases rest with
      | nil => exact ⟨after, by simp [Search.take, run, bind, Except.bind, pure, Except.pure], finds⟩
      | cons rows rest =>
          obtain ⟨last, more, ends⟩ := ih finds
          refine ⟨last, ?_, ends⟩
          simp only [List.head?_cons] at run
          simp only [Search.take, run, bind, Except.bind, List.tail_cons, pure, Except.pure] at more ⊢
          simp only [more, List.take_succ_cons]

theorem pull (h : Finds matrix base start search rest) (n : Nat) :
    ∃ after, search.pull n = .ok ((List.range n).map (rest[·]?), after) ∧
      Finds matrix base start after (rest.drop n) := by
  induction n generalizing search rest with
  | zero => exact ⟨search, rfl, h⟩
  | succ n ih =>
      obtain ⟨after, run, finds⟩ := h.next
      obtain ⟨last, more, ends⟩ := ih finds
      rw [List.drop_tail] at ends
      refine ⟨last, ?_, ends⟩
      simp only [Search.pull, run, more, bind, Except.bind, pure, Except.pure]
      rw [List.range_succ_eq_map, List.map_cons, List.map_map, ← List.head?_eq_getElem?]
      simp only [Function.comp_def, List.getElem?_tail]

end Finds

end SearchStack

end ExactCover
