import ExactCover.Proofs.CoverHistory

/-! # Covers that are undone leave no trace

Covers of columns and of rows may be nested in each other to any depth. Once each of them has been
undone by its own call, every link is what it was before, also of nodes that are linked nowhere, and
so is every count. Only the updates tell that something has happened, and only covers change them.
-/

namespace ExactCover.Graph

open IncidenceMatrix

variable {matrix : IncidenceMatrix} {start graph other after : Graph} {covered : List Nat}
  {node header : Node}

/-! ### Updates -/

/-- What every step does to the updates, all of the steps do. -/
theorem foldlM_updates {α : Type} {step : Graph → α → Except Fault Graph}
    (within : Nat → Nat → Prop) (refl : ∀ n, within n n)
    (trans : ∀ {a b c}, within a b → within b c → within a c)
    (one : ∀ {graph x after}, step graph x = .ok after → within graph.updates after.updates)
    {items : List α} (run : items.foldlM step graph = .ok after) :
    within graph.updates after.updates := by
  induction items generalizing graph with
  | nil =>
      obtain rfl := Except.ok.inj run
      exact refl graph.updates
  | cons item items ih =>
      rw [List.foldlM_cons] at run
      obtain ⟨middle, first, rest⟩ := exists_of_bind_eq_ok run
      exact trans (one first) (ih rest)

theorem detach_updates (run : graph.detach node = .ok after) : graph.updates ≤ after.updates := by
  unfold detach at run
  obtain ⟨_, _, run⟩ := exists_of_bind_eq_ok run
  obtain ⟨_, _, run⟩ := exists_of_bind_eq_ok run
  obtain ⟨count, _, run⟩ := exists_of_bind_eq_ok run
  cases count with
  | zero => cases run
  | succ count =>
      obtain rfl := Except.ok.inj run
      exact Nat.le_succ graph.updates

theorem attach_updates (run : graph.attach node = .ok after) : after.updates = graph.updates := by
  unfold attach at run
  obtain ⟨_, _, run⟩ := exists_of_bind_eq_ok run
  obtain ⟨_, _, run⟩ := exists_of_bind_eq_ok run
  obtain ⟨_, _, run⟩ := exists_of_bind_eq_ok run
  obtain rfl := Except.ok.inj run
  rfl

theorem hideRow_updates (run : graph.hideRow node = .ok after) : graph.updates ≤ after.updates := by
  obtain ⟨_, _, run⟩ := exists_of_bind_eq_ok run
  exact foldlM_updates (· ≤ ·) Nat.le_refl Nat.le_trans detach_updates run

theorem showRow_updates (run : graph.showRow node = .ok after) : after.updates = graph.updates := by
  obtain ⟨_, _, run⟩ := exists_of_bind_eq_ok run
  exact foldlM_updates (fun a b => b = a) (fun _ => rfl) (fun one two => two.trans one)
    attach_updates run

theorem unlinkHeader_updates (run : graph.unlinkHeader header = .ok after) :
    after.updates = graph.updates := by
  obtain ⟨_, _, run⟩ := exists_of_bind_eq_ok run
  obtain rfl := Except.ok.inj run
  rfl

theorem relinkHeader_updates (run : graph.relinkHeader header = .ok after) :
    after.updates = graph.updates := by
  obtain ⟨_, _, run⟩ := exists_of_bind_eq_ok run
  obtain rfl := Except.ok.inj run
  rfl

theorem cover_updates (run : graph.cover header = .ok after) : graph.updates ≤ after.updates := by
  obtain ⟨_, _, run⟩ := exists_of_bind_eq_ok run
  obtain ⟨middle, unlinked, run⟩ := exists_of_bind_eq_ok run
  rw [← unlinkHeader_updates unlinked]
  exact foldlM_updates (· ≤ ·) Nat.le_refl Nat.le_trans hideRow_updates run

theorem uncover_updates (run : graph.uncover header = .ok after) :
    after.updates = graph.updates := by
  obtain ⟨_, _, run⟩ := exists_of_bind_eq_ok run
  obtain ⟨middle, shown, run⟩ := exists_of_bind_eq_ok run
  rw [relinkHeader_updates run]
  exact foldlM_updates (fun a b => b = a) (fun _ => rfl) (fun one two => two.trans one)
    showRow_updates shown

/-- Whether a call undoes covers. -/
def Call.undoes : Call → Bool
  | .cover _ | .coverRow _ => false
  | .uncover _ | .uncoverRow _ => true

/-- No call lowers the updates of any graph, and one that undoes covers keeps them. -/
theorem call_updates {call : Call} (run : graph.call call = .ok after) :
    graph.updates ≤ after.updates ∧ (call.undoes = true → after.updates = graph.updates) := by
  cases call with
  | cover header => exact ⟨cover_updates run, nofun⟩
  | uncover header =>
      have same := uncover_updates run
      exact ⟨same.ge, fun _ => same⟩
  | coverRow node =>
      obtain ⟨_, _, run⟩ := exists_of_bind_eq_ok run
      exact ⟨foldlM_updates (· ≤ ·) Nat.le_refl Nat.le_trans cover_updates run, nofun⟩
  | uncoverRow node =>
      obtain ⟨_, _, run⟩ := exists_of_bind_eq_ok run
      have same := foldlM_updates (fun a b => b = a) (fun _ => rfl)
        (fun one two => two.trans one) uncover_updates run
      exact ⟨same.ge, fun _ => same⟩

/-! ### Bracketed calls -/

/-- Calls in which every cover is undone by its own call, with bracketed calls between the two, when
    the covers of some columns are outstanding already. What is covered is live before. -/
inductive Bracketed (matrix : IncidenceMatrix) : List Nat → List Call → Prop where
  | nil {covered : List Nat} : Bracketed matrix covered []
  | cover {covered : List Nat} {column : Nat} {inner rest : List Call}
      (alive : column ∈ matrix.liveColumns covered)
      (inside : Bracketed matrix (covered ++ [column]) inner)
      (after : Bracketed matrix covered rest) :
      Bracketed matrix covered
        (.cover (Graph.header column) :: inner ++ .uncover (Graph.header column) :: rest)
  | coverRow {covered : List Nat} {row column : Nat} {inner rest : List Call}
      (sets : matrix.get row column = true)
      (alive : ∀ mate, matrix.get row mate = true → mate ≠ column →
        mate ∈ matrix.liveColumns covered)
      (inside : Bracketed matrix (covered ++ matrix.mates row column) inner)
      (after : Bracketed matrix covered rest) :
      Bracketed matrix covered (.coverRow (matrix.layout.node row column) :: inner ++
        .uncoverRow (matrix.layout.node row column) :: rest)

theorem History.append {first middle last : List Nat} {calls more : List Call}
    (one : History matrix first calls middle) (two : History matrix middle more last) :
    History matrix first (calls ++ more) last := by
  induction one with
  | nil => exact two
  | cons order _ ih => exact .cons order (ih two)

/-- Bracketed calls are in order and leave as many covers outstanding as there were. -/
theorem Bracketed.history {calls : List Call} (h : Bracketed matrix covered calls) :
    History matrix covered calls covered := by
  induction h with
  | nil => exact .nil
  | cover alive _ _ inside after =>
      exact .cons (.cover alive) (inside.append (.cons .uncover after))
  | @coverRow _ row column _ _ sets alive _ _ inside after =>
      have mates : matrix.mates row column ⊆ matrix.liveColumns _ := fun mate member =>
        alive mate ((mem_mates sets).mp member).1 ((mem_mates sets).mp member).2
      exact .cons (.coverRow sets mates) (inside.append (.cons (.uncoverRow sets) after))

/-! ### Exact undo -/

theorem Nested.eq_start (h : Nested matrix start [] graph) : graph = start := by
  generalize none : ([] : List Nat) = outstanding at h
  cases h with
  | bottom => rfl
  | cover => simp at none

/-- The outstanding covers determine the graph, up to its updates. -/
theorem Nested.unique (one : Nested matrix start covered graph)
    (two : Nested matrix start covered other) (n : Nat) :
    graph.withUpdates n = other.withUpdates n := by
  induction covered using List.reverseRecOn generalizing graph other n with
  | nil => rw [one.eq_start, two.eq_start]
  | append_singleton covered column ih =>
      obtain ⟨under, below, turned⟩ := one.top
      obtain ⟨under', below', turned'⟩ := two.top
      have covers := turned.forward 0
      rw [ih below below' 0, turned'.forward 0] at covers
      exact (congrArg (·.withUpdates n) (Except.ok.inj covers)).symm

/-- Bracketed calls, made where any calls in order have led to, succeed and give back the same graph
    in all but its updates. These never go down, and only covers change them. -/
theorem bracketed_calls_undone (matrix : IncidenceMatrix) (forced : List Nat) : ∃ start,
    ofMatrix matrix forced = .ok start ∧ ∀ prior covered,
      History matrix (matrix.commitRows (matrix.forcedRows forced) []).1 prior covered →
        ∃ graph, start.callAll prior = .ok graph ∧ ∀ calls, Bracketed matrix covered calls →
          (∃ n, graph.updates ≤ n ∧ graph.callAll calls = .ok (graph.withUpdates n)) ∧
          ∀ before call rest, calls = before ++ call :: rest → ∃ here next,
            graph.callAll before = .ok here ∧ here.call call = .ok next ∧
              here.updates ≤ next.updates ∧
              (call.undoes = true → next.updates = here.updates) := by
  obtain ⟨_, linked, built, nested⟩ := ofMatrix_nested matrix forced
  generalize matrix.coverCosts [] (matrix.commitRows (matrix.forcedRows forced) []).1 = made at built
  refine ⟨_, built, fun prior covered history => ?_⟩
  obtain ⟨graph, cost, nested, reached⟩ := nested.callAll history
  refine ⟨_, reached _, fun calls bracketed => ?_⟩
  obtain ⟨after, more, last, run⟩ := nested.callAll bracketed.history
  have undone := run (made + cost)
  rw [← nested.unique last] at undone
  refine ⟨⟨_, Nat.le_add_right _ more, undone⟩, ?_⟩
  rintro before call rest rfl
  rw [callAll, List.foldlM_append] at undone
  obtain ⟨here, first, others⟩ := exists_of_bind_eq_ok undone
  rw [List.foldlM_cons] at others
  obtain ⟨next, one, _⟩ := exists_of_bind_eq_ok others
  exact ⟨here, next, first, one, call_updates one⟩

/-- A row cover with a column cover inside, and another column cover. -/
def nestedCalls : List Call :=
  [.coverRow (circle.layout.node 2 2), .cover (Graph.header 2), .uncover (Graph.header 2),
    .uncoverRow (circle.layout.node 2 2), .cover (Graph.header 3), .uncover (Graph.header 3)]

/-- Row 0 is forced, which leaves columns 2 and 3 live, the columns of row 2. -/
theorem circle_calls_undone : ∃ start n, ofMatrix circle [0] = .ok start ∧
    Bracketed circle [0, 1] nestedCalls ∧ start.callAll nestedCalls = .ok (start.withUpdates n) := by
  obtain ⟨start, built, undone⟩ := bracketed_calls_undone circle [0]
  have base : (circle.commitRows (circle.forcedRows [0]) []).1 = [0, 1] := by decide
  have mates : ∀ mate ∈ circle.rowAt 2, mate ≠ 2 → mate ∈ circle.liveColumns [0, 1] := by decide
  have second :
      Bracketed circle [0, 1, 3] ([.cover (Graph.header 2)] ++ [.uncover (Graph.header 2)]) :=
    .cover (by decide) .nil .nil
  have third : Bracketed circle [0, 1] ([.cover (Graph.header 3)] ++ [.uncover (Graph.header 3)]) :=
    .cover (by decide) .nil .nil
  have bracketed : Bracketed circle [0, 1] nestedCalls :=
    .coverRow (by decide) (fun mate sets => mates mate (mem_rowAt.mpr sets)) second third
  rw [base] at undone
  obtain ⟨graph, reached, undone⟩ := undone [] [0, 1] .nil
  obtain rfl := Except.ok.inj reached
  obtain ⟨⟨n, _, run⟩, _⟩ := undone nestedCalls bracketed
  exact ⟨start, n, built, bracketed, run⟩

end ExactCover.Graph
