import ExactCover.Proofs.ForcedRows

/-! # What forced rows make of a graph

A graph notes the first node of each forced row, and the first forced row that clashes. Linking and
covering never read these notes, so a graph with forced rows is the graph without them, with the
columns of the rows before the first clash covered and the notes added.

Only those forced rows count that exist and set a column, and neither their order nor their number
matters.
-/

namespace ExactCover

namespace IncidenceMatrix

variable {matrix : IncidenceMatrix} {rows covered : List Nat} {row : Nat}

/-- The row exists and sets a column. -/
def SetsSome (matrix : IncidenceMatrix) (row : Nat) : Prop :=
  ∃ columns, matrix.row? row = some columns ∧ columns ≠ []

theorem setsSome_iff : matrix.SetsSome row ↔ matrix.rowAt row ≠ [] := by
  cases found : matrix.row? row with
  | none => simp [SetsSome, rowAt, found]
  | some columns => simp [SetsSome, rowAt, found]

theorem forcedRows_congr {forced other : List Nat}
    (same : ∀ row, matrix.SetsSome row → (row ∈ forced ↔ row ∈ other)) :
    matrix.forcedRows forced = matrix.forcedRows other := by
  apply List.filter_congr
  intro row _
  cases found : matrix.rowAt row with
  | nil => simp
  | cons column rest =>
      have proper : matrix.SetsSome row := setsSome_iff.mpr (found ▸ List.cons_ne_nil column rest)
      rw [Bool.eq_iff_iff]
      simp [same row proper]

theorem pairwise_forcedRows (forced : List Nat) : (matrix.forcedRows forced).Pairwise (· < ·) :=
  List.pairwise_lt_range.filter _

/-- A clash stops at the first row that shares a column with one before it. -/
theorem commitRows_split (stopped : (matrix.commitRows rows covered).2 = some row) :
    ∃ earlier later, rows = earlier ++ row :: later ∧ (matrix.commitRows earlier covered).2 = none ∧
      (matrix.commitRows rows covered).1 = (matrix.commitRows earlier covered).1 ∧
      ∃ column ∈ matrix.rowAt row, column ∈ (matrix.commitRows earlier covered).1 := by
  induction rows generalizing covered with
  | nil => simp [commitRows] at stopped
  | cons first rows ih =>
      simp only [commitRows] at stopped ⊢
      split at stopped
      · rename_i clash
        obtain rfl : first = row := by simpa using stopped
        refine ⟨[], rows, rfl, rfl, by rw [if_pos clash]; rfl, ?_⟩
        simpa [commitRows] using clash
      · rename_i clear
        obtain ⟨earlier, later, split, none, columns, shared⟩ := ih stopped
        refine ⟨first :: earlier, later, by rw [split, List.cons_append], ?_⟩
        simp only [commitRows, if_neg clear]
        exact ⟨none, columns, shared⟩

end IncidenceMatrix

namespace Graph

open IncidenceMatrix

variable {matrix : IncidenceMatrix} {forced other : List Nat}

/-! ### The notes of a graph -/

/-- The graph with what it notes of its forced rows changed. -/
def changeNotes (clues : List Node → List Node) (clash : Option Nat → Option Nat) (graph : Graph) :
    Graph :=
  { graph with clueNodes := clues graph.clueNodes, clash := clash graph.clash }

/-- What is done to the graph before every step of a loop may as well be done at its end, when it
    may be done after one step instead of before. -/
theorem foldlM_map {α : Type} {change : Graph → Graph} {step step' : Graph → α → Except Fault Graph}
    (one : ∀ graph x, step' (change graph) x = (step graph x).map change) (graph : Graph)
    (items : List α) : items.foldlM step' (change graph) = (items.foldlM step graph).map change := by
  induction items generalizing graph with
  | nil => rfl
  | cons item items ih =>
      rw [List.foldlM_cons, List.foldlM_cons, one]
      cases step graph item with
      | error fault => rfl
      | ok next => exact ih next

section ChangeNotes

variable (clues : List Node → List Node) (clash : Option Nat → Option Nat) (graph : Graph)

theorem detach_changeNotes (node : Node) : (graph.changeNotes clues clash).detach node =
    (graph.detach node).map (changeNotes clues clash) := by
  simp only [detach, changeNotes, headerOf, countOf, bind, Except.bind]
  cases graph.vertical.check node with
  | error fault => rfl
  | ok _ =>
      cases graph.headers[node]? with
      | none => rfl
      | some header =>
          cases found : graph.counts[header]? with
          | none => simp only [found, Except.map]
          | some count => cases count <;> simp only [found] <;> rfl

theorem hideRow_changeNotes (node : Node) : (graph.changeNotes clues clash).hideRow node =
    (graph.hideRow node).map (changeNotes clues clash) := by
  have mates : (graph.changeNotes clues clash).rowMates node = graph.rowMates node := rfl
  simp only [hideRow, mates, bind, Except.bind]
  cases graph.rowMates node with
  | error fault => rfl
  | ok nodes => exact foldlM_map (detach_changeNotes clues clash) graph nodes

/-- A cover neither reads nor writes what is noted of the forced rows. -/
theorem cover_changeNotes (header : Node) : (graph.changeNotes clues clash).cover header =
    (graph.cover header).map (changeNotes clues clash) := by
  have nodes : (graph.changeNotes clues clash).columnNodes header = graph.columnNodes header := rfl
  have unlinked : (graph.changeNotes clues clash).unlinkHeader header =
      (graph.unlinkHeader header).map (changeNotes clues clash) := by
    simp only [unlinkHeader, changeNotes, bind, Except.bind]
    cases graph.horizontal.check header <;> rfl
  simp only [cover, nodes, unlinked, bind, Except.bind]
  cases graph.columnNodes header with
  | error fault => rfl
  | ok nodes =>
      cases graph.unlinkHeader header with
      | error fault => rfl
      | ok next => exact foldlM_map (hideRow_changeNotes clues clash) next nodes

theorem coverAll_changeNotes (headers : List Node) :
    (graph.changeNotes clues clash).coverAll headers =
      (graph.coverAll headers).map (changeNotes clues clash) :=
  foldlM_map (cover_changeNotes clues clash) graph headers

theorem addEntry_changeNotes (row column : Nat) :
    (graph.changeNotes clues clash).addEntry row column =
      (graph.addEntry row column).map (changeNotes clues clash) := by
  simp only [addEntry, countUp, linkBelow, countOf, addNode, changeNotes, bind, Except.bind, size]
  cases graph.counts[header column]? with
  | none => rfl
  | some count =>
      simp only [pure, Except.pure]
      cases graph.vertical.alloc.check (graph.vertical.previousOf (header column)) with
      | error fault => rfl
      | ok _ => cases graph.vertical.alloc.check graph.horizontal.size <;> rfl

theorem linkRight_changeNotes (left node : Node) :
    (graph.changeNotes clues clash).linkRight left node =
      (graph.linkRight left node).map (changeNotes clues clash) := by
  simp only [linkRight, changeNotes, bind, Except.bind]
  cases graph.horizontal.check left with
  | error fault => rfl
  | ok _ => cases graph.horizontal.check node <;> rfl

theorem addEntriesAfter_changeNotes (row : Nat) (left : Node) (columns : List Nat) :
    addEntriesAfter row left columns (graph.changeNotes clues clash) =
      (addEntriesAfter row left columns graph).map (changeNotes clues clash) := by
  induction columns generalizing graph left with
  | nil => rfl
  | cons column columns ih =>
      have same : (graph.changeNotes clues clash).size = graph.size := rfl
      simp only [addEntriesAfter, addEntry_changeNotes, same, bind, Except.bind]
      cases graph.addEntry row column with
      | error fault => rfl
      | ok added =>
          simp only [Except.map, linkRight_changeNotes]
          cases added.linkRight left graph.size with
          | error fault => rfl
          | ok linked => exact ih linked graph.size

end ChangeNotes

/-- Apart from the notes, a row is linked as if it were not forced. -/
theorem addRow_changeNotes (graph : Graph) (forced : List Nat) (entry : List Nat × Nat) :
    addRow [] (graph.changeNotes (fun _ => []) id) entry =
      (addRow forced graph entry).map (changeNotes (fun _ => []) id) := by
  obtain ⟨columns, row⟩ := entry
  cases columns with
  | nil => rfl
  | cons column rest =>
      simp only [addRow, addEntry_changeNotes, bind, Except.bind]
      cases graph.addEntry row column with
      | error fault => rfl
      | ok added =>
          cases forced.contains row with
          | false => exact addEntriesAfter_changeNotes (fun _ => []) id added row graph.size rest
          | true =>
              exact addEntriesAfter_changeNotes (fun _ => []) id
                { added with clueNodes := added.clueNodes ++ [graph.size] } row graph.size rest

/-- Linking with forced rows gives the graph without them, with their first nodes noted. -/
theorem link_eq (matrix : IncidenceMatrix) : ∃ free, link matrix [] = .ok free ∧
    ∀ forced, link matrix forced =
      .ok { free with clueNodes := (matrix.forcedRows forced).map matrix.firstNode } := by
  obtain ⟨free, built, _, _, _, _⟩ := link_represents matrix []
  refine ⟨free, built, fun forced => ?_⟩
  obtain ⟨linked, run, _, clues, _, _⟩ := link_represents matrix forced
  obtain ⟨heads, headed, _, notes⟩ := addHeaders_linking matrix.columns matrix.columns
  have bare : heads.changeNotes (fun _ => []) id = heads := by
    simp only [Graph.notes, Prod.mk.injEq] at notes
    rw [changeNotes, ← notes.2.1]
    rfl
  have cleared : link matrix [] = (link matrix forced).map (changeNotes (fun _ => []) id) := by
    simp only [link, headed, bind, Except.bind]
    rw [← foldlM_map (addRow_changeNotes · forced), bare]
  rw [built, run] at cleared
  obtain rfl := Except.ok.inj cleared
  rw [run, ← clues]
  rfl

/-! ### Forced rows -/

/-- The graph is one without forced rows after covering the columns of some rows in turn, and no
    other column is covered. What it notes of forced rows is left aside. -/
structure Commits (graph free : Graph) (matrix : IncidenceMatrix) (rows : List Nat) : Prop where
  covers : free.coverAll ((rows.flatMap matrix.rowAt).map header) =
    .ok { graph with clueNodes := free.clueNodes, clash := free.clash }
  live : graph.liveHeaders =
    .ok (((List.range matrix.columns).filter (· ∉ rows.flatMap matrix.rowAt)).map header)

/-- What a graph with forced rows is, next to the one without. -/
structure TakesForced (graph free : Graph) (matrix : IncidenceMatrix) (forced : List Nat) :
    Prop where
  ascending : graph.clueRows.Pairwise (· < ·)
  mem_clueRows : ∀ row, row ∈ graph.clueRows ↔ row ∈ forced ∧ matrix.SetsSome row
  consistent_iff : graph.isConsistent = true ↔ matrix.Compatible graph.clueRows
  consistent : graph.isConsistent = true →
    graph.clash = free.clash ∧ graph.Commits free matrix graph.clueRows
  /-- Of rows that clash, those before the first that shares a column with an earlier one count. -/
  clashing : graph.isConsistent = false → ∃ earlier row later,
    graph.clueRows = earlier ++ row :: later ∧ matrix.Compatible earlier ∧
      (∃ column ∈ matrix.rowAt row, column ∈ earlier.flatMap matrix.rowAt) ∧
      graph.clash = some row ∧ graph.Commits free matrix earlier

theorem ofMatrix_nil (matrix : IncidenceMatrix) : ofMatrix matrix [] = link matrix [] := by
  obtain ⟨free, built, _, clues, _, _⟩ := link_represents matrix []
  have none : matrix.forcedRows [] = [] := by simp [forcedRows]
  rw [none, List.map_nil] at clues
  simp only [ofMatrix, built, clues, commitClues, bind, Except.bind]

/-- The columns that are committed for forced rows may be covered on the graph without them. -/
theorem ofMatrix_covers (matrix : IncidenceMatrix) : ∃ free, ofMatrix matrix [] = .ok free ∧
    free.clash = none ∧ ∀ forced, ∃ graph, ofMatrix matrix forced = .ok graph ∧
      graph.clueRows = matrix.forcedRows forced ∧
      graph.clash = (matrix.commitRows (matrix.forcedRows forced) []).2 ∧
      graph.Represents matrix (matrix.commitRows (matrix.forcedRows forced) []).1 ∧
      free.coverAll ((matrix.commitRows (matrix.forcedRows forced) []).1.map header) =
        .ok { graph with clueNodes := free.clueNodes, clash := free.clash } := by
  obtain ⟨free, built, links⟩ := link_eq matrix
  obtain ⟨_, built', _, clues, clear, _⟩ := link_represents matrix []
  obtain rfl := Except.ok.inj (built.symm.trans built')
  refine ⟨free, (ofMatrix_nil matrix).trans built, clear, fun forced => ?_⟩
  obtain ⟨linked, built', represents, clues', clear', _⟩ := link_represents matrix forced
  have linked_eq := Except.ok.inj (built'.symm.trans (links forced))
  have proper : ∀ row ∈ matrix.forcedRows forced, matrix.rowAt row ≠ [] :=
    fun row member => (mem_forcedRows.mp member).2
  obtain ⟨after, added, run, same, represents, labels, commits, _⟩ := commitClues_eq represents clear'
    (by simp : ∀ column, header column ∈ ([] : List Node) ↔ column ∈ ([] : List Nat)) proper
  have kept : after.clueNodes = (matrix.forcedRows forced).map matrix.firstNode :=
    (congrArg (·.2.2.2.1) labels).trans clues'
  refine ⟨{ after with clash := (matrix.commitRows (matrix.forcedRows forced) []).2 }, ?_,
    represents.clueRows_eq kept proper, rfl, same ▸ represents.withClash _, ?_⟩
  · simp only [ofMatrix, built', clues', bind, Except.bind]
    exact commits
  · have start : free = linked.changeNotes (fun _ => free.clueNodes) (fun _ => free.clash) := by
      rw [linked_eq]
      rfl
    rw [same, List.nil_append, start, coverAll_changeNotes, run]
    rfl

theorem ofMatrix_congr (same : matrix.forcedRows forced = matrix.forcedRows other) :
    ofMatrix matrix forced = ofMatrix matrix other := by
  obtain ⟨free, _, links⟩ := link_eq matrix
  simp only [ofMatrix, links, same]

/-- Forced rows count when they exist and set a column. A graph with forced rows is consistent when
    no two of these share a column, and then is the graph without any after covering their columns
    in turn; otherwise the rows up to the first clash are committed. Rows that do not count,
    repetitions and the order make no difference. -/
theorem forced_rows_committed (matrix : IncidenceMatrix) : ∃ free, ofMatrix matrix [] = .ok free ∧
    ∀ forced, ∃ graph, ofMatrix matrix forced = .ok graph ∧ graph.TakesForced free matrix forced ∧
      ∀ other, (∀ row, matrix.SetsSome row → (row ∈ forced ↔ row ∈ other)) →
        ofMatrix matrix other = .ok graph := by
  obtain ⟨free, bare, clear, all⟩ := ofMatrix_covers matrix
  refine ⟨free, bare, fun forced => ?_⟩
  obtain ⟨graph, built, clues, clash, represents, covers⟩ := all forced
  have live : graph.liveHeaders = .ok _ := represents.shows.root_ring.ring_eq
  have unite : ∀ {rows}, (matrix.commitRows rows []).2 = none →
      (matrix.commitRows rows []).1 = rows.flatMap matrix.rowAt := commitRows_fst
  refine ⟨graph, built, ?_, ?_⟩
  · constructor
    case ascending => exact clues ▸ pairwise_forcedRows forced
    case mem_clueRows =>
      intro row
      rw [clues, mem_forcedRows, setsSome_iff]
    case consistent_iff =>
      rw [isConsistent_iff, clash, commitRows_nil_iff, clues]
    case consistent =>
      intro consistent
      have none := isConsistent_iff.mp consistent
      rw [unite (clash.symm.trans none), ← clues] at covers live
      exact ⟨none.trans clear.symm, covers, live⟩
    case clashing =>
      intro inconsistent
      cases noted : (matrix.commitRows (matrix.forcedRows forced) []).2 with
      | none => simp [isConsistent, clash, noted] at inconsistent
      | some row =>
          obtain ⟨earlier, later, split, free_of_clash, columns, shared⟩ := commitRows_split noted
          rw [unite free_of_clash] at columns shared
          rw [columns] at covers live
          exact ⟨earlier, row, later, clues.trans split, commitRows_nil_iff.mp free_of_clash,
            shared, clash.trans noted, covers, live⟩
  · intro other same
    rw [← ofMatrix_congr (forcedRows_congr same), built]

end Graph

end ExactCover
