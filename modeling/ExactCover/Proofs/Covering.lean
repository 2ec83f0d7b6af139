import ExactCover.Proofs.Layout
import ExactCover.Proofs.LinkByLink

/-! # What covering does to a graph

A graph is described by its live columns and by the rows under each header. Every act of a search
changes this description in a simple way and can be undone exactly: afterwards each link and each
count is what it was before, and only the counter of updates has moved on.
-/

namespace ExactCover.Graph

open RingTable

/-- The graph with another count of updates. -/
def withUpdates (graph : Graph) (n : Nat) : Graph := { graph with updates := n }

/-- The parts of a graph that no cover and no undoing of one touches. -/
def labels (graph : Graph) : Array Node × Array (Option Nat) × Nat × List Node × Option Nat :=
  (graph.headers, graph.rowNumbers, graph.columns, graph.clueNodes, graph.clash)

theorem clueRows_congr {graph other : Graph} (same : graph.labels = other.labels) :
    graph.clueRows = other.clueRows := by
  have numbers : graph.rowNumbers = other.rowNumbers := congrArg (·.2.1) same
  have clues : graph.clueNodes = other.clueNodes := congrArg (·.2.2.2.1) same
  simp only [clueRows, numbers, clues]

theorem isConsistent_congr {graph other : Graph} (same : graph.labels = other.labels) :
    graph.isConsistent = other.isConsistent := by
  have clashes : graph.clash = other.clash := congrArg (·.2.2.2.2) same
  simp only [isConsistent, clashes]

theorem isConsistent_iff {graph : Graph} : graph.isConsistent = true ↔ graph.clash = none := by
  rw [isConsistent, Option.isNone_iff_eq_none]

/-- An act that succeeds, and whose undoing succeeds and gives back everything but the updates. -/
structure Reversible (act undo : Graph → Except Fault Graph) (cost : Nat)
    (before after : Graph) : Prop where
  forward : ∀ n, act (before.withUpdates n) = .ok (after.withUpdates (n + cost))
  back : ∀ n, undo (after.withUpdates n) = .ok (before.withUpdates n)
  labels : after.labels = before.labels

namespace Reversible

variable {act undo act' undo' : Graph → Except Fault Graph} {cost cost' : Nat}
  {first middle last : Graph}

theorem nothing (graph : Graph) : Reversible .ok .ok 0 graph graph :=
  ⟨fun _ => rfl, fun _ => rfl, rfl⟩

/-- Two acts in a row are undone in the opposite order. -/
theorem followedBy (one : Reversible act undo cost first middle)
    (two : Reversible act' undo' cost' middle last) :
    Reversible (fun graph => act graph >>= act') (fun graph => undo' graph >>= undo)
      (cost + cost') first last where
  forward n := by
    have ends := two.forward (n + cost)
    rw [Nat.add_assoc] at ends
    simp only [one.forward, bind, Except.bind, ends]
  back n := by simp only [two.back, bind, Except.bind, one.back]
  labels := two.labels.trans one.labels

theorem congr (h : Reversible act undo cost first last)
    (ahead : ∀ n, act' (first.withUpdates n) = act (first.withUpdates n))
    (behind : ∀ n, undo' (last.withUpdates n) = undo (last.withUpdates n)) :
    Reversible act' undo' cost first last :=
  ⟨fun n => (ahead n).trans (h.forward n), fun n => (behind n).trans (h.back n), h.labels⟩

/-- Steps over a list are undone by the opposite steps over the reversed list. -/
theorem cons {α : Type} {step back : Graph → α → Except Fault Graph} {x : α} {xs : List α}
    (one : Reversible (step · x) (back · x) cost first middle)
    (more : Reversible (xs.foldlM step ·) (xs.reverse.foldlM back ·) cost' middle last) :
    Reversible ((x :: xs).foldlM step ·) ((x :: xs).reverse.foldlM back ·) (cost + cost')
      first last := by
  refine (one.followedBy more).congr (fun n => by rw [List.foldlM_cons]) fun n => ?_
  simp only [List.reverse_cons, List.foldlM_append, List.foldlM_cons, List.foldlM_nil, bind_pure]

end Reversible

/-- An act and its undoing that are described link by link, and give back everything but the
    updates. -/
structure Undoable (act undo : Graph → Graph → Prop) (cost : Nat) (before after : Graph) : Prop where
  forward : ∀ n, act (before.withUpdates n) (after.withUpdates (n + cost))
  back : ∀ n, undo (after.withUpdates n) (before.withUpdates n)

/-- An act determines what it leads to, up to the updates. -/
theorem Reversible.after_eq {act undo undo' : Graph → Except Fault Graph} {cost : Nat}
    {before after other : Graph} (one : Reversible act undo cost before after)
    (two : Reversible act undo' cost before other) (n : Nat) :
    after.withUpdates n = other.withUpdates n := by
  have same := Except.ok.inj ((one.forward 0).symm.trans (two.forward 0))
  exact congrArg (·.withUpdates n) same

theorem Undoable.congr {act undo : Graph → Graph → Prop} {cost : Nat} {before after other : Graph}
    (h : Undoable act undo cost before after)
    (same : ∀ n, after.withUpdates n = other.withUpdates n) :
    Undoable act undo cost before other :=
  ⟨fun n => same _ ▸ h.forward n, fun n => same n ▸ h.back n⟩

/-- The rest of a loop around a ring, when it has come past some nodes, and the loop back. Whatever
    the way back leads to from those nodes, it leads to from the end of the ring. -/
structure Rounds (links : Graph → RingTable) (turn undo : Node → Graph → Graph → Prop)
    (stop : Node) (done nodes : List Node) (cost : Nat) (first last : Graph) : Prop where
  onward : ∀ n, Loop links turn stop (nodes.headD stop) (first.withUpdates n)
    (last.withUpdates (n + cost))
  back : ∀ n after,
    Loop (fun graph => (links graph).backward) undo stop (done.getLastD stop)
      (first.withUpdates n) after →
    Loop (fun graph => (links graph).backward) undo stop ((done ++ nodes).getLastD stop)
      (last.withUpdates n) after

namespace Rounds

variable {links : Graph → RingTable} {turn undo : Node → Graph → Graph → Prop} {stop : Node}
  {done nodes : List Node} {cost cost' : Nat} {first middle last : Graph}

theorem nil (done : List Node) (graph : Graph) :
    Rounds links turn undo stop done [] 0 graph graph where
  onward _ := .stop _
  back _ _ loop := (List.append_nil done).symm ▸ loop

/-- One more turn of a loop that leaves the ring it goes around as it is. -/
theorem cons {place : Nat → Node} {next : Nat} {before rest : List Nat}
    (more : Rounds links turn undo stop ((before ++ [next]).map place) (rest.map place) cost' middle
      last)
    (one : Undoable (turn (place next)) (undo (place next)) cost first middle)
    (plain : ∀ graph n, links (withUpdates graph n) = links graph)
    (ring : (links first).IsRing stop ((before ++ next :: rest).map place))
    (still : (links middle).IsRing stop ((before ++ next :: rest).map place)) :
    Rounds links turn undo stop (before.map place) ((next :: rest).map place) (cost + cost') first
      last := by
  have differs : place next ≠ stop :=
    fun same => (List.nodup_cons.mp ring.distinct).1 (same ▸ by simp)
  rw [List.map_append, List.map_cons] at ring still
  rw [List.map_append, List.map_singleton] at more
  have ahead := nextOf_of_path (path_append.mp still.path).2
  have behind := previousOf_of_path (path_append.mp ring.path).1
  constructor
  · intro n
    refine .turn differs (one.forward n) ?_ ?_
    · rw [plain]
      exact still.inside _ (by simp)
    · rw [List.map_cons, List.headD_cons, plain, ahead, ← Nat.add_assoc]
      exact more.onward (n + cost)
  · intro n after loop
    have back := more.back n after
    rw [List.getLastD_concat, List.append_assoc, List.singleton_append] at back
    apply back
    refine .turn differs (one.back n) ?_ ?_
    · rw [size_backward, plain]
      exact ring.inside _ (by simp)
    · rw [nextOf_backward, plain, behind]
      exact loop

/-- A loop around a whole ring, and the loop back. -/
theorem around (h : Rounds links turn undo stop [] nodes cost first last)
    (plain : ∀ graph n, links (withUpdates graph n) = links graph)
    (ring : (links first).IsRing stop nodes) (still : (links last).IsRing stop nodes) :
    Undoable (Around links turn stop) (Around (fun graph => (links graph).backward) undo stop) cost
      first last where
  forward n := by
    constructor
    · rw [plain]
      exact ring.held_start.inside
    · rw [plain, nextOf_of_path ring.path]
      exact h.onward n
  back n := by
    constructor
    · rw [size_backward, plain]
      exact still.held_start.inside
    · rw [nextOf_backward, plain, previousOf_of_path still.path]
      exact h.back n _ (.stop _)

end Rounds

/-- The live columns in the order of their ring, the rows under each header from the top, and the
    nodes and labels that the layout calls for. -/
structure Shows (graph : Graph) (layout : Layout) (live : List Nat) (rows : Nat → List Nat) :
    Prop where
  horizontal_size : graph.horizontal.size = layout.size
  vertical_size : graph.vertical.size = layout.size
  headers : ∀ {row column}, (row, column) ∈ layout.entries →
    graph.headers[layout.node row column]? = some (header column)
  rowNumbers : ∀ {row column}, (row, column) ∈ layout.entries →
    graph.rowNumbers[layout.node row column]? = some (some row)
  live_inside : ∀ column ∈ live, column < layout.columns
  rows_inside : ∀ {row column}, row ∈ rows column → (row, column) ∈ layout.entries
  root_ring : graph.horizontal.IsRing root (live.map header)
  row_ring : ∀ {row first rest}, layout.columnsOf row = first :: rest →
    graph.horizontal.IsRing (layout.node row first) (rest.map (layout.node row))
  column_ring : ∀ {column}, column < layout.columns →
    graph.vertical.IsRing (header column) ((rows column).map (layout.node · column))
  counts : ∀ {column}, column < layout.columns →
    graph.counts[header column]? = some (rows column).length

namespace Shows

variable {graph after : Graph} {layout : Layout} {live : List Nat} {rows : Nat → List Nat}
  {row column : Nat}

theorem withUpdates (h : graph.Shows layout live rows) (n : Nat) :
    (graph.withUpdates n).Shows layout live rows :=
  ⟨h.horizontal_size, h.vertical_size, h.headers, h.rowNumbers, h.live_inside, h.rows_inside,
    h.root_ring, h.row_ring, h.column_ring, h.counts⟩

theorem column_lt (h : graph.Shows layout live rows) (member : row ∈ rows column) :
    column < layout.columns :=
  layout.inside _ (h.rows_inside member)

theorem nodup_rows (h : graph.Shows layout live rows) : (rows column).Nodup := by
  by_cases below : column < layout.columns
  · exact List.Nodup.of_map _ (List.nodup_cons.mp (h.column_ring below).distinct).2
  · have none : rows column = [] :=
      List.eq_nil_iff_forall_not_mem.mpr fun row member => below (h.column_lt member)
    simp [none]

theorem nodup_live (h : graph.Shows layout live rows) : live.Nodup :=
  List.Nodup.of_map _ (List.nodup_cons.mp h.root_ring.distinct).2

/-- The ring of a row, seen from any of its nodes. -/
theorem row_ring_from (h : graph.Shows layout live rows) {left right : List Nat}
    (split : layout.columnsOf row = left ++ column :: right) :
    graph.horizontal.IsRing (layout.node row column) ((right ++ left).map (layout.node row)) := by
  cases left with
  | nil => simpa using h.row_ring split
  | cons first left =>
      have whole := h.row_ring (split.trans List.cons_append)
      rw [List.map_append] at whole
      simpa using whole.rotate

/-- Rings of different columns have no node in common. -/
theorem apart_of_ne (h : graph.Shows layout live rows) {j : Nat} (hc : column < layout.columns)
    (hj : j < layout.columns) (differs : column ≠ j) :
    List.Disjoint (header column :: (rows column).map (layout.node · column))
      (header j :: (rows j).map (layout.node · j)) := by
  intro x first second
  rcases List.mem_cons.mp first with rfl | first
  · rcases List.mem_cons.mp second with same | second
    · exact differs (Nat.succ.inj same)
    · obtain ⟨i, _, same⟩ := List.mem_map.mp second
      exact Nat.ne_of_gt (layout.header_lt_node hc) same
  · obtain ⟨i, hi, rfl⟩ := List.mem_map.mp first
    rcases List.mem_cons.mp second with same | second
    · exact Nat.ne_of_gt (layout.header_lt_node hj) same
    · obtain ⟨i', hi', same⟩ := List.mem_map.mp second
      exact differs (Layout.node_inj (h.rows_inside hi') same).2.symm

/-- The ring of a row has no node in common with the ring of the live headers. -/
theorem apart_of_root (h : graph.Shows layout live rows) {nodes : List Nat} {start : Nat} :
    List.Disjoint (root :: live.map header) (layout.node row start :: nodes.map (layout.node row)) := by
  intro x first second
  obtain ⟨j, rfl⟩ : ∃ j, x = layout.node row j := by
    rcases List.mem_cons.mp second with rfl | second
    · exact ⟨_, rfl⟩
    · obtain ⟨j, _, rfl⟩ := List.mem_map.mp second
      exact ⟨_, rfl⟩
  rcases List.mem_cons.mp first with same | first
  · exact Nat.ne_of_gt layout.root_lt_node same
  · obtain ⟨column, member, same⟩ := List.mem_map.mp first
    exact Nat.ne_of_lt (layout.header_lt_node (h.live_inside column member)) same

theorem held_node (h : graph.Shows layout live rows) (member : row ∈ rows column) :
    graph.vertical.Held (layout.node row column) :=
  (h.column_ring (h.column_lt member)).held
    (List.mem_cons_of_mem _ (List.mem_map.mpr ⟨row, member, rfl⟩))

end Shows

/-! ### One node -/

section

variable {graph : Graph} {layout : Layout} {live : List Nat} {rows : Nat → List Nat}
  {row column : Nat}

/-- The rows under the headers when some columns have lost a row. -/
def dropRow (rows : Nat → List Nat) (row : Nat) (columns : List Nat) (column : Nat) : List Nat :=
  if column ∈ columns then (rows column).filter (· ≠ row) else rows column

theorem filter_ne_of_split {left right : List Nat} (h : (left ++ row :: right).Nodup) :
    (left ++ row :: right).filter (· ≠ row) = left ++ right := by
  have parts := List.nodup_middle.mp h
  rw [List.nodup_cons, List.mem_append, not_or] at parts
  have keep : ∀ side : List Nat, row ∉ side → side.filter (· ≠ row) = side := by
    intro side absent
    refine List.filter_eq_self.mpr fun x hx => ?_
    simpa using fun same : x = row => absent (same ▸ hx)
  simp only [List.filter_append, List.filter_cons, ne_eq, not_true_eq_false, decide_false,
    Bool.false_eq_true, if_false]
  exact congrArg₂ (· ++ ·) (keep left parts.1.1) (keep right parts.1.2)

theorem dropRow_self {left right : List Nat} (split : rows column = left ++ row :: right)
    (distinct : (rows column).Nodup) : dropRow rows row [column] column = left ++ right := by
  simp only [dropRow, List.mem_singleton, if_true]
  exact split ▸ filter_ne_of_split (split ▸ distinct)

theorem dropRow_of_notMem {columns : List Nat} (h : column ∉ columns) :
    dropRow rows row columns column = rows column :=
  if_neg h

theorem dropRow_subset {columns : List Nat} : dropRow rows row columns column ⊆ rows column := by
  unfold dropRow
  split
  · exact List.filter_subset_self _
  · exact List.Subset.refl _

theorem detach_reversible (h : graph.Shows layout live rows) (member : row ∈ rows column) :
    ∃ after, Reversible (detach · (layout.node row column)) (attach · (layout.node row column)) 1
      graph after ∧ after.Shows layout live (dropRow rows row [column]) := by
  have below := h.column_lt member
  have held := h.held_node member
  have inside := h.rows_inside member
  obtain ⟨left, right, split⟩ := List.append_of_mem member
  have total : (rows column).length = (left ++ right).length + 1 := by simp [split]; omega
  have counted : graph.counts[header column]? = some ((left ++ right).length + 1) :=
    total ▸ h.counts below
  refine ⟨{ graph with
    vertical := graph.vertical.unlink (layout.node row column)
    counts := graph.counts.setIfInBounds (header column) (left ++ right).length }, ⟨?_, ?_, rfl⟩, ?_⟩
  · intro n
    simp only [detach, withUpdates, held.check_eq_ok, headerOf, h.headers inside, countOf, counted,
      bind, Except.bind, pure, Except.pure]
  · intro n
    have place : header column < graph.counts.size := (Array.getElem?_eq_some_iff.mp counted).1
    simp only [attach, withUpdates, check_unlink_self held, headerOf, h.headers inside, countOf,
      Array.getElem?_setIfInBounds_self_of_lt place, bind, Except.bind, pure, Except.pure,
      relink_unlink held, Array.setIfInBounds_setIfInBounds]
    rw [setIfInBounds_same fun found hf => Option.some.inj (hf.symm.trans counted)]
  · refine { h with
      vertical_size := (size_unlink _ _).trans h.vertical_size
      rows_inside := ?_
      column_ring := ?_
      counts := ?_ }
    · exact fun hi => h.rows_inside (dropRow_subset hi)
    · intro j hj
      have ring := h.column_ring hj
      by_cases same : j = column
      · subst same
        rw [dropRow_self split h.nodup_rows]
        rw [split, List.map_append, List.map_cons] at ring
        simpa using ring.unlink
      · rw [dropRow_of_notMem (by simpa using same)]
        exact ring.unlink_other (h.column_ring below)
          (List.mem_cons_of_mem _ (List.mem_map.mpr ⟨row, member, rfl⟩))
          (h.apart_of_ne below hj (Ne.symm same))
    · intro j hj
      by_cases same : j = column
      · subst same
        have place := (Array.getElem?_eq_some_iff.mp counted).1
        rw [dropRow_self split h.nodup_rows]
        exact Array.getElem?_setIfInBounds_self_of_lt place
      · have apart : header column ≠ header j := fun eq => same (Nat.succ.inj eq).symm
        rw [dropRow_of_notMem (by simpa using same)]
        exact (Array.getElem?_setIfInBounds_ne apart).trans (h.counts hj)

theorem dropRow_cons (columns : List Nat) :
    dropRow (dropRow rows row [column]) row columns = dropRow rows row (column :: columns) := by
  funext j
  by_cases here : j = column <;> by_cases later : j ∈ columns <;>
    simp [dropRow, here, later, List.filter_filter]

/-- Taking a row out of the columns of the nodes that follow in the ring of the row. -/
theorem detachAll_reversible (h : graph.Shows layout live rows) {left right done columns : List Nat}
    (split : layout.columnsOf row = left ++ column :: right) (ring : done ++ columns = right ++ left)
    (members : ∀ j ∈ columns, row ∈ rows j) :
    ∃ after, Reversible ((columns.map (layout.node row)).foldlM detach ·)
        ((columns.map (layout.node row)).reverse.foldlM attach ·) columns.length graph after ∧
      Rounds horizontal Detaches Attaches (layout.node row column) (done.map (layout.node row))
        (columns.map (layout.node row)) columns.length graph after ∧
      after.Shows layout live (dropRow rows row columns) := by
  induction columns generalizing graph rows done with
  | nil =>
      have same : dropRow rows row [] = rows := funext fun j => dropRow_of_notMem List.not_mem_nil
      exact ⟨graph, .nothing graph, .nil _ graph, same.symm ▸ h⟩
  | cons next columns ih =>
      have distinct : (right ++ left).Nodup :=
        List.nodup_append_comm.mp (List.nodup_cons.mp (List.nodup_middle.mp
          (split ▸ layout.nodup_columnsOf))).2
      have absent : next ∉ columns :=
        (List.nodup_cons.mp (List.nodup_append.mp (ring ▸ distinct)).2.1).1
      obtain ⟨middle, one, shows⟩ := detach_reversible h (members next List.mem_cons_self)
      have remain : ∀ j ∈ columns, row ∈ dropRow rows row [next] j := by
        intro j hj
        have differs : j ∉ [next] := by simpa using fun same : j = next => absent (same ▸ hj)
        exact dropRow_of_notMem differs ▸ members j (List.mem_cons_of_mem next hj)
      have further : (done ++ [next]) ++ columns = right ++ left := by simpa using ring
      obtain ⟨after, more, rounds, shows'⟩ := ih shows further remain
      have turned : Undoable (Detaches (layout.node row next)) (Attaches (layout.node row next)) 1
          graph middle :=
        ⟨fun n => ⟨Nat.ne_of_gt layout.root_lt_node, one.forward n⟩, one.back⟩
      have rounds := rounds.cons turned (fun _ _ => rfl) (ring ▸ h.row_ring_from split)
        (ring ▸ shows.row_ring_from split)
      rw [List.length_cons, Nat.add_comm]
      exact ⟨after, one.cons more, rounds, dropRow_cons columns ▸ shows'⟩

/-! ### One row -/

/-- The rows under the headers when some rows of a column have been taken out of all others. -/
def hideRows (rows : Nat → List Nat) (column : Nat) (hidden : List Nat) (j : Nat) : List Nat :=
  if j = column then rows j else (rows j).filter (· ∉ hidden)

theorem rowMates_eq (h : graph.Shows layout live rows) {left right : List Nat}
    (split : layout.columnsOf row = left ++ column :: right) :
    graph.rowMates (layout.node row column) = .ok ((right ++ left).map (layout.node row)) :=
  (h.row_ring_from split).ring_eq

theorem rowMatesBack_eq (h : graph.Shows layout live rows) {left right : List Nat}
    (split : layout.columnsOf row = left ++ column :: right) :
    graph.rowMatesBack (layout.node row column) =
      .ok ((right ++ left).map (layout.node row)).reverse :=
  (h.row_ring_from split).backward.ring_eq

/-- Every row under a header also stands under the other columns that it sets. -/
def Whole (layout : Layout) (rows : Nat → List Nat) (column : Nat) (members : List Nat) : Prop :=
  ∀ row ∈ members, ∀ j ∈ layout.columnsOf row, j ≠ column → row ∈ rows j

theorem hideRow_reversible (h : graph.Shows layout live rows) (member : row ∈ rows column)
    (whole : Whole layout rows column [row]) :
    ∃ after, Reversible (hideRow · (layout.node row column)) (showRow · (layout.node row column))
        ((layout.columnsOf row).length - 1) graph after ∧
      Undoable (HidesRow (layout.node row column)) (ShowsRow (layout.node row column))
        ((layout.columnsOf row).length - 1) graph after ∧
      after.Shows layout live (hideRows rows column [row]) := by
  have here : column ∈ layout.columnsOf row := Layout.mem_columnsOf.mpr (h.rows_inside member)
  obtain ⟨left, right, split⟩ := List.append_of_mem here
  have absent : column ∉ left ++ right :=
    (List.nodup_cons.mp (List.nodup_middle.mp (split ▸ layout.nodup_columnsOf))).1
  have swapped : ∀ j, j ∈ right ++ left ↔ j ∈ layout.columnsOf row ∧ j ≠ column := by
    intro j
    rw [split]
    have : j ∈ left ++ right → j ≠ column := fun hj same => absent (same ▸ hj)
    simp at this ⊢
    tauto
  obtain ⟨after, turned, rounds, shows⟩ := detachAll_reversible h split (List.nil_append _)
    fun j hj => whole row (List.mem_singleton_self row) j ((swapped j).mp hj).1 ((swapped j).mp hj).2
  have same : dropRow rows row (right ++ left) = hideRows rows column [row] := by
    funext j
    by_cases met : j ∈ right ++ left
    · simp [dropRow, hideRows, met, ((swapped j).mp met).2]
    · rw [dropRow_of_notMem met, hideRows]
      split
      · rfl
      · rename_i here
        refine (List.filter_eq_self.mpr fun i hi => ?_).symm
        have apart : i ≠ row := fun eq => met ((swapped j).mpr
          ⟨Layout.mem_columnsOf.mpr (eq ▸ h.rows_inside hi), here⟩)
        simpa using apart
  have length : (layout.columnsOf row).length - 1 = (right ++ left).length := by
    simp only [split, List.length_append, List.length_cons]
    omega
  rw [length]
  refine ⟨after, ?_, rounds.around (fun _ _ => rfl) (h.row_ring_from split)
    (shows.row_ring_from split), same ▸ shows⟩
  refine turned.congr (fun n => ?_) fun n => ?_
  · simp only [hideRow, rowMates_eq (h.withUpdates n) split, bind, Except.bind]
  · simp only [showRow, rowMatesBack_eq (shows.withUpdates n) split, bind, Except.bind]

theorem hideRows_cons (hidden : List Nat) :
    hideRows (hideRows rows column [row]) column hidden = hideRows rows column (row :: hidden) := by
  funext j
  by_cases here : j = column
  · simp [hideRows, here]
  · simp only [hideRows, if_neg here, List.filter_filter]
    refine List.filter_congr fun i _ => ?_
    simp [Bool.and_comm]

/-- Hiding the rows of the nodes that follow in the ring of a column. -/
theorem hideAll_reversible (h : graph.Shows layout live rows) (below : column < layout.columns)
    {done hidden : List Nat} (ring : rows column = done ++ hidden)
    (whole : Whole layout rows column hidden) :
    ∃ after, Reversible ((hidden.map (layout.node · column)).foldlM hideRow ·)
        ((hidden.map (layout.node · column)).reverse.foldlM showRow ·)
        (hidden.map fun row => (layout.columnsOf row).length - 1).sum graph after ∧
      Rounds vertical HidesRow ShowsRow (header column) (done.map (layout.node · column))
        (hidden.map (layout.node · column))
        (hidden.map fun row => (layout.columnsOf row).length - 1).sum graph after ∧
      after.Shows layout live (hideRows rows column hidden) := by
  induction hidden generalizing graph rows done with
  | nil =>
      have same : hideRows rows column [] = rows := funext fun j => by simp [hideRows]
      exact ⟨graph, .nothing graph, .nil _ graph, same.symm ▸ h⟩
  | cons row hidden ih =>
      have member : row ∈ rows column := by simp [ring]
      have absent : row ∉ hidden :=
        (List.nodup_cons.mp (List.nodup_append.mp (ring ▸ h.nodup_rows)).2.1).1
      obtain ⟨middle, one, turned, shows⟩ := hideRow_reversible h member
        (fun i hi => whole i (List.mem_singleton.mp hi ▸ List.mem_cons_self))
      have own : hideRows rows column [row] column = rows column := if_pos rfl
      have further : hideRows rows column [row] column = (done ++ [row]) ++ hidden := by
        rw [own, ring, List.append_assoc, List.singleton_append]
      have remain : Whole layout (hideRows rows column [row]) column hidden := by
        intro i hi j hj differs
        have apart : i ≠ row := fun same => absent (same ▸ hi)
        simpa [hideRows, differs, apart] using whole i (List.mem_cons_of_mem row hi) j hj differs
      obtain ⟨after, more, rounds, shows'⟩ := ih shows further remain
      have still := shows.column_ring below
      rw [own] at still
      have rounds :=
        rounds.cons turned (fun _ _ => rfl) (ring ▸ h.column_ring below) (ring ▸ still)
      exact ⟨after, one.cons more, rounds, hideRows_cons hidden ▸ shows'⟩

/-! ### One column -/

theorem unlinkHeader_reversible (h : graph.Shows layout live rows) (alive : column ∈ live) :
    ∃ after, Reversible (unlinkHeader · (header column)) (relinkHeader · (header column)) 0
      graph after ∧ after.Shows layout (live.filter (· ≠ column)) rows := by
  obtain ⟨left, right, split⟩ := List.append_of_mem alive
  have held := h.root_ring.held
    (List.mem_cons_of_mem _ (List.mem_map.mpr ⟨column, alive, rfl⟩))
  have shorter : live.filter (· ≠ column) = left ++ right :=
    split ▸ filter_ne_of_split (split ▸ h.nodup_live)
  refine ⟨{ graph with horizontal := graph.horizontal.unlink (header column) }, ⟨?_, ?_, rfl⟩, ?_⟩
  · intro n
    simp only [unlinkHeader, withUpdates, held.check_eq_ok, bind, Except.bind, pure, Except.pure,
      Nat.add_zero]
  · intro n
    simp only [relinkHeader, withUpdates, check_unlink_self held, relink_unlink held, bind,
      Except.bind, pure, Except.pure]
  · refine { h with
      horizontal_size := (size_unlink _ _).trans h.horizontal_size
      live_inside := fun j hj => h.live_inside j (List.mem_of_mem_filter hj)
      root_ring := ?_
      row_ring := ?_ }
    · have ring := h.root_ring
      rw [split, List.map_append, List.map_cons] at ring
      rw [shorter, List.map_append]
      exact ring.unlink
    · intro i first rest found
      exact (h.row_ring found).unlink_other h.root_ring
        (List.mem_cons_of_mem _ (List.mem_map.mpr ⟨column, alive, rfl⟩)) h.apart_of_root

theorem columnNodes_eq (h : graph.Shows layout live rows) (below : column < layout.columns) :
    graph.columnNodes (header column) = .ok ((rows column).map (layout.node · column)) :=
  (h.column_ring below).ring_eq

theorem columnNodesUp_eq (h : graph.Shows layout live rows) (below : column < layout.columns) :
    graph.columnNodesUp (header column) =
      .ok ((rows column).map (layout.node · column)).reverse :=
  (h.column_ring below).backward.ring_eq

/-- Covering a live column takes its header out of the live ones and its rows out of all other
    columns; its own ring stays as it is. -/
theorem cover_reversible (h : graph.Shows layout live rows) (alive : column ∈ live)
    (whole : Whole layout rows column (rows column)) :
    ∃ after, Reversible (cover · (header column)) (uncover · (header column))
        ((rows column).map fun row => (layout.columnsOf row).length - 1).sum graph after ∧
      Undoable (Covers (header column)) (Uncovers (header column))
        ((rows column).map fun row => (layout.columnsOf row).length - 1).sum graph after ∧
      after.Shows layout (live.filter (· ≠ column)) (hideRows rows column (rows column)) := by
  have below := h.live_inside column alive
  obtain ⟨middle, one, shows⟩ := unlinkHeader_reversible h alive
  obtain ⟨after, two, rounds, shows'⟩ :=
    hideAll_reversible shows below (List.nil_append _).symm whole
  have own : hideRows rows column (rows column) column = rows column := if_pos rfl
  have still := shows'.column_ring below
  rw [own] at still
  have around := rounds.around (fun _ _ => rfl) (shows.column_ring below) still
  refine ⟨after, ?_, ⟨fun n => ?_, fun n => ?_⟩, shows'⟩
  · rw [← Nat.zero_add (List.sum _)]
    refine (one.followedBy two).congr (fun n => ?_) fun n => ?_
    · simp only [cover, columnNodes_eq (h.withUpdates n) below, bind, Except.bind]
    · simp only [uncover, columnNodesUp_eq (shows'.withUpdates n) below, own, bind, Except.bind]
  · have listed : header column ∈ live.map header := List.mem_map.mpr ⟨column, alive, rfl⟩
    exact ⟨⟨_, h.root_ring.ring_eq, listed⟩, Nat.succ_ne_zero column, _, one.forward n,
      around.forward n⟩
  · exact ⟨_, around.back n, one.back n⟩

end

end ExactCover.Graph
