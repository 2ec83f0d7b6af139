import ExactCover.Graph
import ExactCover.IncidenceMatrix
import Mathlib

/-! # Where the nodes of a matrix stand

A graph numbers its nodes in the order in which they are added: the root, a header for every
column, and then the set entries of the matrix row by row. A layout lists these entries. It says
which node belongs to an entry, and, while a graph is being built, which entries have a node yet.
-/

namespace ExactCover

/-- The entries that have nodes, each as its row and its column, in the order of the nodes. -/
@[ext]
structure Layout where
  /-- The number of columns that have headers. -/
  columns : Nat
  /-- The row and the column of every entry. -/
  entries : List (Nat × Nat)
  /-- No entry has two nodes. -/
  distinct : entries.Nodup
  /-- The column of every entry has a header. -/
  inside : ∀ entry ∈ entries, entry.2 < columns

namespace Layout

variable {layout : Layout} {row column : Nat}

/-- The number of nodes of all kinds. -/
def size (layout : Layout) : Nat := layout.columns + 1 + layout.entries.length

/-- The node of an entry. -/
def node (layout : Layout) (row column : Nat) : Node :=
  layout.columns + 1 + layout.entries.idxOf (row, column)

/-- The columns of the entries of a row. -/
def columnsOf (layout : Layout) (row : Nat) : List Nat :=
  (layout.entries.filter (·.1 = row)).map (·.2)

/-- The rows of the entries of a column. -/
def rowsOf (layout : Layout) (column : Nat) : List Nat :=
  (layout.entries.filter (·.2 = column)).map (·.1)

theorem mem_columnsOf : column ∈ layout.columnsOf row ↔ (row, column) ∈ layout.entries := by
  simp [columnsOf]

theorem mem_rowsOf : row ∈ layout.rowsOf column ↔ (row, column) ∈ layout.entries := by
  simp [rowsOf]

theorem nodup_columnsOf : (layout.columnsOf row).Nodup := by
  refine List.Nodup.map_on ?_ (layout.distinct.filter _)
  intro x hx y hy same
  simp only [List.mem_filter, decide_eq_true_eq] at hx hy
  exact Prod.ext (hx.2.trans hy.2.symm) same

theorem node_lt_size (h : (row, column) ∈ layout.entries) :
    layout.node row column < layout.size := by
  have place := List.idxOf_lt_length_of_mem h
  exact Nat.add_lt_add_left place (layout.columns + 1)

theorem header_lt_node {j : Nat} (h : j < layout.columns) :
    Graph.header j < layout.node row column :=
  Nat.lt_of_lt_of_le (Nat.succ_lt_succ h) (Nat.le_add_right _ _)

theorem root_lt_node : Graph.root < layout.node row column :=
  Nat.lt_of_lt_of_le (Nat.succ_pos layout.columns) (Nat.le_add_right _ _)

theorem node_inj {row' column' : Nat} (h : (row, column) ∈ layout.entries)
    (same : layout.node row column = layout.node row' column') :
    row = row' ∧ column = column' := by
  have places : layout.entries.idxOf (row, column) = layout.entries.idxOf (row', column') :=
    Nat.add_left_cancel same
  simpa using (List.idxOf_inj h).mp places

theorem disjoint_rows {i : Nat} {columns others : List Nat} (differs : row ≠ i)
    (members : columns ⊆ layout.columnsOf row) :
    List.Disjoint (columns.map (layout.node row)) (others.map (layout.node i)) := by
  intro x first second
  obtain ⟨j, hj, rfl⟩ := List.mem_map.mp first
  obtain ⟨k, _, same⟩ := List.mem_map.mp second
  exact differs (node_inj (mem_columnsOf.mp (members hj)) same.symm).1

/-- The layout with one more entry at the end. -/
def push (layout : Layout) (row column : Nat) (fresh : (row, column) ∉ layout.entries)
    (h : column < layout.columns) : Layout where
  columns := layout.columns
  entries := layout.entries ++ [(row, column)]
  distinct := by
    have := layout.distinct
    simp only [List.nodup_append, List.nodup_singleton, List.mem_singleton]
    exact ⟨this, trivial, fun entry member _ last same => fresh (last ▸ same ▸ member)⟩
  inside := by
    intro entry member
    rcases List.mem_append.mp member with old | new
    · exact layout.inside entry old
    · exact List.mem_singleton.mp new ▸ h

section Push

variable {fresh : (row, column) ∉ layout.entries} {h : column < layout.columns}

theorem size_push : (layout.push row column fresh h).size = layout.size + 1 := by
  simp [size, push, Nat.add_assoc]

theorem node_push_of_mem {i j : Nat} (member : (i, j) ∈ layout.entries) :
    (layout.push row column fresh h).node i j = layout.node i j := by
  simp only [node, push, List.idxOf_append, if_pos member]

theorem node_push_self : (layout.push row column fresh h).node row column = layout.size := by
  simp [node, push, size, List.idxOf_append, if_neg fresh]

theorem columnsOf_push (i : Nat) : (layout.push row column fresh h).columnsOf i =
    layout.columnsOf i ++ if row = i then [column] else [] := by
  simp only [columnsOf, push, List.filter_append, List.map_append, List.filter_cons]
  by_cases same : row = i <;> simp [same]

theorem rowsOf_push (j : Nat) : (layout.push row column fresh h).rowsOf j =
    layout.rowsOf j ++ if column = j then [row] else [] := by
  simp only [rowsOf, push, List.filter_append, List.map_append, List.filter_cons]
  by_cases same : column = j <;> simp [same]

end Push

end Layout

namespace IncidenceMatrix

variable {matrix : IncidenceMatrix} {row column : Nat}

/-- The set columns of a row; none where there is no row. -/
def rowAt (matrix : IncidenceMatrix) (row : Nat) : List Nat := (matrix.row? row).getD []

theorem mem_rowAt : column ∈ matrix.rowAt row ↔ matrix.get row column = true := by
  cases h : matrix.row? row <;> simp [rowAt, get_eq, h]

theorem pairwise_rowAt (row : Nat) : (matrix.rowAt row).Pairwise (· < ·) := by
  cases h : matrix.row? row with
  | none => simp [rowAt, h]
  | some found => simpa [rowAt, h] using matrix.ascending found (Array.mem_of_getElem? h)

theorem nodup_rowAt (row : Nat) : (matrix.rowAt row).Nodup :=
  (pairwise_rowAt row).imp Nat.ne_of_lt

theorem get_inside (h : matrix.get row column = true) : row < matrix.size ∧ column < matrix.columns := by
  cases found : matrix.row? row with
  | none => simp [get_eq, found] at h
  | some columns =>
      have member := Array.mem_of_getElem? found
      have here : column ∈ columns := by simpa [get_eq, found] using h
      exact ⟨(Array.getElem?_eq_some_iff.mp found).1, matrix.inside columns member column here⟩

/-- The entries of the first rows, row by row. -/
def entriesBelow (matrix : IncidenceMatrix) (count : Nat) : List (Nat × Nat) :=
  (List.range count).flatMap fun row => (matrix.rowAt row).map (row, ·)

theorem mem_entriesBelow {count : Nat} {entry : Nat × Nat} :
    entry ∈ matrix.entriesBelow count ↔
      entry.1 < count ∧ matrix.get entry.1 entry.2 = true := by
  simp only [entriesBelow, List.mem_flatMap, List.mem_range, List.mem_map, mem_rowAt]
  constructor
  · rintro ⟨row, below, column, set, rfl⟩
    exact ⟨below, set⟩
  · rintro ⟨below, set⟩
    exact ⟨entry.1, below, entry.2, set, rfl⟩

/-- The layout of the headers and the first rows. -/
def layoutBelow (matrix : IncidenceMatrix) (count : Nat) : Layout where
  columns := matrix.columns
  entries := matrix.entriesBelow count
  distinct := by
    refine List.nodup_flatMap.mpr ⟨fun row _ => (nodup_rowAt row).map ?_, ?_⟩
    · exact fun x y same => (Prod.mk.inj same).2
    · refine List.nodup_range.imp fun differs => ?_
      intro entry first second
      obtain ⟨_, _, rfl⟩ := List.mem_map.mp first
      obtain ⟨_, _, same⟩ := List.mem_map.mp second
      exact differs (Prod.mk.inj same).1.symm
  inside := fun _ member => (get_inside (mem_entriesBelow.mp member).2).2

/-- The layout of all entries of a matrix. -/
def layout (matrix : IncidenceMatrix) : Layout := matrix.layoutBelow matrix.size

theorem mem_entries : (row, column) ∈ matrix.layout.entries ↔ matrix.get row column = true := by
  refine mem_entriesBelow.trans ⟨And.right, fun set => ⟨(get_inside set).1, set⟩⟩

theorem entriesBelow_succ (count : Nat) : matrix.entriesBelow (count + 1) =
    matrix.entriesBelow count ++ (matrix.rowAt count).map (count, ·) := by
  simp [entriesBelow, List.range_succ]

theorem columnsOf_layoutBelow (count : Nat) : (matrix.layoutBelow count).columnsOf row =
    if row < count then matrix.rowAt row else [] := by
  simp only [Layout.columnsOf, layoutBelow]
  induction count with
  | zero => simp [entriesBelow]
  | succ count ih =>
      rw [entriesBelow_succ, List.filter_append, List.map_append, ih]
      by_cases same : count = row
      · subst same
        simp [List.filter_map, Function.comp_def]
      · have within : row < count + 1 ↔ row < count := by omega
        simp [same, within]

theorem rowsOf_layoutBelow (count : Nat) : (matrix.layoutBelow count).rowsOf column =
    (List.range count).filter (matrix.get · column) := by
  simp only [Layout.rowsOf, layoutBelow]
  induction count with
  | zero => simp [entriesBelow]
  | succ count ih =>
      rw [entriesBelow_succ, List.filter_append, List.map_append, ih, List.range_succ,
        List.filter_append]
      congr 1
      simp only [List.filter_map, List.map_map, Function.comp_def]
      by_cases set : matrix.get count column = true
      · have once := List.count_eq_one_of_mem (nodup_rowAt count) (mem_rowAt.mpr set)
        simp [set, List.filter_eq, once]
      · have absent := List.count_eq_zero_of_not_mem fun member => set (mem_rowAt.mp member)
        simp [set, List.filter_eq, absent]

theorem columnsOf_layout (row : Nat) : matrix.layout.columnsOf row = matrix.rowAt row := by
  rw [layout, columnsOf_layoutBelow]
  split
  · rfl
  · rename_i outside
    simp only [rowAt, row?, Array.getElem?_eq_none (Nat.not_lt.mp outside), Option.getD_none]

end IncidenceMatrix

end ExactCover
