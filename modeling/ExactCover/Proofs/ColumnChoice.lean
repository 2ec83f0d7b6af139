import ExactCover.Proofs.SearchStack

/-! # The column that a search chooses

Under a live header stand the open rows of the search without links, so that the two searches
choose the same column.
-/

namespace ExactCover

open ExactCover.Graph IncidenceMatrix AlgorithmX

variable {matrix : IncidenceMatrix} {covered live : List Nat} {graph : Graph}

theorem isOpen_iff {row column : Nat} : isOpen matrix live column row = true ↔
    matrix.get row column = true ∧ matrix.rowAt row ⊆ live := by
  simp only [isOpen]
  cases found : matrix.row? row with
  | none => simp [get_eq, found]
  | some columns => simp [get_eq, rowAt, found, List.subset_def]

theorem rowsUnder_eq_openRows {column : Nat} (alive : column ∉ covered) :
    matrix.rowsUnder covered column = openRows matrix (matrix.liveColumns covered) column := by
  rw [rowsUnder_of_live alive, openRows]
  refine List.filter_congr fun row _ => ?_
  rw [Bool.eq_iff_iff, isOpen_iff, Bool.and_eq_true, List.all_eq_true]
  refine and_congr_right fun _ => ?_
  constructor
  · intro clear j sets
    refine mem_liveColumns.mpr ⟨(get_inside (mem_rowAt.mp sets)).2, fun known => ?_⟩
    have unset := clear j known
    rw [mem_rowAt.mp sets] at unset
    exact Bool.noConfusion unset
  · intro within j known
    cases sets : matrix.get row j with
    | false => rfl
    | true => exact absurd known (mem_liveColumns.mp (within (mem_rowAt.mpr sets))).2

/-- Covering a live column without open rows takes no node out of another one. -/
theorem coverCost_eq_zero {column : Nat} (alive : column ∉ covered)
    (none : openRows matrix (matrix.liveColumns covered) column = []) :
    matrix.coverCost covered column = 0 := by
  rw [coverCost, rowsUnder_eq_openRows alive, none]
  rfl

/-- Of a column and the best of some later ones, the one with fewer open rows. -/
def best (matrix : IncidenceMatrix) (live : List Nat) (column : Nat) : Option Nat → Nat
  | none => column
  | some other =>
      if (openRows matrix live other).length < (openRows matrix live column).length then other
      else column

theorem pick_cons (column : Nat) (rest : List Nat) : pick matrix live (column :: rest) =
    some (best matrix live column (pick matrix live rest)) := by
  simp only [pick]
  cases pick matrix live rest with
  | none => rfl
  | some other =>
      simp only [best]
      split <;> rfl

theorem best_best (column next : Nat) (later : Option Nat) :
    best matrix live column (some (best matrix live next later)) =
      best matrix live (best matrix live column (some next)) later := by
  cases later with
  | none => rfl
  | some other => grind [best]

theorem foldlM_fewer (h : graph.Represents matrix covered) {columns : List Nat}
    (alive : columns ⊆ matrix.liveColumns covered) (column : Nat) :
    (columns.map header).foldlM graph.fewer
        (some (header column, (openRows matrix (matrix.liveColumns covered) column).length)) =
      .ok (let least := best matrix (matrix.liveColumns covered) column
            (pick matrix (matrix.liveColumns covered) columns)
          some (header least, (openRows matrix (matrix.liveColumns covered) least).length)) := by
  induction columns generalizing column with
  | nil => rfl
  | cons next columns ih =>
      obtain ⟨below, fresh⟩ := mem_liveColumns.mp (alive List.mem_cons_self)
      have counted := h.shows.counts below
      rw [rowsUnder_eq_openRows fresh] at counted
      have step : graph.fewer (some (header column,
          (openRows matrix (matrix.liveColumns covered) column).length)) (header next) =
          .ok (let least := best matrix (matrix.liveColumns covered) column (some next)
            some (header least, (openRows matrix (matrix.liveColumns covered) least).length)) := by
        simp only [fewer, countOf, counted, best, bind, Except.bind, pure, Except.pure]
        split <;> rfl
      rw [List.map_cons, List.foldlM_cons, step, pick_cons, best_best]
      exact ih (fun j hj => alive (List.mem_cons_of_mem next hj)) _

theorem Graph.Represents.chooseColumn_eq (h : graph.Represents matrix covered) :
    graph.chooseColumn = .ok ((pick matrix (matrix.liveColumns covered)
      (matrix.liveColumns covered)).map header) := by
  have ring : graph.liveHeaders = .ok ((matrix.liveColumns covered).map header) :=
    h.shows.root_ring.ring_eq
  simp only [chooseColumn, ring, bind, Except.bind]
  cases columns : matrix.liveColumns covered with
  | nil => rfl
  | cons first rest =>
      obtain ⟨below, fresh⟩ := mem_liveColumns.mp (columns ▸ List.mem_cons_self :
        first ∈ matrix.liveColumns covered)
      have counted := h.shows.counts below
      rw [rowsUnder_eq_openRows fresh] at counted
      have others := foldlM_fewer h (columns ▸ List.subset_cons_self first rest) first
      have step : graph.fewer none (header first) = .ok (some (header first,
          (openRows matrix (matrix.liveColumns covered) first).length)) := by
        simp only [fewer, countOf, counted, bind, Except.bind, pure, Except.pure]
      have picked : pick matrix (matrix.liveColumns covered) (matrix.liveColumns covered) =
          some (best matrix (matrix.liveColumns covered) first
            (pick matrix (matrix.liveColumns covered) rest)) :=
        (congrArg (pick matrix _) columns).trans (pick_cons first rest)
      rw [columns] at step others picked
      rw [List.map_cons, List.foldlM_cons, step, picked]
      simp only [bind, Except.bind, others]
      rfl

end ExactCover
