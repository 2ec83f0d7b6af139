import ExactCover.Search
import ExactCover.Proofs.ExactSearch

/-! # The stack of a search

A search that can stop and go on keeps a stack of open columns. Without its links such a stack is a
list of levels: an open column, the columns live when it was opened, and the rows of it that are
still to be tried. What the stack has yet to yield is read off the search trees of these rows, and
one step of the stack takes the first of it.
-/

namespace ExactCover

open AlgorithmX

/-- An open column of a search. -/
structure Level where
  column : Nat
  /-- The columns that were live when it was opened. -/
  live : List Nat
  /-- The row of the column that is being tried, if any is yet. -/
  trying : Option Nat
  /-- The rows of the column that are still to be tried. -/
  pending : List Nat

/-- The tally after a place of the tree has been visited. -/
def Tally.visit (tally : Tally) : SearchTree.Visit → Tally
  | .solved _ => { tally with solutions := tally.solutions + 1 }
  | .deadEnd _ => { tally with deadEnds := tally.deadEnds + 1 }
  | .opened depth => { tally with maxDepth := max tally.maxDepth depth }

/-- What a visit leads to, when these rows have been chosen on the way. -/
def SearchTree.Visit.event (rows : List Nat) : SearchTree.Visit → Event
  | .solved _ => .found rows
  | .deadEnd _ => .busy
  | .opened _ => .busy

namespace SearchTree

mutual

/-- The number of steps that a search makes below a place of the tree. -/
def work : SearchTree → Nat
  | .solved => 0
  | .branch _ [] => 0
  | .branch _ (first :: rest) => workOf (first :: rest) + 1

/-- The number of steps for trying each of these rows. -/
def workOf : List (Nat × SearchTree) → Nat
  | [] => 0
  | (_, below) :: rest => work below + 1 + workOf rest

end

end SearchTree

namespace SearchStack

variable {matrix : IncidenceMatrix} {live : List Nat} {level : Level} {below levels : List Level}

/-- The rows being tried, the newest first. -/
def chosen (levels : List Level) : List Nat := levels.filterMap Level.trying

/-- The rows still to be tried in a column, with what follows when they are. -/
def options (matrix : IncidenceMatrix) (live pending : List Nat) : List (Nat × SearchTree) :=
  pending.map fun row => (row, tree matrix (without matrix live row))

/-- The covers that a stack has yet to yield. -/
def covers (matrix : IncidenceMatrix) : List Level → List (List Nat)
  | [] => []
  | level :: below => (SearchTree.coversOf (options matrix level.live level.pending)).map
      ((chosen below).reverse ++ ·) ++ covers matrix below

/-- The steps that a stack has yet to make until it is empty. -/
def work (matrix : IncidenceMatrix) : List Level → Nat
  | [] => 0
  | level :: below =>
      SearchTree.workOf (options matrix level.live level.pending) + 1 + work matrix below

/-- Goes one level down, where these columns are live. -/
def descend (matrix : IncidenceMatrix) (live : List Nat) (levels : List Level) :
    SearchTree.Visit × List Level :=
  match pick matrix live live with
  | none => (.solved levels.length, levels)
  | some column =>
      match openRows matrix live column with
      | [] => (.deadEnd levels.length, levels)
      | row :: rest => (.opened (levels.length + 1), ⟨column, live, none, row :: rest⟩ :: levels)

/-- One step: the next row of the newest open column is tried and a place of the tree visited, or
    the column is closed. An empty stack makes no step. -/
def step (matrix : IncidenceMatrix) : List Level → Option (Option SearchTree.Visit × List Level)
  | [] => none
  | ⟨_, _, _, []⟩ :: below => some (none, below)
  | ⟨column, live, _, row :: rest⟩ :: below =>
      let (visit, levels) :=
        descend matrix (without matrix live row) (⟨column, live, some row, rest⟩ :: below)
      some (some visit, levels)

/-- A step closes the newest open column when no row of it is left, and tries the next one
    otherwise. -/
theorem step_cases {visit : Option SearchTree.Visit} {next : List Level}
    (made : step matrix levels = some (visit, next)) :
    (∃ column live trying, levels = ⟨column, live, trying, []⟩ :: next ∧ visit = none) ∨
      ∃ column live trying row rest below, levels = ⟨column, live, trying, row :: rest⟩ :: below ∧
        let tried := descend matrix (without matrix live row) (⟨column, live, some row, rest⟩ :: below)
        visit = some tried.1 ∧ next = tried.2 := by
  cases levels with
  | nil => exact absurd made.symm (Option.some_ne_none _)
  | cons level below =>
      obtain ⟨column, live, trying, pending⟩ := level
      cases pending with
      | nil =>
          cases made
          exact .inl ⟨column, live, trying, rfl, rfl⟩
      | cons row rest =>
          cases made
          exact .inr ⟨column, live, trying, row, rest, below, rfl, rfl, rfl⟩

/-- The cover that a visit yields, if any. -/
def yielded : SearchTree.Visit × List Level → List (List Nat)
  | (.solved _, levels) => [(chosen levels).reverse]
  | (.deadEnd _, _) => []
  | (.opened _, _) => []

theorem descend_solved (picked : pick matrix live live = none) :
    descend matrix live levels = (.solved levels.length, levels) := by
  simp only [descend, picked]

theorem descend_deadEnd {column : Nat} (picked : pick matrix live live = some column)
    (none : openRows matrix live column = []) :
    descend matrix live levels = (.deadEnd levels.length, levels) := by
  simp only [descend, picked, none]

theorem descend_opened {column row : Nat} {rest : List Nat}
    (picked : pick matrix live live = some column)
    (some : openRows matrix live column = row :: rest) : descend matrix live levels =
      (.opened (levels.length + 1), ⟨column, live, .none, row :: rest⟩ :: levels) := by
  simp only [descend, picked, some]

/-- Going down yields the covers of the tree, the first of them at once when it is a leaf. -/
theorem covers_descend (matrix : IncidenceMatrix) (live : List Nat) (levels : List Level) :
    yielded (descend matrix live levels) ++ covers matrix (descend matrix live levels).2 =
      (tree matrix live).covers.map ((chosen levels).reverse ++ ·) ++ covers matrix levels := by
  cases picked : pick matrix live live with
  | none =>
      rw [descend_solved picked, covers_tree_none picked]
      simp [yielded]
  | some column =>
      rw [tree_of_some picked]
      cases opened : openRows matrix live column with
      | nil =>
          rw [descend_deadEnd picked opened]
          simp [yielded, SearchTree.covers, SearchTree.coversOf]
      | cons row rest =>
          rw [descend_opened picked opened]
          simp [yielded, covers, SearchTree.covers, options]

theorem work_descend (matrix : IncidenceMatrix) (live : List Nat) (levels : List Level) :
    work matrix (descend matrix live levels).2 =
      (tree matrix live).work + work matrix levels := by
  cases picked : pick matrix live live with
  | none =>
      rw [descend_solved picked, tree_of_none picked, SearchTree.work, Nat.zero_add]
  | some column =>
      rw [tree_of_some picked]
      cases opened : openRows matrix live column with
      | nil => rw [descend_deadEnd picked opened, List.map_nil, SearchTree.work, Nat.zero_add]
      | cons row rest =>
          rw [descend_opened picked opened, List.map_cons, SearchTree.work]
          rfl

theorem chosen_descend (matrix : IncidenceMatrix) (live : List Nat) (levels : List Level) :
    chosen (descend matrix live levels).2 = chosen levels := by
  cases picked : pick matrix live live with
  | none => rw [descend_solved picked]
  | some column =>
      cases opened : openRows matrix live column with
      | nil => rw [descend_deadEnd picked opened]
      | cons row rest =>
          rw [descend_opened picked opened]
          rfl

/-- Closing a column yields nothing and uses up a step. -/
theorem close_step {column : Nat} {trying : Option Nat} :
    covers matrix (⟨column, live, trying, []⟩ :: below) = covers matrix below ∧
      work matrix (⟨column, live, trying, []⟩ :: below) = work matrix below + 1 := by
  simp [covers, work, options, SearchTree.coversOf, SearchTree.workOf, Nat.add_comm]

/-- Trying a row yields the first of what is to be yielded if it leads to a leaf, and uses up a
    step. -/
theorem try_step {column row : Nat} {trying : Option Nat} {rest : List Nat} :
    let next := descend matrix (without matrix live row) (⟨column, live, some row, rest⟩ :: below)
    covers matrix (⟨column, live, trying, row :: rest⟩ :: below) =
        yielded next ++ covers matrix next.2 ∧
      work matrix (⟨column, live, trying, row :: rest⟩ :: below) = work matrix next.2 + 1 := by
  refine ⟨?_, ?_⟩
  · rw [covers_descend]
    simp [covers, options, chosen, SearchTree.coversOf]
  · rw [work_descend]
    simp only [work, options, List.map_cons, SearchTree.workOf]
    omega

end SearchStack

namespace SearchTree

mutual

theorem length_covers_le : ∀ tree : SearchTree, tree.covers.length ≤ tree.work + 1
  | .solved => Nat.le_refl 1
  | .branch _ [] => Nat.zero_le _
  | .branch _ (first :: rest) => by
      have below := length_coversOf_le (first :: rest)
      simp only [covers, work]
      omega

theorem length_coversOf_le : ∀ options : List (Nat × SearchTree),
    (coversOf options).length ≤ workOf options
  | [] => Nat.le_refl 0
  | (_, tree) :: rest => by
      have first := length_covers_le tree
      have others := length_coversOf_le rest
      simp only [coversOf, workOf, List.length_append, List.length_map]
      omega

end

theorem workOf_le {options : List (Nat × SearchTree)} {bound : Nat}
    (h : ∀ option ∈ options, option.2.work + 1 ≤ bound) :
    workOf options ≤ options.length * bound := by
  induction options with
  | nil => simp [workOf]
  | cons option rest ih =>
      obtain ⟨number, tree⟩ := option
      have first : tree.work + 1 ≤ bound := h (number, tree) List.mem_cons_self
      have others := ih fun other member => h other (List.mem_cons_of_mem _ member)
      simp only [workOf, List.length_cons, Nat.succ_mul]
      omega

end SearchTree

namespace AlgorithmX

open IncidenceMatrix

variable {matrix : IncidenceMatrix} {live : List Nat} {row column : Nat}

/-- A column has no more open rows than the matrix has entries. -/
theorem length_openRows_le (matrix : IncidenceMatrix) (live : List Nat) (column : Nat) :
    (openRows matrix live column).length ≤ matrix.layout.entries.length := by
  have fewer : (openRows matrix live column).length ≤
      ((List.range matrix.size).filter (matrix.get · column)).length := by
    refine (List.subperm_of_subset (List.nodup_range.filter _) fun row opened => ?_).length_le
    have sets := (mem_openRows.mp opened).1
    exact List.mem_filter.mpr ⟨List.mem_range.mpr (get_inside sets).1, sets⟩
  refine fewer.trans ?_
  rw [← rowsOf_layoutBelow, Layout.rowsOf, List.length_map]
  exact List.length_filter_le _ _

/-- The steps of a search are bounded by a power of the number of entries. -/
theorem work_tree_lt (matrix : IncidenceMatrix) (live : List Nat) : (tree matrix live).work + 1 ≤
    (matrix.layout.entries.length + 2) ^ live.length := by
  induction measured : live.length using Nat.strong_induction_on generalizing live with
  | _ size ih =>
      cases picked : pick matrix live live with
      | none =>
          rw [tree_of_none picked, SearchTree.work]
          exact Nat.one_le_pow _ _ (Nat.succ_pos _)
      | some column =>
          rw [tree_of_some picked]
          have alive := pick_mem picked
          obtain ⟨bound, rfl⟩ : ∃ bound, size = bound + 1 :=
            Nat.exists_eq_succ_of_ne_zero (measured ▸ (List.length_pos_of_mem alive).ne')
          have positive : 1 ≤ (matrix.layout.entries.length + 2) ^ bound :=
            Nat.one_le_pow _ _ (Nat.succ_pos _)
          have each : ∀ option ∈ (openRows matrix live column).map fun row =>
              (row, tree matrix (without matrix live row)),
              option.2.work + 1 ≤ (matrix.layout.entries.length + 2) ^ bound := by
            intro option member
            obtain ⟨row, opened, rfl⟩ := List.mem_map.mp member
            have shorter := measured ▸ length_without_lt alive opened
            refine (ih _ shorter _ rfl).trans ?_
            exact Nat.pow_le_pow_right (Nat.succ_pos _) (Nat.le_of_lt_succ shorter)
          have total := SearchTree.workOf_le each
          rw [List.length_map] at total
          have width := length_openRows_le matrix live column
          have most : (openRows matrix live column).length *
              (matrix.layout.entries.length + 2) ^ bound ≤
              matrix.layout.entries.length * (matrix.layout.entries.length + 2) ^ bound :=
            Nat.mul_le_mul_right _ width
          rw [Nat.pow_succ', Nat.add_mul]
          cases found : (openRows matrix live column).map fun row =>
              (row, tree matrix (without matrix live row)) with
          | nil =>
              rw [SearchTree.work]
              omega
          | cons first rest =>
              rw [found] at total
              rw [SearchTree.work]
              omega

end AlgorithmX

end ExactCover
