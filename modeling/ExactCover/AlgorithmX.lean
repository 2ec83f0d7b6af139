import ExactCover.IncidenceMatrix

/-! # The search without links

The search for exact covers as a recursion on the list of live columns. A row is open when it
sets live columns only. The search takes the first of the live columns with the fewest open rows
and tries these rows in ascending order, each time with its columns no longer live.

The tree of the search is a value: its leaves are the covers and the dead ends, and the order of
its branches is the order of the search.
-/

namespace ExactCover

/-- The tree of a search. -/
inductive SearchTree where
  /-- No column is live: the rows tried on the way are an exact cover. -/
  | solved
  /-- The rows of the chosen column, with what follows when they are tried; none at a dead end. -/
  | branch (column : Nat) (options : List (Nat × SearchTree))
  deriving Nonempty

namespace AlgorithmX

/-- Whether a row sets a column, and sets live columns only. -/
def isOpen (matrix : IncidenceMatrix) (live : List Nat) (column number : Nat) : Bool :=
  (matrix.row? number).any fun row => row.contains column && row.all live.contains

/-- The open rows of a column, in ascending order. -/
def openRows (matrix : IncidenceMatrix) (live : List Nat) (column : Nat) : List Nat :=
  (List.range matrix.size).filter (isOpen matrix live column)

/-- The first of the columns that have the fewest open rows. -/
def pick (matrix : IncidenceMatrix) (live : List Nat) : List Nat → Option Nat
  | [] => none
  | column :: rest =>
      match pick matrix live rest with
      | none => some column
      | some best =>
          if (openRows matrix live best).length < (openRows matrix live column).length then
            some best
          else some column

theorem pick_mem {matrix : IncidenceMatrix} {live columns : List Nat} {column : Nat}
    (h : pick matrix live columns = some column) : column ∈ columns := by
  induction columns generalizing column with
  | nil => simp [pick] at h
  | cons first rest ih =>
      simp only [pick] at h
      split at h
      · simp_all
      · rename_i best found
        split at h
        · have := ih found
          simp_all
        · simp_all

/-- The columns that stay live when a row is chosen. -/
def without (matrix : IncidenceMatrix) (live : List Nat) (number : Nat) : List Nat :=
  live.filter (!matrix.get number ·)

theorem get_of_mem_openRows {matrix : IncidenceMatrix} {live : List Nat} {column number : Nat}
    (h : number ∈ openRows matrix live column) : matrix.get number column = true := by
  have found := (List.mem_filter.1 h).2
  simp only [isOpen, Option.any_eq_true, Bool.and_eq_true] at found
  obtain ⟨row, hrow, sets, _⟩ := found
  simp only [IncidenceMatrix.get_eq, hrow, Option.any_some, sets]

theorem length_without_lt {matrix : IncidenceMatrix} {live : List Nat} {column number : Nat}
    (alive : column ∈ live) (opened : number ∈ openRows matrix live column) :
    (without matrix live number).length < live.length := by
  apply List.length_filter_lt_length_iff_exists.2
  exact ⟨column, alive, by simp [get_of_mem_openRows opened]⟩

/-- The tree of the search on these live columns. -/
def tree (matrix : IncidenceMatrix) (live : List Nat) : SearchTree :=
  match _h : pick matrix live live with
  | none => .solved
  | some column =>
      .branch column ((openRows matrix live column).attach.map fun ⟨number, _opened⟩ =>
        (number, tree matrix (without matrix live number)))
termination_by live.length
decreasing_by exact length_without_lt (pick_mem _h) _opened

end AlgorithmX

namespace SearchTree

mutual

/-- The exact covers at the leaves, each as the rows tried on the way, in the order of the
    search. -/
def covers : SearchTree → List (List Nat)
  | .solved => [[]]
  | .branch _ options => coversOf options

def coversOf : List (Nat × SearchTree) → List (List Nat)
  | [] => []
  | (number, below) :: rest => (covers below).map (number :: ·) ++ coversOf rest

end

/-- A place of the tree that a search comes to. -/
inductive Visit where
  /-- An exact cover, with the number of columns open there. -/
  | solved (depth : Nat)
  /-- A column without open rows, with the number of columns open there. -/
  | deadEnd (depth : Nat)
  /-- A column that is opened, with the number of columns open afterwards. -/
  | opened (depth : Nat)
  deriving DecidableEq

mutual

/-- The places of the tree in the order of the search, when so many columns are open above. -/
def visits (depth : Nat) : SearchTree → List Visit
  | .solved => [.solved depth]
  | .branch _ [] => [.deadEnd depth]
  | .branch _ (first :: rest) => .opened (depth + 1) :: visitsOf (depth + 1) (first :: rest)

def visitsOf (depth : Nat) : List (Nat × SearchTree) → List Visit
  | [] => []
  | (_, below) :: rest => visits depth below ++ visitsOf depth rest

end

end SearchTree

end ExactCover
